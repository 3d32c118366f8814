import InventoryBot.Lib.Comparator
import InventoryBot.Menu.BotService
import Mathlib.Data.List.Permutation

/-!
# The comparator of sales and purchases

`Array.prototype.sort` reads the sign of what `compareToFIFO` returns, and `NaN` as `+0`. Read so,
the comparator is antisymmetric and "less" is transitive, whatever the transactions are. But a
transaction whose `order` is no number compares equal to all of its date, and one without a
creation time to all of its date and order. Where these others differ, no order is the sorted one.

* `fifoCompare_swap`, `fifoCompare_lt_trans`: what holds of all transactions.
* `fifoCompare_eq_iff`: the transactions that compare equal.
* `compareToFIFO_consistent_iff`: when the comparator is consistent and the sorted order is one.
-/

namespace InventoryBot

namespace JsNumber

/-- `x < y`. -/
def lt : JsNumber → JsNumber → Prop
  | fin a, fin b => a < b
  | negInf, fin _ => True
  | negInf, posInf => True
  | fin _, posInf => True
  | _, _ => False

variable {x y z : JsNumber}

theorem sign_sub_swap (x y : JsNumber) : (y.sub x).sign = (x.sub y).sign.swap := by
  cases x with
  | fin a =>
    cases y with
    | fin b =>
      rcases lt_trichotomy a b with h | rfl | h
      · simp [sign, h, not_lt_of_gt h]
      · simp [sign]
      · simp [sign, h, not_lt_of_gt h]
    | _ => rfl
  | _ => cases y <;> rfl

theorem sign_sub_lt_iff : (x.sub y).sign = .lt ↔ x.lt y := by
  cases x with
  | fin a =>
    cases y with
    | fin b =>
      rcases lt_trichotomy a b with h | rfl | h
      · simp [sign, lt, h]
      · simp [sign, lt]
      · simp [sign, lt, h, h.le]
    | _ => simp [sub, sign, lt]
  | _ => cases y <;> simp [sub, sign, lt]

theorem sub_eq_zero_iff : x.sub y = fin 0 ↔ ∃ q, x = fin q ∧ y = fin q := by
  cases x with
  | fin a =>
    cases y with
    | fin b => simp [sub_eq_zero, eq_comm]
    | _ => simp [sub]
  | _ => cases y <;> simp [sub]

theorem lt.trans (hxy : x.lt y) (hyz : y.lt z) : x.lt z := by
  cases x <;> cases y <;> simp only [lt] at hxy <;> cases z <;> simp only [lt] at hyz ⊢
  exact lt_trans hxy hyz

theorem lt_or_lt_iff : x.lt y ∨ y.lt x ↔ x ≠ nan ∧ y ≠ nan ∧ x ≠ y := by
  cases x with
  | fin a =>
    cases y with
    | fin b => simp [lt, lt_or_lt_iff_ne]
    | _ => simp [lt]
  | _ => cases y <;> simp [lt]

end JsNumber

namespace Menu

open Lib BotService

/-- `compareToFIFO` as `Array.prototype.sort` reads it. -/
def fifoCompare (P : Platform) (a b : Transaction) : Ordering := (compareToFIFO P a b).sign

/-- The millisecond of creation tells two transactions of one finite order in this order. -/
def CreatedBefore (P : Platform) (a b : Transaction) : Prop :=
  ∃ q, orderValue P a = .fin q ∧ orderValue P b = .fin q ∧
    ∃ c c', a.createdAt = some c ∧ b.createdAt = some c' ∧ c % 1000 < c' % 1000

/-- `compareToFIFO` goes on to the creation times of the two. -/
def ByCreation (P : Platform) (a b : Transaction) : Prop :=
  ∃ q c c', orderValue P a = .fin q ∧ orderValue P b = .fin q ∧ a.createdAt = some c ∧
    b.createdAt = some c'

/-- Order or millisecond of creation tell two transactions apart. -/
def Apart (P : Platform) (a b : Transaction) : Prop :=
  (orderValue P a ≠ .nan ∧ orderValue P b ≠ .nan ∧ orderValue P a ≠ orderValue P b) ∨
    ∃ q, orderValue P a = .fin q ∧ orderValue P b = .fin q ∧
      ∃ c c', a.createdAt = some c ∧ b.createdAt = some c' ∧ c % 1000 ≠ c' % 1000

/-- Where an `order` is no number, nothing tells the transactions of its date apart; where a
    creation time is missing, those of its date and order show one millisecond. -/
structure Unambiguous (P : Platform) (l : List Transaction) : Prop where
  order : ∀ n ∈ l, orderValue P n = .nan → ∀ a ∈ l, ∀ b ∈ l, a.date = n.date → b.date = n.date →
    ¬Apart P a b
  createdAt : ∀ n ∈ l, n.createdAt = none → ∀ q, orderValue P n = .fin q → ∀ a ∈ l, ∀ b ∈ l,
    a.date = n.date → b.date = n.date → orderValue P a = .fin q → orderValue P b = .fin q →
      ∀ c c', a.createdAt = some c → b.createdAt = some c' → c % 1000 = c' % 1000

section FifoComparator

variable {P : Platform} {a b c : Transaction} {l : List Transaction}

theorem ByCreation.symm (h : ByCreation P a b) : ByCreation P b a := by
  obtain ⟨q, c, c', ha, hb, hac, hbc⟩ := h
  exact ⟨q, c', c, hb, ha, hbc, hac⟩

theorem CreatedBefore.byCreation (h : CreatedBefore P a b) : ByCreation P a b := by
  obtain ⟨q, ha, hb, c, c', hac, hbc, -⟩ := h
  exact ⟨q, c, c', ha, hb, hac, hbc⟩

theorem fifoLe_iff_ne_gt : fifoLe P a b ↔ fifoCompare P a b ≠ .gt := JsNumber.isPos_eq_false_iff

/-- By a consistent comparator every runtime sorts as insertion does. -/
theorem sortFIFO_eq_insertionSort (h : ConsistentOn (fifoCompare P) l) :
    sortFIFO P l = l.insertionSort (fifoLe P) :=
  Platform.sort_eq_insertionSorted h

/-! ### The three keys -/

theorem compareToFIFO_date (h : a.date ≠ b.date) :
    compareToFIFO P a b = (JsNumber.fin a.date).sub (.fin b.date) := by
  unfold compareToFIFO
  rw [if_neg (sub_ne_zero.2 h), JsNumber.sub_fin, Int.cast_sub]

theorem compareToFIFO_createdAt (h : a.date = b.date) {q : ℚ} {c c' : ℕ}
    (ha : orderValue P a = .fin q) (hb : orderValue P b = .fin q) (hac : a.createdAt = some c)
    (hbc : b.createdAt = some c') :
    compareToFIFO P a b = (JsNumber.fin (c % 1000 : ℕ)).sub (.fin (c' % 1000 : ℕ)) := by
  unfold compareToFIFO
  simp [h, ha, hb, hac, hbc]

theorem compareToFIFO_order (h : a.date = b.date) (hcreated : ¬ByCreation P a b) :
    compareToFIFO P a b = (orderValue P a).sub (orderValue P b) := by
  unfold compareToFIFO
  rw [if_pos (sub_eq_zero.2 h)]
  cases hac : a.createdAt with
  | none => rfl
  | some c =>
    cases hbc : b.createdAt with
    | none => rfl
    | some c' =>
      refine if_neg fun hzero => hcreated ?_
      obtain ⟨q, ha, hb⟩ := JsNumber.sub_eq_zero_iff.1 hzero
      exact ⟨q, c, c', ha, hb, hac, hbc⟩

/-! ### Antisymmetry and "less" -/

/-- The comparator is antisymmetric. -/
theorem fifoCompare_swap (P : Platform) (a b : Transaction) :
    fifoCompare P b a = (fifoCompare P a b).swap := by
  unfold fifoCompare
  by_cases hdate : a.date = b.date
  · by_cases hcreated : ByCreation P a b
    · obtain ⟨q, c, c', ha, hb, hac, hbc⟩ := hcreated
      rw [compareToFIFO_createdAt hdate ha hb hac hbc,
        compareToFIFO_createdAt hdate.symm hb ha hbc hac, JsNumber.sign_sub_swap]
    · rw [compareToFIFO_order hdate hcreated,
        compareToFIFO_order hdate.symm fun h => hcreated h.symm, JsNumber.sign_sub_swap]
  · rw [compareToFIFO_date hdate, compareToFIFO_date (Ne.symm hdate), JsNumber.sign_sub_swap]

/-- "Less" compares the dates, then the orders, then the milliseconds of creation. -/
theorem fifoCompare_lt_iff : fifoCompare P a b = .lt ↔ a.date < b.date ∨ a.date = b.date ∧
    ((orderValue P a).lt (orderValue P b) ∨ CreatedBefore P a b) := by
  unfold fifoCompare
  by_cases hdate : a.date = b.date
  · by_cases hcreated : ByCreation P a b
    · obtain ⟨q, c, c', ha, hb, hac, hbc⟩ := hcreated
      rw [compareToFIFO_createdAt hdate ha hb hac hbc, JsNumber.sign_sub_lt_iff]
      simp [CreatedBefore, JsNumber.lt, hdate, ha, hb, hac, hbc]
    · rw [compareToFIFO_order hdate hcreated, JsNumber.sign_sub_lt_iff]
      have hno : ¬CreatedBefore P a b := fun h => hcreated h.byCreation
      simp [hdate, hno]
  · rw [compareToFIFO_date hdate, JsNumber.sign_sub_lt_iff]
    simp [JsNumber.lt, hdate]

theorem fifoCompare_gt_iff : fifoCompare P a b = .gt ↔ fifoCompare P b a = .lt := by
  rw [fifoCompare_swap P a b, Ordering.swap_eq_lt]

theorem CreatedBefore.trans (hab : CreatedBefore P a b) (hbc : CreatedBefore P b c) :
    CreatedBefore P a c := by
  obtain ⟨q, ha, hb, i, j, hai, hbj, hij⟩ := hab
  obtain ⟨q', hb', hc, j', k, hbj', hck, hjk⟩ := hbc
  obtain rfl : q = q' := JsNumber.fin.inj (hb.symm.trans hb')
  obtain rfl : j = j' := Option.some.inj (hbj.symm.trans hbj')
  exact ⟨q, ha, hc, i, k, hai, hck, hij.trans hjk⟩

/-- "Less" is transitive. -/
theorem fifoCompare_lt_trans (hab : fifoCompare P a b = .lt) (hbc : fifoCompare P b c = .lt) :
    fifoCompare P a c = .lt := by
  rw [fifoCompare_lt_iff] at hab hbc ⊢
  rcases hab with hab | ⟨habd, hab⟩
  · left
    rcases hbc with hbc | ⟨hbcd, -⟩
    · exact hab.trans hbc
    · exact hbcd ▸ hab
  · rcases hbc with hbc | ⟨hbcd, hbc⟩
    · exact Or.inl (habd ▸ hbc)
    · refine Or.inr ⟨habd.trans hbcd, ?_⟩
      -- an equal finite order hands "less" on to the other side
      rcases hab with hab | hab
      · rcases hbc with hbc | ⟨q, hb, hc, -⟩
        · exact Or.inl (hab.trans hbc)
        · exact Or.inl (hc.symm ▸ hb ▸ hab)
      · rcases hbc with hbc | hbc
        · obtain ⟨q, ha, hb, -⟩ := hab
          exact Or.inl (ha.symm ▸ hb ▸ hbc)
        · exact Or.inr (hab.trans hbc)

/-! ### "Equal" -/

/-- Told apart are those of which one has the lesser order or was created in a lesser
    millisecond. -/
theorem apart_iff : Apart P a b ↔
    ((orderValue P a).lt (orderValue P b) ∨ CreatedBefore P a b) ∨
      ((orderValue P b).lt (orderValue P a) ∨ CreatedBefore P b a) := by
  rw [or_or_or_comm, JsNumber.lt_or_lt_iff]
  refine or_congr_right ?_
  constructor
  · rintro ⟨q, ha, hb, c, c', hac, hbc, hne⟩
    rcases lt_or_gt_of_ne hne with hlt | hgt
    · exact Or.inl ⟨q, ha, hb, c, c', hac, hbc, hlt⟩
    · exact Or.inr ⟨q, hb, ha, c', c, hbc, hac, hgt⟩
  · rintro (⟨q, ha, hb, c, c', hac, hbc, hlt⟩ | ⟨q, hb, ha, c', c, hbc, hac, hgt⟩)
    · exact ⟨q, ha, hb, c, c', hac, hbc, hlt.ne⟩
    · exact ⟨q, ha, hb, c, c', hac, hbc, hgt.ne'⟩

/-- Two transactions compare equal that have one date and are not told apart. -/
theorem fifoCompare_eq_iff : fifoCompare P a b = .eq ↔ a.date = b.date ∧ ¬Apart P a b := by
  have hcases : fifoCompare P a b = .eq ↔
      ¬fifoCompare P a b = .lt ∧ ¬fifoCompare P b a = .lt := by
    rw [← fifoCompare_gt_iff (a := a)]
    cases fifoCompare P a b <;> simp
  rw [hcases, fifoCompare_lt_iff, fifoCompare_lt_iff, apart_iff]
  constructor
  · rintro ⟨hab, hba⟩
    have hdate : a.date = b.date := by
      refine le_antisymm (not_lt.1 fun hlt => hba (Or.inl hlt)) (not_lt.1 fun hlt => hab (Or.inl hlt))
    refine ⟨hdate, ?_⟩
    rintro (h | h)
    · exact hab (Or.inr ⟨hdate, h⟩)
    · exact hba (Or.inr ⟨hdate.symm, h⟩)
  · rintro ⟨hdate, happart⟩
    constructor
    · rintro (hlt | ⟨-, h⟩)
      · exact hlt.ne hdate
      · exact happart (Or.inl h)
    · rintro (hlt | ⟨-, h⟩)
      · exact hlt.ne' hdate
      · exact happart (Or.inr h)

/-- Two numbers that do not tell apart are the same. -/
theorem orderValue_eq_of_not_apart (h : ¬Apart P a b) (ha : orderValue P a ≠ .nan)
    (hb : orderValue P b ≠ .nan) : orderValue P a = orderValue P b :=
  not_not.1 fun hne => h (Or.inl ⟨ha, hb, hne⟩)

/-- Where no missing value hides a difference, what is not told apart from a third is not told
    apart. -/
theorem Unambiguous.not_apart (h : Unambiguous P l) (ha : a ∈ l) (hb : b ∈ l) (hc : c ∈ l)
    (hab : a.date = b.date) (hcb : c.date = b.date) (habn : ¬Apart P a b) (hbcn : ¬Apart P b c) :
    ¬Apart P a c := by
  by_cases hnan : orderValue P b = .nan
  · exact h.order b hb hnan a ha c hc hab hcb
  · rintro (⟨han, hcn, hne⟩ | ⟨q, haq, hcq, i, k, hai, hck, hne⟩)
    · have hao := orderValue_eq_of_not_apart habn han hnan
      have hco := orderValue_eq_of_not_apart hbcn hnan hcn
      exact hne (hao.trans hco)
    · have hbq : orderValue P b = .fin q := by
        rw [← haq]
        exact (orderValue_eq_of_not_apart habn (by simp [haq]) hnan).symm
      cases hbj : b.createdAt with
      | none => exact hne (h.createdAt b hb hbj q hbq a ha c hc hab hcb haq hcq i k hai hck)
      | some j =>
        have hij : i % 1000 = j % 1000 :=
          not_not.1 fun hne => habn (Or.inr ⟨q, haq, hbq, i, j, hai, hbj, hne⟩)
        have hjk : j % 1000 = k % 1000 :=
          not_not.1 fun hne => hbcn (Or.inr ⟨q, hbq, hcq, j, k, hbj, hck, hne⟩)
        exact hne (hij.trans hjk)

/-- "Equal" is transitive on a list exactly where no missing value hides a difference. -/
theorem fifoCompare_eq_trans_iff :
    (∀ a ∈ l, ∀ b ∈ l, ∀ c ∈ l, fifoCompare P a b = .eq → fifoCompare P b c = .eq →
      fifoCompare P a c = .eq) ↔ Unambiguous P l := by
  simp only [fifoCompare_eq_iff]
  constructor
  · intro htrans
    refine ⟨?_, ?_⟩
    · intro n hn hnan a ha b hb hadate hbdate
      have han : ¬Apart P a n := by
        rintro (⟨-, h, -⟩ | ⟨q, -, h, -⟩)
        · exact h hnan
        · exact absurd (hnan.symm.trans h) (by simp)
      have hnb : ¬Apart P n b := by
        rintro (⟨h, -⟩ | ⟨q, h, -⟩)
        · exact h hnan
        · exact absurd (hnan.symm.trans h) (by simp)
      exact (htrans a ha n hn b hb ⟨hadate, han⟩ ⟨hbdate.symm, hnb⟩).2
    · intro n hn hnone q hnq a ha b hb hadate hbdate haq hbq c c' hac hbc
      have han : ¬Apart P a n := by
        rintro (⟨-, -, h⟩ | ⟨q, -, -, c, c', -, h, -⟩)
        · exact h (haq.trans hnq.symm)
        · exact absurd (hnone.symm.trans h) (by simp)
      have hnb : ¬Apart P n b := by
        rintro (⟨-, -, h⟩ | ⟨q, -, -, c, c', h, -⟩)
        · exact h (hnq.trans hbq.symm)
        · exact absurd (hnone.symm.trans h) (by simp)
      have hab := (htrans a ha n hn b hb ⟨hadate, han⟩ ⟨hbdate.symm, hnb⟩).2
      exact not_not.1 fun hne => hab (Or.inr ⟨q, haq, hbq, c, c', hac, hbc, hne⟩)
  · rintro h a ha b hb c hc ⟨hab, habn⟩ ⟨hbc, hbcn⟩
    exact ⟨hab.trans hbc, h.not_apart ha hb hc hab hbc.symm habn hbcn⟩

/-- Where no missing value hides a difference, the comparator is consistent. -/
theorem Unambiguous.consistent (h : Unambiguous P l) : ConsistentOn (fifoCompare P) l where
  antisymm := fun a _ b _ => fifoCompare_swap P a b
  lt_trans := fun _ _ _ _ _ _ => fifoCompare_lt_trans
  eq_trans := fifoCompare_eq_trans_iff.2 h

/-- `compareToFIFO` is a consistent comparator on a list, by which the list has one sorted order,
    if and only if no missing value hides a difference. -/
theorem compareToFIFO_consistent_iff (P : Platform) (l : List Transaction) :
    (ConsistentOn (fifoCompare P) l ∧
      ∀ l', StableSorting (fifoCompare P) l l' ↔ l' = sortFIFO P l) ↔ Unambiguous P l := by
  constructor
  · rintro ⟨hconsistent, -⟩
    exact fifoCompare_eq_trans_iff.1 hconsistent.eq_trans
  · intro h
    refine ⟨h.consistent, fun l' => ?_⟩
    rw [sortFIFO_eq_insertionSort h.consistent]
    exact h.consistent.stableSorting_iff fun a _ b _ => fifoLe_iff_ne_gt

end FifoComparator

namespace Sample

/-- A purchase of the first day by the instant of its creation. -/
def createdAt (id code : String) (instant : ℕ) : Transaction :=
  { id := id, date := 1, createdAt := some instant, amount := 10,
    creditAccount := some ⟨"a-buy", "Buy", .incoming⟩,
    debitAccount := some ⟨"a-widgets", "Widgets", .asset⟩, remoteIds := [id],
    agentId := some "inventory-bot", goodPurchaseCost := some 100, originalQuantity := some 10,
    purchaseCode := some code, totalCost := some 100 }

/-- A purchase of the first day with the text of its `order`. -/
def ordered (id order : String) : Transaction :=
  { createdAt id ("P" ++ id) 1500 with order := some order }

/-- The purchases of order "2", "x" and "1": the first and the last are each equal to the second,
    but not to each other. -/
def disordered : List Transaction := [ordered "1" "2", ordered "2" "x", ordered "3" "1"]

/-- "Equal" is not transitive on the three, and no order of them is their sorted order. -/
theorem disordered_inconsistent : ¬ConsistentOn (fifoCompare decimalPlatform) disordered ∧
    ¬∃ l, StableSorting (fifoCompare decimalPlatform) disordered l := by
  have hsorted : ∀ m ∈ disordered.zipIdx.permutations',
      ¬m.Pairwise (Before (fifoCompare decimalPlatform)) := by
    unfold Before
    decide +kernel
  constructor
  · intro h
    have heq := h.eq_trans (ordered "1" "2") (by simp [disordered]) (ordered "2" "x")
      (by simp [disordered]) (ordered "3" "1") (by simp [disordered])
      (by decide +kernel) (by decide +kernel)
    exact absurd heq (by decide +kernel)
  · rintro ⟨l, m, hperm, hpairwise, -⟩
    exact hsorted m (List.mem_permutations'.2 hperm) hpairwise

end Sample

end Menu

end InventoryBot
