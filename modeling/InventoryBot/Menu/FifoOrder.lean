import InventoryBot.Menu.FifoComparator
import InventoryBot.Menu.Desk
import Mathlib.Data.Prod.Lex

/-!
# The order of sales and purchases

Where the `order` properties are numbers and the creation times are known, `compareToFIFO`
compares the date, the order and the millisecond of creation, one after the other. The sorted
transactions up to a date are then those that a later date would put first.

* `fifoLe_iff`: the comparator as an order of keys.
* `sortFIFO_filter`, `sortFIFO_map`, `sortFIFO_until`: sorting a part of the transactions, the
  rewritten transactions, and the transactions up to a date.
* `sortFIFO_chronological_iff`: when the sorted transactions stand in the order in which they
  were created.
-/

namespace InventoryBot.Menu

open Lib BotService

/-- The `order` of a transaction is absent or a number, and its creation time is known. -/
structure Sortable (P : Platform) (t : Transaction) : Prop where
  order : ∃ q, orderValue P t = .fin q
  createdAt : t.createdAt ≠ none

/-- The `order` of a transaction as a number. -/
def orderNumber (P : Platform) (t : Transaction) : ℚ :=
  match orderValue P t with
  | .fin q => q
  | _ => 0

/-- What `compareToFIFO` looks at. -/
def fifoKey (P : Platform) (t : Transaction) : ℤ ×ₗ ℚ ×ₗ ℕ :=
  toLex (t.date, toLex (orderNumber P t, t.createdAt.getD 0 % 1000))

section FifoOrder

variable {P : Platform} {a b : Transaction} {l : List Transaction}

/-- `compareToFIFO` compares the keys. -/
theorem fifoLe_iff (ha : Sortable P a) (hb : Sortable P b) :
    fifoLe P a b ↔ fifoKey P a ≤ fifoKey P b := by
  obtain ⟨x, hx⟩ := ha.order
  obtain ⟨y, hy⟩ := hb.order
  obtain ⟨c, hc⟩ := Option.ne_none_iff_exists'.1 ha.createdAt
  obtain ⟨c', hc'⟩ := Option.ne_none_iff_exists'.1 hb.createdAt
  have hkeys : fifoKey P a ≤ fifoKey P b ↔ a.date < b.date ∨
      a.date = b.date ∧ (x < y ∨ x = y ∧ c % 1000 ≤ c' % 1000) := by
    simp only [fifoKey, orderNumber, hx, hy, hc, hc', Prod.Lex.toLex_le_toLex, Option.getD_some]
  rw [hkeys]
  unfold fifoLe compareToFIFO
  simp only [hx, hy, hc, hc', JsNumber.sub_fin]
  by_cases hdate : a.date - b.date = 0
  · have hsame : a.date = b.date := sub_eq_zero.1 hdate
    rw [if_pos hdate]
    by_cases hxy : x = y
    · subst hxy
      simp [hsame]
    · have hne : x - y ≠ 0 := sub_ne_zero.2 hxy
      have hle : x ≤ y ↔ x < y := ⟨fun h => lt_of_le_of_ne h hxy, le_of_lt⟩
      simp [hsame, hxy, hne, hle]
  · have hne : a.date ≠ b.date := fun h => hdate (sub_eq_zero.2 h)
    have hle : a.date ≤ b.date ↔ a.date < b.date := ⟨fun h => lt_of_le_of_ne h hne, le_of_lt⟩
    rw [if_neg hdate, JsNumber.isPos_fin, decide_eq_false_iff_not, not_lt, Int.cast_nonpos,
      sub_nonpos, hle]
    simp [hne]

/-- Orders that are numbers and known creation times hide nothing. -/
theorem unambiguous_of_sortable (h : ∀ t ∈ l, Sortable P t) : Unambiguous P l := by
  refine ⟨?_, ?_⟩
  · intro n hn hnan
    obtain ⟨q, hq⟩ := (h n hn).order
    exact absurd (hnan.symm.trans hq) (by simp)
  · intro n hn hnone
    exact absurd hnone (h n hn).createdAt

/-- Sorting is sorting by the keys. -/
theorem sortFIFO_eq (h : ∀ t ∈ l, Sortable P t) :
    sortFIFO P l = l.insertionSort fun a b => fifoKey P a ≤ fifoKey P b := by
  rw [sortFIFO_eq_insertionSort (unambiguous_of_sortable h).consistent]
  exact insertionSort_congr
    (List.pairwise_of_forall_mem_list fun a ha b hb => fifoLe_iff (h a ha) (h b hb))

instance : IsTrans Transaction fun a b => fifoKey P a ≤ fifoKey P b :=
  ⟨fun _ _ _ => le_trans⟩

instance : Std.Total fun a b : Transaction => fifoKey P a ≤ fifoKey P b :=
  ⟨fun a b => le_total (fifoKey P a) (fifoKey P b)⟩

/-- Selecting after sorting is sorting what is selected. -/
theorem sortFIFO_filter (h : ∀ t ∈ l, Sortable P t) (p : Transaction → Bool) :
    (sortFIFO P l).filter p = sortFIFO P (l.filter p) := by
  rw [sortFIFO_eq h, sortFIFO_eq fun t ht => h t (List.mem_of_mem_filter ht),
    filter_insertionSort]

/-- Rewriting that keeps what is compared may be done after sorting. -/
theorem sortFIFO_map (h : ∀ t ∈ l, Sortable P t) (f : Transaction → Transaction)
    (hf : ∀ t ∈ l, (f t).date = t.date ∧ (f t).order = t.order ∧ (f t).createdAt = t.createdAt) :
    sortFIFO P (l.map f) = (sortFIFO P l).map f := by
  have hsame : ∀ t ∈ l, orderValue P (f t) = orderValue P t := by
    intro t ht
    unfold orderValue
    rw [(hf t ht).2.1]
  have hrewritten : ∀ t ∈ l.map f, Sortable P t := by
    intro t' ht'
    obtain ⟨t, ht, rfl⟩ := List.mem_map.1 ht'
    obtain ⟨q, hq⟩ := (h t ht).order
    exact ⟨⟨q, (hsame t ht).trans hq⟩, (hf t ht).2.2 ▸ (h t ht).createdAt⟩
  rw [sortFIFO_eq hrewritten, sortFIFO_eq h]
  refine (List.map_insertionSort _ _ f l fun a ha b hb => ?_).symm
  have hkey : ∀ t ∈ l, fifoKey P (f t) = fifoKey P t := by
    intro t ht
    obtain ⟨hdate, -, hcreated⟩ := hf t ht
    unfold fifoKey orderNumber
    rw [hdate, hsame t ht, hcreated]
  rw [hkey a ha, hkey b hb]

/-- Rewriting keeps a transaction sortable. -/
theorem sortable_of_trace {t t' : Transaction} (h : Relation.ReflTransGen (Written P) t t')
    (ht : Sortable P t) : Sortable P t' := by
  obtain ⟨horder, hcreatedAt⟩ := order_of_trace h
  refine ⟨?_, hcreatedAt ▸ ht.createdAt⟩
  unfold orderValue
  rw [horder]
  exact ht.order

/-- The transactions up to a date come first. -/
theorem sortFIFO_until (h : ∀ t ∈ l, Sortable P t) (before : Date) :
    sortFIFO P l = sortFIFO P (l.filter fun t => t.date < before) ++
      sortFIFO P (l.filter fun t => !decide (t.date < before)) := by
  rw [sortFIFO_eq h, sortFIFO_eq fun t ht => h t (List.mem_of_mem_filter ht),
    sortFIFO_eq fun t ht => h t (List.mem_of_mem_filter ht)]
  refine insertionSort_eq_append (fun t : Transaction => t.date < before) fun a _ b _ ha hb => ?_
  have hlt : a.date < b.date := lt_of_lt_of_le (of_decide_eq_true ha)
    (not_lt.1 (of_decide_eq_false hb))
  exact not_le.2 (Prod.Lex.toLex_lt_toLex.2 (Or.inl hlt))

end FifoOrder

/-! ## The order of creation -/

/-- Date, order and instant of creation of a transaction. -/
def chronologicalKey (P : Platform) (t : Transaction) : ℤ ×ₗ ℚ ×ₗ ℕ :=
  toLex (t.date, toLex (orderNumber P t, t.createdAt.getD 0))

/-- Every transaction stands before those with a later date, order and instant of creation. -/
def Chronological (P : Platform) (l : List Transaction) : Prop :=
  l.Pairwise fun a b => ¬chronologicalKey P b < chronologicalKey P a

/-- Of two transactions of one date and order, the milliseconds within the second say which was
    created first. -/
def SecondsAgree (P : Platform) (a b : Transaction) : Prop :=
  a.date = b.date → orderNumber P a = orderNumber P b →
    (a.createdAt.getD 0 % 1000 ≤ b.createdAt.getD 0 % 1000 ↔
      a.createdAt.getD 0 ≤ b.createdAt.getD 0)

section Chronological

variable {P : Platform} {a b : Transaction} {l : List Transaction}

theorem fifoKey_le : fifoKey P a ≤ fifoKey P b ↔ a.date < b.date ∨ a.date = b.date ∧
    (orderNumber P a < orderNumber P b ∨ orderNumber P a = orderNumber P b ∧
      a.createdAt.getD 0 % 1000 ≤ b.createdAt.getD 0 % 1000) := by
  simp only [fifoKey, Prod.Lex.toLex_le_toLex]

theorem chronologicalKey_le : chronologicalKey P a ≤ chronologicalKey P b ↔
    a.date < b.date ∨ a.date = b.date ∧
      (orderNumber P a < orderNumber P b ∨ orderNumber P a = orderNumber P b ∧
        a.createdAt.getD 0 ≤ b.createdAt.getD 0) := by
  simp only [chronologicalKey, Prod.Lex.toLex_le_toLex]

/-- The two keys order two transactions alike if the milliseconds agree on them. -/
theorem SecondsAgree.keys (h : SecondsAgree P a b) :
    fifoKey P a ≤ fifoKey P b ↔ chronologicalKey P a ≤ chronologicalKey P b := by
  rw [fifoKey_le, chronologicalKey_le]
  refine or_congr_right (and_congr_right fun hdate =>
    or_congr_right (and_congr_right fun horder => ?_))
  exact h hdate horder

/-- In a sorted list that is chronological, the comparator never contradicts the order of
    creation. -/
theorem chronologicalKey_le_of_sorted
    (hsorted : l.Pairwise fun a b => fifoKey P a ≤ fifoKey P b) (h : Chronological P l)
    (ha : a ∈ l) (hb : b ∈ l) (hlt : fifoKey P a < fifoKey P b) :
    chronologicalKey P a ≤ chronologicalKey P b := by
  have hforward : l.Pairwise fun a b =>
      fifoKey P a < fifoKey P b → chronologicalKey P a ≤ chronologicalKey P b := by
    refine h.imp ?_
    intro a b hkept _
    exact not_lt.1 hkept
  have hbackward : l.Pairwise (flip fun a b =>
      fifoKey P a < fifoKey P b → chronologicalKey P a ≤ chronologicalKey P b) := by
    refine hsorted.imp ?_
    intro a b hle hlt
    exact absurd hlt (not_lt.2 hle)
  exact List.Pairwise.forall_of_forall_of_flip (fun t _ _ => le_rfl) hforward hbackward ha hb hlt

/-- Sorted by the comparator, the transactions are in chronological order if and only if the
    milliseconds within the second order those of one date and order as their creation does. -/
theorem sortFIFO_chronological_iff (h : ∀ t ∈ l, Sortable P t) :
    Chronological P (sortFIFO P l) ↔ l.Pairwise (SecondsAgree P) := by
  rw [sortFIFO_eq h]
  constructor
  · intro hsorted
    rw [List.pairwise_iff_forall_sublist]
    intro a b hab hdate horder
    constructor
    · -- sorting keeps the pair in its order
      intro hseconds
      have hkey : fifoKey P a ≤ fifoKey P b :=
        fifoKey_le.2 (Or.inr ⟨hdate, Or.inr ⟨horder, hseconds⟩⟩)
      have hkept := hsorted.forall_sublist (List.pair_sublist_insertionSort (r := _) hkey hab)
      rcases chronologicalKey_le.1 (not_lt.1 hkept) with hlt | ⟨-, hlt | ⟨-, hle⟩⟩
      · exact absurd hdate hlt.ne
      · exact absurd horder hlt.ne
      · exact hle
    · intro hcreated
      by_contra hseconds
      have hkey : fifoKey P b < fifoKey P a :=
        not_le.1 fun hle => by
          rcases fifoKey_le.1 hle with hlt | ⟨-, hlt | ⟨-, hle⟩⟩
          · exact hlt.ne hdate
          · exact hlt.ne horder
          · exact hseconds hle
      have hmem : ∀ t ∈ [a, b], t ∈ l.insertionSort fun a b => fifoKey P a ≤ fifoKey P b :=
        fun t ht => (List.mem_insertionSort _).2 (hab.subset ht)
      have hkept := chronologicalKey_le_of_sorted (List.pairwise_insertionSort _ l) hsorted
        (hmem b (by simp)) (hmem a (by simp)) hkey
      rcases chronologicalKey_le.1 hkept with hlt | ⟨-, hlt | ⟨-, hle⟩⟩
      · exact hlt.ne hdate.symm
      · exact hlt.ne horder.symm
      · -- created at the same instant, they would show the same millisecond
        have hsame : a.createdAt.getD 0 = b.createdAt.getD 0 := le_antisymm hcreated hle
        exact hseconds (by rw [hsame])
  · intro hagree
    have hsame : (l.insertionSort fun a b => fifoKey P a ≤ fifoKey P b) =
        l.insertionSort fun a b => chronologicalKey P a ≤ chronologicalKey P b :=
      insertionSort_congr (hagree.imp SecondsAgree.keys)
    rw [hsame]
    exact (List.pairwise_insertionSort _ l).imp not_lt.2

end Chronological

namespace Sample

/-- Created half a second later, in the next second, a purchase is put before the first one. -/
theorem sortFIFO_not_chronological : ¬Chronological decimalPlatform
    (sortFIFO decimalPlatform [createdAt "1" "P1" 1500, createdAt "2" "P2" 2000]) := by
  unfold Chronological
  decide +kernel

theorem sortFIFO_chronological_iff_sample : Chronological decimalPlatform
    (sortFIFO decimalPlatform [createdAt "1" "P1" 1500, createdAt "2" "P2" 1700]) := by
  refine (sortFIFO_chronological_iff fun t ht => ?_).2 ?_
  · simp only [List.mem_cons, List.not_mem_nil, or_false] at ht
    rcases ht with rfl | rfl <;> exact ⟨⟨0, rfl⟩, by decide⟩
  · unfold SecondsAgree
    decide +kernel

end Sample

end InventoryBot.Menu
