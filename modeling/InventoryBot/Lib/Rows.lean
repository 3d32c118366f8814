import Mathlib.Algebra.BigOperators.Group.List.Basic
import Mathlib.Data.List.Nodup
import Mathlib.Tactic.Abel

/-!
# Tables as lists of keyed rows

`replaceRow key b l` is the table `l` after its row with the key of `b` was overwritten by
`b`. With unique keys this exchanges one row for another: `sum_replaceRow` says what that
does to a sum over the table, `mem_replaceRow` which rows there are afterwards.
-/

namespace InventoryBot.Lib

section Rows

variable {α κ : Type*} [DecidableEq κ] {key : α → κ}

/-- The table after the row with the key of `b` became `b`. -/
def replaceRow (key : α → κ) (b : α) (l : List α) : List α :=
  l.map fun a => if key a = key b then b else a

@[simp] theorem replaceRow_nil (b : α) : replaceRow key b [] = [] := rfl

theorem replaceRow_cons (b a : α) (l : List α) :
    replaceRow key b (a :: l) = (if key a = key b then b else a) :: replaceRow key b l := rfl

@[simp] theorem map_key_replaceRow (b : α) (l : List α) :
    (replaceRow key b l).map key = l.map key := by
  unfold replaceRow
  rw [List.map_map]
  apply List.map_congr_left
  intro a _
  by_cases h : key a = key b <;> simp [h]

theorem mem_replaceRow {b x : α} {l : List α} :
    x ∈ replaceRow key b l ↔ (x = b ∧ key b ∈ l.map key) ∨ (x ∈ l ∧ key x ≠ key b) := by
  constructor
  · intro h
    obtain ⟨a, ha, rfl⟩ := List.mem_map.1 h
    by_cases hk : key a = key b
    · exact Or.inl ⟨by simp [hk], hk ▸ List.mem_map_of_mem ha⟩
    · exact Or.inr ⟨by simpa [hk] using ha, by simp [hk]⟩
  · rintro (⟨rfl, h⟩ | ⟨h, hk⟩)
    · obtain ⟨a, ha, hk⟩ := List.mem_map.1 h
      exact List.mem_map.2 ⟨a, ha, by simp [hk]⟩
    · exact List.mem_map.2 ⟨x, h, by simp [hk]⟩

theorem mem_replaceRow_self {a b : α} {l : List α} (ha : a ∈ l) (hk : key a = key b) :
    b ∈ replaceRow key b l :=
  mem_replaceRow.2 (Or.inl ⟨rfl, hk ▸ List.mem_map_of_mem ha⟩)

theorem mem_replaceRow_of_ne {b x : α} {l : List α} (hx : x ∈ l) (hk : key x ≠ key b) :
    x ∈ replaceRow key b l :=
  mem_replaceRow.2 (Or.inr ⟨hx, hk⟩)

theorem replaceRow_of_notMem {b : α} {l : List α} (h : key b ∉ l.map key) :
    replaceRow key b l = l := by
  unfold replaceRow
  conv_rhs => rw [← List.map_id l]
  apply List.map_congr_left
  intro a ha
  have hk : key a ≠ key b := fun hk => h (hk ▸ List.mem_map_of_mem ha)
  simp [hk]

/-- The sum over a table after one row was exchanged. -/
theorem sum_replaceRow {M : Type*} [AddCommGroup M] (f : α → M) {l : List α}
    (hn : (l.map key).Nodup) {a b : α} (ha : a ∈ l) (hk : key a = key b) :
    ((replaceRow key b l).map f).sum = (l.map f).sum - f a + f b := by
  induction l with
  | nil => simp at ha
  | cons x l ih =>
    rw [List.map_cons, List.nodup_cons] at hn
    rw [replaceRow_cons]
    rcases List.mem_cons.1 ha with rfl | ha
    · have hb : key b ∉ l.map key := hk ▸ hn.1
      rw [replaceRow_of_notMem hb]
      simp only [hk, ite_true, List.map_cons, List.sum_cons]
      abel
    · have hx : key x ≠ key b := fun h => hn.1 (h ▸ hk ▸ List.mem_map_of_mem ha)
      simp only [hx, ite_false, List.map_cons, List.sum_cons, ih hn.2 ha]
      abel

/-- A sum over the rows of a kind is a sum over the others left out. -/
theorem sum_map_ite {M : Type*} [AddCommMonoid M] (f : α → M) (kind : α → Bool) (l : List α) :
    (l.map fun a => if kind a then f a else 0).sum = ((l.filter kind).map f).sum := by
  induction l with
  | nil => rfl
  | cons a l ih => cases h : kind a <;> simp [h, ih]

/-- The sum over one row and over the rows of a kind that it does not have. -/
theorem sum_map_row_or_kind {M : Type*} [AddCommMonoid M] (f : α → M) {kind : α → Bool}
    {l : List α} (hn : (l.map key).Nodup) {b : α} (hb : b ∈ l) (hkind : kind b = false) :
    (l.map fun a => if kind a ∨ key a = key b then f a else 0).sum =
      f b + ((l.filter kind).map f).sum := by
  induction l with
  | nil => simp at hb
  | cons x l ih =>
    rw [List.map_cons, List.nodup_cons] at hn
    rcases List.mem_cons.1 hb with rfl | hb
    · have hrest : (l.map fun a => if kind a ∨ key a = key b then f a else 0) =
          l.map fun a => if kind a then f a else 0 := by
        refine List.map_congr_left fun a ha => ?_
        have hne : key a ≠ key b := fun h => hn.1 (h ▸ List.mem_map_of_mem ha)
        simp [hne]
      rw [List.map_cons, List.sum_cons, hrest, sum_map_ite, List.filter_cons_of_neg (by simp [hkind])]
      simp
    · have hne : key x ≠ key b := fun h => hn.1 (h ▸ List.mem_map_of_mem hb)
      rw [List.map_cons, List.sum_cons, ih hn.2 hb]
      cases hx : kind x
      · simp [hx, hne]
      · simp only [hne, or_false, if_true, List.filter_cons_of_pos hx, List.map_cons,
          List.sum_cons]
        exact add_left_comm _ _ _

/-- The row with a given key. -/
theorem find?_key {l : List α} (hn : (l.map key).Nodup) {a : α} (ha : a ∈ l) {k : κ}
    (hk : key a = k) : l.find? (fun x => key x == k) = some a := by
  induction l with
  | nil => simp at ha
  | cons x l ih =>
    rw [List.map_cons, List.nodup_cons] at hn
    rcases List.mem_cons.1 ha with rfl | ha
    · exact List.find?_cons_of_pos (by simpa using hk)
    · have hne : key x ≠ k := fun h => hn.1 (h ▸ hk ▸ List.mem_map_of_mem ha)
      rw [List.find?_cons_of_neg (by simpa using hne), ih hn.2 ha]

theorem map_replaceRow_congr {β : Type*} (g : α → β) {b : α} {l : List α}
    (h : ∀ a ∈ l, key a = key b → g a = g b) : (replaceRow key b l).map g = l.map g := by
  unfold replaceRow
  rw [List.map_map]
  apply List.map_congr_left
  intro a ha
  by_cases hk : key a = key b
  · simp [hk, h a ha hk]
  · simp [hk]

end Rows

/-- The first element that a test accepts, where a wider test may accept one before it. -/
theorem find?_or_eq_iff {α : Type*} {p q : α → Bool} {l : List α} {b : α}
    (h : l.find? p = some b) :
    l.find? (fun x => p x || q x) = some b ↔ ∀ x ∈ l.takeWhile (fun x => !p x), q x = false := by
  induction l with
  | nil => cases h
  | cons a l ih =>
    rw [List.find?_cons] at h
    rw [List.find?_cons, List.takeWhile_cons]
    cases hp : p a with
    | true => simpa [hp] using h
    | false =>
      rw [hp] at h
      cases hq : q a with
      | true =>
        have hb : p b = true := by simpa using List.find?_some h
        have hne : a ≠ b := by
          rintro rfl
          rw [hp] at hb
          cases hb
        simp [hq, hne]
      | false => simpa [hq] using ih h

end InventoryBot.Lib
