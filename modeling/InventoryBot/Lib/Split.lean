import Mathlib.Data.List.Infix

/-!
# Splitting at a separator

`split` cuts a list at the occurrences of a separator, from the left and without overlaps, as
`String.prototype.split` does.

* `split_append`: what stands before the first occurrence is the first part.
* `head_split_append_iff`: a list that is followed by the separator is the first part exactly if
  the separator does not occur before.
* `head_split_iff`: the first part is the whole list exactly if there is no occurrence.
-/

namespace InventoryBot.Lib

variable {α : Type*} [DecidableEq α]

/-- An element in front of the first part. -/
def consHead (a : α) : List (List α) → List (List α)
  | [] => [[a]]
  | part :: parts => (a :: part) :: parts

/-- The parts of a list after `skip` elements of an occurrence that was met. -/
def splitFrom (sep : List α) : ℕ → List α → List (List α)
  | _, [] => [[]]
  | skip + 1, _ :: l => splitFrom sep skip l
  | 0, a :: l =>
    if sep <+: a :: l then [] :: splitFrom sep (sep.length - 1) l
    else consHead a (splitFrom sep 0 l)

/-- The parts of a list between the occurrences of a separator, which is not empty. -/
def split (sep l : List α) : List (List α) := splitFrom sep 0 l

variable {sep l x y : List α}

theorem splitFrom_eq (sep : List α) : ∀ (skip : ℕ) (l : List α),
    splitFrom sep skip l = split sep (l.drop skip) := by
  intro skip
  induction skip with
  | zero => exact fun l => rfl
  | succ skip ih =>
    intro l
    cases l with
    | nil => rfl
    | cons a l => exact ih l

theorem split_cut (hsep : sep ≠ []) (h : sep <+: l) :
    split sep l = [] :: split sep (l.drop sep.length) := by
  cases l with
  | nil => exact absurd (List.prefix_nil.1 h) hsep
  | cons a l =>
    obtain ⟨n, hn⟩ := Nat.exists_eq_succ_of_ne_zero (mt List.length_eq_zero_iff.1 hsep)
    rw [split, splitFrom, if_pos h, splitFrom_eq, hn]
    rfl

theorem split_pass {a : α} (h : ¬sep <+: a :: l) :
    split sep (a :: l) = consHead a (split sep l) := by
  rw [split, splitFrom, if_neg h]
  rfl

theorem split_ne_nil (sep l : List α) : split sep l ≠ [] := by
  cases l with
  | nil => simp [split, splitFrom]
  | cons a l =>
    rw [split, splitFrom]
    split
    · simp
    · cases splitFrom sep 0 l <;> simp [consHead]

/-- A list without an occurrence is its only part. -/
theorem split_absent (h : ¬sep <:+: l) : split sep l = [l] := by
  induction l with
  | nil => rfl
  | cons a l ih =>
    rw [List.infix_cons_iff, not_or] at h
    rw [split_pass h.1, ih h.2]
    rfl

/-- In the list followed by the separator, the separator does not occur before. -/
def Unseparated (sep x : List α) : Prop := ∀ k < x.length, ¬sep <+: (x ++ sep).drop k

/-- What stands before the first occurrence is the first part. -/
theorem split_append (hsep : sep ≠ []) (y : List α) (h : Unseparated sep x) :
    split sep (x ++ sep ++ y) = x :: split sep y := by
  induction x with
  | nil =>
    rw [List.nil_append, split_cut hsep (List.prefix_append sep y), List.drop_left]
  | cons a x ih =>
    have hrest : Unseparated sep x := fun k hk => h (k + 1) (by simpa using hk)
    have hfirst : ¬sep <+: a :: (x ++ sep ++ y) := by
      intro hstarts
      refine h 0 (by simp) (List.prefix_of_prefix_length_le hstarts ?_ (by simp; omega))
      exact ⟨y, by simp⟩
    rw [List.cons_append, List.cons_append, split_pass hfirst, ih hrest]
    rfl

omit [DecidableEq α] in
/-- One element separates from what does not have it. -/
theorem unseparated_singleton {a : α} (h : a ∉ x) : Unseparated [a] x := by
  intro k hk hprefix
  rw [List.drop_append_of_le_length hk.le, List.drop_eq_getElem_cons hk] at hprefix
  obtain ⟨l, hl⟩ := hprefix
  have hhead : a = x[k] := (List.cons.inj hl).1
  exact h (hhead ▸ List.getElem_mem hk)

/-- The first part ends before every occurrence. -/
theorem length_head_split_le (hsep : sep ≠ []) {k : ℕ} (h : sep <+: l.drop k) :
    ((split sep l).headD []).length ≤ k := by
  induction l generalizing k with
  | nil => simp [split, splitFrom]
  | cons a l ih =>
    by_cases hstarts : sep <+: a :: l
    · rw [split_cut hsep hstarts]
      simp
    · cases k with
      | zero => exact absurd h hstarts
      | succ k =>
        rw [split_pass hstarts]
        have hle := ih h
        cases hparts : split sep l with
        | nil => simp [consHead]
        | cons part parts =>
          rw [hparts] at hle
          simpa [consHead] using hle

/-- A list that is followed by the separator is the first part exactly if the separator does not
    occur before. -/
theorem head_split_append_iff (hsep : sep ≠ []) (y : List α) :
    (split sep (x ++ sep ++ y)).headD [] = x ↔ Unseparated sep x := by
  constructor
  · intro hhead k hk hstarts
    have hlater : sep <+: (x ++ sep ++ y).drop k := by
      rw [List.drop_append_of_le_length (by simp; omega)]
      exact hstarts.trans (List.prefix_append _ _)
    have hle := length_head_split_le hsep hlater
    rw [hhead] at hle
    omega
  · intro h
    rw [split_append hsep y h]
    rfl

/-- The first part is the whole list exactly if there is no occurrence. -/
theorem head_split_iff (hsep : sep ≠ []) : (split sep l).headD [] = l ↔ ¬sep <:+: l := by
  constructor
  · rintro hhead ⟨s, t, rfl⟩
    have hlater : sep <+: (s ++ sep ++ t).drop s.length := by
      rw [List.append_assoc, List.drop_left]
      exact List.prefix_append _ _
    have hle := length_head_split_le hsep hlater
    rw [hhead] at hle
    have hpos := List.length_pos_of_ne_nil hsep
    simp only [List.length_append] at hle
    omega
  · intro h
    rw [split_absent h]
    rfl

end InventoryBot.Lib
