import InventoryBot.Lib.StableSort
import Mathlib.Order.Compare

/-!
# Comparators

A comparator says of two elements whether the first is less than the second, equal to it or
greater. A stable sorting of a list leaves no greater element before a lesser one and keeps equal
elements in their order. Positions tell the copies of an element apart.

* `ConsistentOn`: what sorting needs of a comparator on the members of a list.
* `StableSorting.unique`: the result of a stable sorting does not depend on how it is found.
* `ConsistentOn.stableSorting_iff`: by a consistent comparator a list has one stable sorting, the
  one that insertion finds.
-/

namespace InventoryBot.Lib

/-- On the members of a list, a comparator is antisymmetric, and "less" and "equal" are
    transitive. -/
structure ConsistentOn {α : Type*} (cmp : α → α → Ordering) (l : List α) : Prop where
  antisymm : ∀ a ∈ l, ∀ b ∈ l, cmp b a = (cmp a b).swap
  lt_trans : ∀ a ∈ l, ∀ b ∈ l, ∀ c ∈ l, cmp a b = .lt → cmp b c = .lt → cmp a c = .lt
  eq_trans : ∀ a ∈ l, ∀ b ∈ l, ∀ c ∈ l, cmp a b = .eq → cmp b c = .eq → cmp a c = .eq

/-- Of two elements with their positions, the first has to be put before the second. -/
def Before {α : Type*} (cmp : α → α → Ordering) (x y : α × ℕ) : Prop :=
  cmp x.1 y.1 = .lt ∨ cmp x.1 y.1 = .eq ∧ x.2 < y.2

/-- `l'` is `l` sorted by `cmp`, with equal elements in their order. -/
def StableSorting {α : Type*} (cmp : α → α → Ordering) (l l' : List α) : Prop :=
  ∃ m : List (α × ℕ), m.Perm l.zipIdx ∧ m.Pairwise (Before cmp) ∧ m.map Prod.fst = l'

section Comparator

variable {α : Type*} {cmp : α → α → Ordering} {l l' l'' : List α} {a b c : α}

namespace ConsistentOn

theorem gt_iff (h : ConsistentOn cmp l) (ha : a ∈ l) (hb : b ∈ l) :
    cmp a b = .gt ↔ cmp b a = .lt := by
  rw [h.antisymm a ha b hb, Ordering.swap_eq_lt]

theorem lt_of_lt_of_eq (h : ConsistentOn cmp l) (ha : a ∈ l) (hb : b ∈ l) (hc : c ∈ l)
    (hab : cmp a b = .lt) (hbc : cmp b c = .eq) : cmp a c = .lt := by
  have hcb : cmp c b = .eq := by rw [h.antisymm b hb c hc, hbc]; rfl
  cases hac : cmp a c with
  | lt => rfl
  | eq =>
    have heq := h.eq_trans a ha c hc b hb hac hcb
    rw [hab] at heq
    cases heq
  | gt =>
    have hlt := h.lt_trans c hc a ha b hb ((h.gt_iff ha hc).1 hac) hab
    rw [hcb] at hlt
    cases hlt

theorem lt_of_eq_of_lt (h : ConsistentOn cmp l) (ha : a ∈ l) (hb : b ∈ l) (hc : c ∈ l)
    (hab : cmp a b = .eq) (hbc : cmp b c = .lt) : cmp a c = .lt := by
  have hba : cmp b a = .eq := by rw [h.antisymm a ha b hb, hab]; rfl
  cases hac : cmp a c with
  | lt => rfl
  | eq =>
    have heq := h.eq_trans b hb a ha c hc hba hac
    rw [hbc] at heq
    cases heq
  | gt =>
    have hlt := h.lt_trans b hb c hc a ha hbc ((h.gt_iff ha hc).1 hac)
    rw [hba] at hlt
    cases hlt

/-- What has to be put before what is transitive. -/
theorem before_trans (h : ConsistentOn cmp l) {x y z : α × ℕ} (hx : x.1 ∈ l) (hy : y.1 ∈ l)
    (hz : z.1 ∈ l) (hxy : Before cmp x y) (hyz : Before cmp y z) : Before cmp x z := by
  rcases hxy with hxy | ⟨hxy, hxyi⟩
  · rcases hyz with hyz | ⟨hyz, -⟩
    · exact Or.inl (h.lt_trans _ hx _ hy _ hz hxy hyz)
    · exact Or.inl (h.lt_of_lt_of_eq hx hy hz hxy hyz)
  · rcases hyz with hyz | ⟨hyz, hyzi⟩
    · exact Or.inl (h.lt_of_eq_of_lt hx hy hz hxy hyz)
    · exact Or.inr ⟨h.eq_trans _ hx _ hy _ hz hxy hyz, hxyi.trans hyzi⟩

/-- Of two positions one has to be put before the other. -/
theorem not_before (h : ConsistentOn cmp l) {x y : α × ℕ} (hx : x.1 ∈ l) (hy : y.1 ∈ l)
    (hxy : Before cmp x y) : ¬Before cmp y x := by
  have hswap := h.antisymm _ hx _ hy
  rintro (hyx | ⟨hyx, hlt⟩)
  · rcases hxy with hxy | ⟨hxy, -⟩ <;> rw [hxy, hyx] at hswap <;> cases hswap
  · rcases hxy with hxy | ⟨-, hlt'⟩
    · rw [hxy, hyx] at hswap
      cases hswap
    · omega

end ConsistentOn

/-- All stable sortings of a list are the same. -/
theorem StableSorting.unique (h : ConsistentOn cmp l) (h' : StableSorting cmp l l')
    (h'' : StableSorting cmp l l'') : l' = l'' := by
  obtain ⟨m, hperm, hsorted, rfl⟩ := h'
  obtain ⟨m', hperm', hsorted', rfl⟩ := h''
  have hmem : ∀ x ∈ l.zipIdx, x.1 ∈ l := fun x hx => List.fst_mem_of_mem_zipIdx hx
  refine congrArg (List.map Prod.fst) ((hperm.trans hperm'.symm).eq_of_pairwise ?_ hsorted hsorted')
  intro x y hx hy hxy hyx
  exact absurd hyx (h.not_before (hmem x (hperm.mem_iff.1 hx)) (hmem y (hperm'.mem_iff.1 hy)) hxy)

/-- The positions of a list are in their order. -/
theorem pairwise_zipIdx (l : List α) : l.zipIdx.Pairwise fun x y => x.2 < y.2 := by
  rw [← List.pairwise_map (R := (· < ·)), List.zipIdx_map_snd]
  exact List.pairwise_lt_range'

/-- Insertion finds a stable sorting. -/
theorem ConsistentOn.stableSorting_insertionSort {r : α → α → Prop} [DecidableRel r]
    (h : ConsistentOn cmp l) (hr : ∀ a ∈ l, ∀ b ∈ l, r a b ↔ cmp a b ≠ .gt) :
    StableSorting cmp l (l.insertionSort r) := by
  let onFst : α × ℕ → α × ℕ → Prop := fun x y => r x.1 y.1
  let _ : DecidableRel onFst := fun x y => inferInstanceAs (Decidable (r x.1 y.1))
  have hmem : ∀ x ∈ l.zipIdx, x.1 ∈ l := fun x hx => List.fst_mem_of_mem_zipIdx hx
  refine ⟨l.zipIdx.insertionSort onFst, List.perm_insertionSort _ _, ?_, ?_⟩
  · refine pairwise_insertionSort_of ?_ fun x hx y hy z hz =>
      h.before_trans (hmem x hx) (hmem y hy) (hmem z hz)
    refine (pairwise_zipIdx l).imp_of_mem ?_
    intro x y hx hy hlt
    have hle := hr x.1 (hmem x hx) y.1 (hmem y hy)
    constructor
    · intro hxy
      cases hcmp : cmp x.1 y.1 with
      | lt => exact Or.inl hcmp
      | eq => exact Or.inr ⟨hcmp, hlt⟩
      | gt => exact absurd hcmp (hle.1 hxy)
    · intro hxy
      have hgt : cmp x.1 y.1 = .gt := not_not.1 fun hne => hxy (hle.2 hne)
      exact Or.inl ((h.gt_iff (hmem x hx) (hmem y hy)).1 hgt)
  · rw [List.map_insertionSort onFst r Prod.fst l.zipIdx fun _ _ _ _ => Iff.rfl, List.zipIdx_map_fst]

/-- By a consistent comparator a list has one stable sorting. -/
theorem ConsistentOn.stableSorting_iff {r : α → α → Prop} [DecidableRel r]
    (h : ConsistentOn cmp l) (hr : ∀ a ∈ l, ∀ b ∈ l, r a b ↔ cmp a b ≠ .gt) :
    StableSorting cmp l l' ↔ l' = l.insertionSort r := by
  constructor
  · intro hsorting
    exact hsorting.unique h (h.stableSorting_insertionSort hr)
  · rintro rfl
    exact h.stableSorting_insertionSort hr

end Comparator

end InventoryBot.Lib
