import Mathlib.Data.List.Perm.Basic
import Mathlib.Data.List.Sort
import Mathlib.Order.Basic

/-!
# Stable sorting

`List.insertionSort` is stable, so sorting can be exchanged with everything that respects the
order of equal elements.

* `filter_insertionSort`: selecting after sorting is sorting what is selected.
* `insertionSort_eq_append`: where all selected elements come before all others, sorting is
  sorting the two parts.
* `insertionSort_congr`: two relations that agree on a list sort it alike.
* `pairwise_insertionSort_of`: what order sorting leaves.
* `insertionSort_eq_of_perm`: a linear order on a list sorts all its orders alike.
-/

namespace InventoryBot.Lib

section StableSort

variable {α : Type*} {r : α → α → Prop} [DecidableRel r]

/-- Inserting into a sorted list, seen through a selection. -/
theorem filter_orderedInsert [IsTrans α r] (p : α → Bool) (a : α) {l : List α}
    (hl : l.Pairwise r) : (l.orderedInsert r a).filter p =
      if p a then (l.filter p).orderedInsert r a else l.filter p := by
  induction l with
  | nil => cases hp : p a <;> simp [hp]
  | cons b l ih =>
    obtain ⟨hb, hl⟩ := List.pairwise_cons.1 hl
    have ih := ih hl
    by_cases hab : r a b
    · rw [List.orderedInsert_cons_of_le r l hab]
      cases hp : p a with
      | false => rw [List.filter_cons_of_neg (by simp [hp]), if_neg (by simp)]
      | true =>
        rw [List.filter_cons_of_pos hp, if_pos rfl]
        -- the first selected element does not come before `b`, and so not before `a`
        cases hfilter : (b :: l).filter p with
        | nil => rfl
        | cons c rest =>
          have hc : c ∈ (b :: l).filter p := hfilter ▸ List.mem_cons_self
          have hac : r a c := by
            rcases List.mem_cons.1 (List.mem_of_mem_filter hc) with rfl | hcl
            · exact hab
            · exact IsTrans.trans a b c hab (hb c hcl)
          rw [List.orderedInsert_cons_of_le r rest hac]
    · rw [List.orderedInsert_of_not_le r l hab]
      cases hpb : p b with
      | false =>
        rw [List.filter_cons_of_neg (by simp [hpb]), List.filter_cons_of_neg (by simp [hpb]), ih]
      | true =>
        rw [List.filter_cons_of_pos hpb, List.filter_cons_of_pos hpb, ih]
        split
        · rw [List.orderedInsert_of_not_le r _ hab]
        · rfl

/-- Selecting after sorting is sorting what is selected. -/
theorem filter_insertionSort [IsTrans α r] [Std.Total r] (p : α → Bool) (l : List α) :
    (l.insertionSort r).filter p = (l.filter p).insertionSort r := by
  induction l with
  | nil => rfl
  | cons a l ih =>
    rw [List.insertionSort_cons, filter_orderedInsert p a (List.pairwise_insertionSort r l), ih]
    split
    · rename_i hp
      rw [List.filter_cons_of_pos hp, List.insertionSort_cons]
    · rename_i hp
      rw [List.filter_cons_of_neg (by simpa using hp)]

omit [DecidableRel r] in
/-- A sorted list is what is selected of it and the rest, where all that is selected has to come
    before the rest. -/
theorem eq_filter_append (p : α → Bool) {l : List α} (hl : l.Pairwise r)
    (hp : ∀ a ∈ l, ∀ b ∈ l, p a = true → p b = false → ¬r b a) :
    l = l.filter p ++ l.filter fun a => !p a := by
  induction l with
  | nil => rfl
  | cons a l ih =>
    obtain ⟨ha, hl⟩ := List.pairwise_cons.1 hl
    have ih := ih hl fun x hx y hy => hp x (List.mem_cons_of_mem _ hx) y (List.mem_cons_of_mem _ hy)
    cases hpa : p a with
    | true =>
      rw [List.filter_cons_of_pos hpa, List.filter_cons_of_neg (by simp [hpa]), List.cons_append,
        ← ih]
    | false =>
      -- nothing after `a` is selected
      have hnone : ∀ b ∈ l, p b = false := by
        intro b hb
        cases hpb : p b with
        | false => rfl
        | true =>
          exact absurd (ha b hb) (hp b (List.mem_cons_of_mem _ hb) a List.mem_cons_self hpb hpa)
      rw [List.filter_cons_of_neg (by simp [hpa]), List.filter_cons_of_pos (by simp [hpa]),
        List.filter_eq_nil_iff.2 (fun b hb => by simp [hnone b hb]), List.nil_append,
        List.filter_eq_self.2 fun b hb => by simp [hnone b hb]]

/-- Where all selected elements have to come before all others, sorting is sorting the two
    parts. -/
theorem insertionSort_eq_append [IsTrans α r] [Std.Total r] (p : α → Bool) {l : List α}
    (hp : ∀ a ∈ l, ∀ b ∈ l, p a = true → p b = false → ¬r b a) :
    l.insertionSort r = (l.filter p).insertionSort r ++ (l.filter fun a => !p a).insertionSort r := by
  rw [← filter_insertionSort, ← filter_insertionSort]
  refine eq_filter_append p (List.pairwise_insertionSort r l) fun a ha b hb => ?_
  exact hp a ((List.mem_insertionSort r).1 ha) b ((List.mem_insertionSort r).1 hb)

/-- Inserting by two relations that compare the inserted element alike. -/
theorem orderedInsert_congr {r' : α → α → Prop} [DecidableRel r'] {a : α} {l : List α}
    (h : ∀ b ∈ l, r a b ↔ r' a b) : l.orderedInsert r a = l.orderedInsert r' a := by
  induction l with
  | nil => rfl
  | cons b l ih =>
    have ih := ih fun c hc => h c (List.mem_cons_of_mem _ hc)
    by_cases hab : r a b
    · rw [List.orderedInsert_cons_of_le r l hab,
        List.orderedInsert_cons_of_le r' l ((h b List.mem_cons_self).1 hab)]
    · rw [List.orderedInsert_of_not_le r l hab,
        List.orderedInsert_of_not_le r' l fun hr => hab ((h b List.mem_cons_self).2 hr), ih]

/-- Sorting by two relations that compare every element alike with those that come after it. -/
theorem insertionSort_congr {r' : α → α → Prop} [DecidableRel r'] {l : List α}
    (h : l.Pairwise fun a b => r a b ↔ r' a b) : l.insertionSort r = l.insertionSort r' := by
  induction l with
  | nil => rfl
  | cons a l ih =>
    obtain ⟨ha, hl⟩ := List.pairwise_cons.1 h
    rw [List.insertionSort_cons, List.insertionSort_cons, ih hl]
    exact orderedInsert_congr fun b hb => ha b ((List.mem_insertionSort r').1 hb)

/-- Inserting into a list that is ordered by a transitive relation, where the comparison says how
    the inserted element is ordered to the others. -/
theorem pairwise_orderedInsert_of {R : α → α → Prop} {a : α} {l : List α} (hl : l.Pairwise R)
    (ha : ∀ b ∈ l, (r a b → R a b) ∧ (¬r a b → R b a))
    (htrans : ∀ b ∈ l, ∀ c ∈ l, R a b → R b c → R a c) : (l.orderedInsert r a).Pairwise R := by
  induction l with
  | nil => exact List.pairwise_singleton R a
  | cons b l ih =>
    obtain ⟨hb, hl⟩ := List.pairwise_cons.1 hl
    have hab := ha b List.mem_cons_self
    by_cases hle : r a b
    · rw [List.orderedInsert_cons_of_le r l hle]
      refine List.pairwise_cons.2 ⟨fun c hc => ?_, List.pairwise_cons.2 ⟨hb, hl⟩⟩
      rcases List.mem_cons.1 hc with rfl | hcl
      · exact hab.1 hle
      · exact htrans b List.mem_cons_self c hc (hab.1 hle) (hb c hcl)
    · rw [List.orderedInsert_of_not_le r l hle]
      refine List.pairwise_cons.2 ⟨fun c hc => ?_, ih hl ?_ ?_⟩
      · rcases (List.mem_orderedInsert r).1 hc with rfl | hcl
        · exact hab.2 hle
        · exact hb c hcl
      · exact fun c hc => ha c (List.mem_cons_of_mem b hc)
      · exact fun c hc d hd => htrans c (List.mem_cons_of_mem b hc) d (List.mem_cons_of_mem b hd)

/-- Sorting orders a list by every transitive relation that the comparison decides for an element
    and those that come after it. -/
theorem pairwise_insertionSort_of {R : α → α → Prop} {l : List α}
    (hl : l.Pairwise fun a b => (r a b → R a b) ∧ (¬r a b → R b a))
    (htrans : ∀ a ∈ l, ∀ b ∈ l, ∀ c ∈ l, R a b → R b c → R a c) :
    (l.insertionSort r).Pairwise R := by
  induction l with
  | nil => exact List.Pairwise.nil
  | cons a l ih =>
    obtain ⟨ha, hl⟩ := List.pairwise_cons.1 hl
    have hsub : ∀ b ∈ l.insertionSort r, b ∈ l := fun b hb => (List.mem_insertionSort r).1 hb
    rw [List.insertionSort_cons]
    refine pairwise_orderedInsert_of (ih hl ?_) (fun b hb => ha b (hsub b hb)) ?_
    · exact fun b hb c hc d hd => htrans b (List.mem_cons_of_mem a hb) c (List.mem_cons_of_mem a hc)
        d (List.mem_cons_of_mem a hd)
    · exact fun b hb c hc => htrans a List.mem_cons_self b (List.mem_cons_of_mem a (hsub b hb)) c
        (List.mem_cons_of_mem a (hsub c hc))

/-- Two orders of a list are sorted alike by a relation that is a linear order on the list. -/
theorem insertionSort_eq_of_perm {l l' : List α} (h : l.Perm l')
    (htotal : ∀ a ∈ l, ∀ b ∈ l, r a b ∨ r b a)
    (htrans : ∀ a ∈ l, ∀ b ∈ l, ∀ c ∈ l, r a b → r b c → r a c)
    (hantisymm : ∀ a ∈ l, ∀ b ∈ l, r a b → r b a → a = b) :
    l.insertionSort r = l'.insertionSort r := by
  -- sort the members of `l`, on which the relation is a linear order
  let onList : {a // a ∈ l} → {a // a ∈ l} → Prop := fun a b => r a b
  let _ : DecidableRel onList := fun a b => inferInstanceAs (Decidable (r a b))
  have : Std.Total onList := ⟨fun a b => htotal a a.2 b b.2⟩
  have : IsTrans _ onList := ⟨fun a b c => htrans a a.2 b b.2 c c.2⟩
  have hsort : ∀ m : List {a // a ∈ l},
      (m.insertionSort onList).map Subtype.val = (m.map Subtype.val).insertionSort r :=
    fun m => List.map_insertionSort onList r Subtype.val m fun _ _ _ _ => Iff.rfl
  have hmem : ∀ a ∈ l', a ∈ l := fun a ha => h.mem_iff.2 ha
  have hl : (l.attach).map Subtype.val = l := List.attach_map_subtype_val l
  have hl' : (l'.attachWith (· ∈ l) hmem).map Subtype.val = l' := List.attachWith_map_subtype_val hmem
  have hperm : l.attach.Perm (l'.attachWith (· ∈ l) hmem) := by
    refine (List.map_perm_map_iff Subtype.val_injective).1 ?_
    rwa [hl, hl']
  have hsame : l.attach.insertionSort onList =
      (l'.attachWith (· ∈ l) hmem).insertionSort onList := by
    refine List.Perm.eq_of_pairwise ?_ (List.pairwise_insertionSort onList _)
      (List.pairwise_insertionSort onList _) ?_
    · exact fun a b _ _ hab hba => Subtype.ext (hantisymm a a.2 b b.2 hab hba)
    · exact (List.perm_insertionSort onList _).trans
        (hperm.trans (List.perm_insertionSort onList _).symm)
  rw [← hl, ← hl', ← hsort, ← hsort, hsame]

end StableSort

end InventoryBot.Lib
