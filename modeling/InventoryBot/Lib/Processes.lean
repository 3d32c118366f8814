import Mathlib.Data.List.Count
import Mathlib.Logic.Function.Basic

/-!
# Processes that share a state

Processes take turns on a shared state, each keeping its own place. If a process does not touch
what another one sees, each of them gets along as if it were alone, in whatever order they take
their turns.

* `turns`: the processes take turns as a schedule says.
* `alone`: one process without the others.
* `Separate`: no process touches what another one sees.
* `Separate.turns`: under any schedule a process stands where it stands alone, and sees what it
  sees alone.
-/

namespace InventoryBot.Lib

section Processes

variable {ι σ : Type*} {α : ι → Type*} (step : ∀ i, σ → α i → σ × α i)

/-- Process `i` makes its next call. -/
def turn [DecidableEq ι] (c : σ × ∀ i, α i) (i : ι) : σ × ∀ i, α i :=
  ((step i c.1 (c.2 i)).1, Function.update c.2 i (step i c.1 (c.2 i)).2)

/-- The processes take turns as the schedule says. -/
def turns [DecidableEq ι] (schedule : List ι) (c : σ × ∀ i, α i) : σ × ∀ i, α i :=
  schedule.foldl (turn step) c

/-- Process `i` makes `n` calls, and no other process makes one. -/
def alone (i : ι) : ℕ → σ × α i → σ × α i
  | 0, c => c
  | n + 1, c => alone i n (step i c.1 c.2)

/-- The calls of a process leave alone what another process sees. `Alone i` holds of what process
    `i` meets when it is alone, and `Sees i t s` says that it sees in `s` what it sees in `t`. -/
structure Separate (Good : σ → Prop) (Alone : ∀ i, σ → α i → Prop) (Sees : ι → σ → σ → Prop) :
    Prop where
  alone : ∀ {i t p}, Alone i t p → Alone i (step i t p).1 (step i t p).2
  good : ∀ {i t p s}, Alone i t p → Good s → Sees i t s → Good (step i s p).1
  own : ∀ {i t p s}, Alone i t p → Good s → Sees i t s →
    (step i s p).2 = (step i t p).2 ∧ Sees i (step i t p).1 (step i s p).1
  frame : ∀ {i j t u p s}, i ≠ j → Alone j u p → Good s → Sees j u s → Sees i t s →
    Sees i t (step j s p).1

variable {step} {Good : σ → Prop} {Alone : ∀ i, σ → α i → Prop} {Sees : ι → σ → σ → Prop}

theorem alone_holds (h : Separate step Good Alone Sees) {i : ι} :
    ∀ (n : ℕ) {c : σ × α i}, Alone i c.1 c.2 → Alone i (alone step i n c).1 (alone step i n c).2
  | 0, _, hc => hc
  | n + 1, _, hc => alone_holds h n (h.alone hc)

/-- Under any schedule a process stands where it stands after as many calls alone, and sees what it
    sees then. -/
theorem Separate.turns [DecidableEq ι] (h : Separate step Good Alone Sees) (schedule : List ι)
    {c : σ × ∀ i, α i} {t : ι → σ} (hgood : Good c.1) (halone : ∀ i, Alone i (t i) (c.2 i))
    (hsees : ∀ i, Sees i (t i) c.1) :
    Good (turns step schedule c).1 ∧ ∀ i,
      (Lib.turns step schedule c).2 i = (Lib.alone step i (schedule.count i) (t i, c.2 i)).2 ∧
        Sees i (Lib.alone step i (schedule.count i) (t i, c.2 i)).1
          (Lib.turns step schedule c).1 := by
  induction schedule generalizing c t with
  | nil => exact ⟨hgood, fun i => ⟨rfl, hsees i⟩⟩
  | cons j schedule ih =>
    -- after the turn of `j` the others stand where they stood
    let t' : ι → σ := fun i => if i = j then (step i (t i) (c.2 i)).1 else t i
    have hnext : ∀ i, (turn step c j).2 i =
        if i = j then (step i (t i) (c.2 i)).2 else c.2 i := by
      intro i
      by_cases hij : i = j
      · subst hij
        rw [if_pos rfl, ← (h.own (halone i) hgood (hsees i)).1]
        exact Function.update_self i _ _
      · rw [if_neg hij]
        exact Function.update_of_ne hij _ _
    have hrest := ih (c := turn step c j) (t := t') (h.good (halone j) hgood (hsees j)) ?_ ?_
    · refine ⟨hrest.1, fun i => ?_⟩
      have hi := hrest.2 i
      rw [hnext] at hi
      by_cases hij : i = j
      · subst hij
        simp only [t', if_pos rfl] at hi
        rw [List.count_cons_self]
        exact hi
      · simp only [t', if_neg hij] at hi
        rw [List.count_cons_of_ne (Ne.symm hij)]
        exact hi
    · intro i
      rw [hnext]
      by_cases hij : i = j
      · simp only [t', if_pos hij]
        exact h.alone (halone i)
      · simp only [t', if_neg hij]
        exact halone i
    · intro i
      by_cases hij : i = j
      · subst hij
        simp only [t', if_pos rfl]
        exact (h.own (halone i) hgood (hsees i)).2
      · simp only [t', if_neg hij]
        exact h.frame hij (halone j) hgood (hsees j) (hsees i)

end Processes

end InventoryBot.Lib
