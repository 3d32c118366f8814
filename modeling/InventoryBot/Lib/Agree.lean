import Mathlib.Data.List.Basic

/-!
# Computations that end alike

Two computations that may throw agree along a relation if they throw the same, or return related
results. Agreement is built up along the binds of the two computations.
-/

namespace InventoryBot.Lib

variable {ε α β γ δ : Type}

/-- Both computations throw the same, or both return, and what they return is related. -/
def Agree (R : α → β → Prop) : Except ε α → Except ε β → Prop
  | .error e, .error e' => e = e'
  | .ok a, .ok b => R a b
  | _, _ => False

theorem agree_pure {R : α → β → Prop} {a : α} {b : β} (h : R a b) :
    Agree R (pure a : Except ε α) (pure b) := h

theorem agree_throw {R : α → β → Prop} (e : ε) :
    Agree R (throw e : Except ε α) (throw e) := rfl

/-- Computations with related first parts agree if what follows does. -/
theorem agree_bind {R : α → β → Prop} {S : γ → δ → Prop} {x : Except ε α} {y : Except ε β}
    {f : α → Except ε γ} {g : β → Except ε δ} (h : Agree R x y)
    (hf : ∀ a b, R a b → Agree S (f a) (g b)) : Agree S (x >>= f) (y >>= g) := by
  cases x with
  | error e =>
    cases y with
    | error e' => exact h
    | ok b => exact h.elim
  | ok a =>
    cases y with
    | error e' => exact h.elim
    | ok b => exact hf a b h

/-- Computations with a common first part agree if what follows does. -/
theorem agree_bind_same {S : γ → δ → Prop} (x : Except ε α) {f : α → Except ε γ}
    {g : α → Except ε δ} (hf : ∀ a, Agree S (f a) (g a)) : Agree S (x >>= f) (x >>= g) := by
  cases x with
  | error e => rfl
  | ok a => exact hf a

/-- A computation may go on without throwing. -/
theorem agree_bind_left {R : α → β → Prop} {S : γ → β → Prop} {x : Except ε α} {y : Except ε β}
    {f : α → Except ε γ} (h : Agree R x y) (hf : ∀ a b, R a b → ∃ c, f a = .ok c ∧ S c b) :
    Agree S (x >>= f) y := by
  cases x with
  | error e =>
    cases y with
    | error e' => exact h
    | ok b => exact h.elim
  | ok a =>
    cases y with
    | error e' => exact h.elim
    | ok b =>
      obtain ⟨c, hc, hrel⟩ := hf a b h
      show Agree S (f a) (.ok b)
      rw [hc]
      exact hrel

/-- If the first of two agreeing computations returns, so does the second. -/
theorem Agree.of_ok {R : α → β → Prop} {a : α} {y : Except ε β}
    (h : Agree R (.ok a) y) : ∃ b, y = .ok b ∧ R a b := by
  cases y with
  | error e => exact h.elim
  | ok b => exact ⟨b, rfl, h⟩

/-- A computation that goes on without throwing throws exactly if its first part does. -/
theorem bind_throws_iff {x : Except ε α} {f : α → Except ε β} (hf : ∀ a, ∃ b, f a = .ok b) :
    (∃ e, (x >>= f) = .error e) ↔ ∃ e, x = .error e := by
  cases x with
  | error e => exact ⟨fun _ => ⟨e, rfl⟩, fun _ => ⟨e, rfl⟩⟩
  | ok a =>
    obtain ⟨b, hb⟩ := hf a
    have hbind : ((.ok a : Except ε α) >>= f) = .ok b := hb
    simp [hbind]

/-- A loop whose steps throw on certain elements, whatever the state is, throws exactly if one of
    these is in the list. -/
theorem foldlM_throws_iff {f : β → α → Except ε β} {throws : α → Prop}
    (hf : ∀ b a, (∃ e, f b a = .error e) ↔ throws a) {l : List α} {b : β} :
    (∃ e, l.foldlM f b = .error e) ↔ ∃ a ∈ l, throws a := by
  induction l generalizing b with
  | nil => simp [pure, Except.pure]
  | cons a l ih =>
    rw [List.foldlM_cons, List.exists_mem_cons_iff, ← hf b a]
    cases hstep : f b a with
    | error e => exact ⟨fun _ => Or.inl ⟨e, rfl⟩, fun _ => ⟨e, rfl⟩⟩
    | ok b' =>
      refine ih.trans ⟨Or.inr, fun h => h.resolve_left ?_⟩
      rintro ⟨e, he⟩
      cases he

end InventoryBot.Lib
