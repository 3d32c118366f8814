import InventoryBot.Bkper.Platform
import Mathlib.Data.List.Basic

/-!
# The text of a credit-note record

`JSON.stringify({ quantity, amount })` is a parameter of the platform. A record can be read back
from its text if different records have different texts; the exact platform writes such texts.
-/

namespace InventoryBot

theorem repr_inj {m n : ℕ} (h : (Nat.repr m).toList = (Nat.repr n).toList) : m = n := by
  rw [Nat.toList_repr, Nat.toList_repr] at h
  rw [← Nat.ofDigitChars_toDigits (n := m) (b := 10) (by decide) (by decide), h,
    Nat.ofDigitChars_toDigits (by decide) (by decide)]

theorem isDigit_of_mem_repr {n : ℕ} {c : Char} (h : c ∈ (Nat.repr n).toList) : c.isDigit := by
  rw [Nat.toList_repr] at h
  exact Nat.isDigit_of_mem_toDigits (by decide) (by decide) h

theorem toList_negSucc (n : ℕ) :
    (toString (Int.negSucc n)).toList = '-' :: (Nat.repr (n + 1)).toList := by
  show ("-" ++ Nat.repr (n + 1)).toList = _
  rw [String.toList_append]
  rfl

theorem mem_toString_int {n : ℤ} {c : Char} (h : c ∈ (toString n).toList) :
    c.isDigit ∨ c = '-' := by
  cases n with
  | ofNat n => exact Or.inl (isDigit_of_mem_repr h)
  | negSucc n =>
    rw [toList_negSucc, List.mem_cons] at h
    rcases h with rfl | h
    · exact Or.inr rfl
    · exact Or.inl (isDigit_of_mem_repr h)

theorem toString_int_inj {m n : ℤ} (h : (toString m).toList = (toString n).toList) : m = n := by
  have hsign : ∀ k l : ℕ, (Nat.repr k).toList ≠ '-' :: (Nat.repr (l + 1)).toList := by
    intro k l he
    have hdigit : '-'.isDigit = true := isDigit_of_mem_repr (he ▸ List.mem_cons_self)
    exact absurd hdigit (by decide)
  cases m with
  | ofNat m =>
    cases n with
    | ofNat n => exact congrArg Int.ofNat (repr_inj h)
    | negSucc n => exact absurd (h.trans (toList_negSucc n)) (hsign m n)
  | negSucc m =>
    cases n with
    | ofNat n => exact absurd (h.symm.trans (toList_negSucc m)) (hsign n m)
    | negSucc n =>
      rw [toList_negSucc, toList_negSucc] at h
      have hnat := repr_inj (List.cons.inj h).2
      rw [Nat.succ.inj hnat]

theorem toList_toString_rat (q : ℚ) : (toString q).toList =
    if q.den = 1 then (toString q.num).toList
    else (toString q.num).toList ++ '/' :: (Nat.repr q.den).toList := by
  show (if q.den = 1 then toString q.num
    else toString q.num ++ toString "/" ++ toString q.den : String).toList = _
  split
  · rfl
  · rw [String.toList_append, String.toList_append, List.append_assoc]
    rfl

theorem mem_toString_rat {q : ℚ} {c : Char} (h : c ∈ (toString q).toList) :
    c.isDigit ∨ c = '-' ∨ c = '/' := by
  rw [toList_toString_rat] at h
  split at h
  · exact (mem_toString_int h).imp_right Or.inl
  · rcases List.mem_append.1 h with h | h
    · exact (mem_toString_int h).imp_right Or.inl
    · rcases List.mem_cons.1 h with rfl | h
      · exact Or.inr (Or.inr rfl)
      · exact Or.inl (isDigit_of_mem_repr h)

theorem toString_rat_inj {q q' : ℚ} (h : (toString q).toList = (toString q').toList) : q = q' := by
  have hslash : ∀ n : ℤ, '/' ∉ (toString n).toList := by
    intro n hmem
    exact absurd (mem_toString_int hmem) (by decide)
  rw [toList_toString_rat, toList_toString_rat] at h
  split at h <;> rename_i hden <;> split at h <;> rename_i hden'
  · exact Rat.ext (toString_int_inj h) (hden.trans hden'.symm)
  · exact absurd (h ▸ List.mem_append_right _ List.mem_cons_self) (hslash q.num)
  · exact absurd (h ▸ List.mem_append_right _ List.mem_cons_self) (hslash q'.num)
  · have hden : '/' ∉ (Nat.repr q.den).toList := fun hmem =>
      absurd (isDigit_of_mem_repr hmem) (by decide)
    obtain ⟨hnum, -, hdens⟩ := (List.append_cons_inj_of_notMem (hslash _) hden).1 h
    exact Rat.ext (toString_int_inj hnum) (repr_inj hdens)

/-- Different credit-note records have different texts. -/
def Platform.RecordsReadable (P : Platform) : Prop :=
  ∀ q a q' a', P.creditNoteJson q a = P.creditNoteJson q' a' → q = q' ∧ a = a'

theorem exactPlatform_recordsReadable : exactPlatform.RecordsReadable := by
  intro q a q' a' h
  have hcomma : ∀ q : ℚ, ',' ∉ (toString q).toList := fun q hmem =>
    absurd (mem_toString_rat hmem) (by decide)
  have hlist := congrArg String.toList h
  simp only [exactPlatform, String.toList_append, List.append_assoc] at hlist
  have hrest := List.append_cancel_left hlist
  have hafter : ',' ∉ "\"amount\":".toList ++ ((toString a).toList ++ "\x7d".toList) := by
    simp [hcomma a]
  obtain ⟨hq, -, hrest⟩ := (List.append_cons_inj_of_notMem (hcomma q) hafter).1 hrest
  have hrest := List.append_cancel_right (List.append_cancel_left hrest)
  exact ⟨toString_rat_inj hq, toString_rat_inj hrest⟩

end InventoryBot
