import Mathlib.Algebra.Order.Ring.Nat
import Mathlib.Tactic.Ring

/-!
# Decimal numerals

* `numeral`: a number with leading zeros, in a given number of digits.
* `readNumeral_append`: reading one numeral after another.
* `readNumeral_numeral`: what is written is read back.
-/

namespace InventoryBot.Lib

/-- The last `k` decimal digits of a number. -/
def numeral : ℕ → ℕ → List Char
  | 0, _ => []
  | k + 1, n => numeral k (n / 10) ++ [Nat.digitChar (n % 10)]

/-- The value of a digit. -/
def digitValue (c : Char) : ℕ := c.toNat - '0'.toNat

/-- The number that a list of digits denotes. -/
def readNumeral (l : List Char) : ℕ := l.foldl (fun n c => 10 * n + digitValue c) 0

theorem digitValue_digitChar {n : ℕ} (h : n < 10) : digitValue (Nat.digitChar n) = n := by
  unfold digitValue
  rw [Nat.toNat_digitChar_of_lt_ten h]
  exact Nat.add_sub_cancel_left _ _

@[simp] theorem length_numeral (k n : ℕ) : (numeral k n).length = k := by
  induction k generalizing n with
  | zero => rfl
  | succ k ih => simp [numeral, ih]

theorem isDigit_of_mem_numeral {k n : ℕ} {c : Char} (h : c ∈ numeral k n) : c.isDigit = true := by
  induction k generalizing n with
  | zero => cases h
  | succ k ih =>
    rcases List.mem_append.1 h with h | h
    · exact ih h
    · obtain rfl := List.mem_singleton.1 h
      simpa [Nat.isDigit_digitChar] using Nat.mod_lt n (by decide)

theorem readNumeral_foldl (l : List Char) (n : ℕ) :
    l.foldl (fun n c => 10 * n + digitValue c) n = n * 10 ^ l.length + readNumeral l := by
  unfold readNumeral
  induction l generalizing n with
  | nil => simp
  | cons c l ih =>
    rw [List.foldl_cons, List.foldl_cons, ih, ih (10 * 0 + digitValue c), List.length_cons]
    ring

theorem readNumeral_append (l l' : List Char) :
    readNumeral (l ++ l') = readNumeral l * 10 ^ l'.length + readNumeral l' := by
  conv_lhs => rw [readNumeral, List.foldl_append]
  exact readNumeral_foldl l' _

/-- What is written is read back. -/
theorem readNumeral_numeral {k n : ℕ} (h : n < 10 ^ k) : readNumeral (numeral k n) = n := by
  induction k generalizing n with
  | zero =>
    rw [pow_zero, Nat.lt_one_iff] at h
    rw [h]
    rfl
  | succ k ih =>
    have hprefix : n / 10 < 10 ^ k := by
      rw [pow_succ] at h
      omega
    have hlast : readNumeral [Nat.digitChar (n % 10)] = n % 10 := by
      simp [readNumeral, digitValue_digitChar (Nat.mod_lt n (by decide : 0 < 10))]
    rw [numeral, readNumeral_append, ih hprefix, hlast, List.length_singleton, pow_one]
    omega

end InventoryBot.Lib
