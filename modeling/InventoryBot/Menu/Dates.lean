import InventoryBot.Lib.Calendar
import InventoryBot.Lib.Numerals
import InventoryBot.Lib.Split
import InventoryBot.Menu.BotService
import Mathlib.Data.List.TakeWhile

/-!
# The texts of dates

Models of `helper.ts`, lines 29–35, of `BotService.ts`, lines 97–103, and of the reading of
`cogs_calc_date` in `GoodAccount.ts`, on the texts and numbers of the source. The other modules
count days.

* `helper.parseDate`: the day of a text.
* `parseDate_isoText`: it reads what the library writes.
* `readNumeral_isoText`: without its dashes, the text of a date denotes its number.
-/

namespace InventoryBot.Menu

open Lib

/-! ## The runtime -/

/-- The digits of a radix up to 16. -/
def isDigitIn (radix : ℕ) (c : Char) : Bool :=
  c.isDigit || (radix == 16 && 'a' ≤ c.toLower && c.toLower ≤ 'f')

/-- The value of a digit of a radix up to 16. -/
def digitValueIn (c : Char) : ℕ :=
  if c.isDigit then digitValue c else c.toLower.toNat - 'a'.toNat + 10

/-- A sign in front of a number, and what follows. -/
def takeSign : List Char → Bool × List Char
  | '-' :: l => (true, l)
  | '+' :: l => (false, l)
  | l => (false, l)

/-- The radix of a number, and what follows its mark. -/
def takeRadix : List Char → ℕ × List Char
  | '0' :: 'x' :: l => (16, l)
  | '0' :: 'X' :: l => (16, l)
  | l => (10, l)

/-- `parseInt`; `none` is `NaN`. -/
def parseInt (text : String) : Option ℤ :=
  let (negative, l) := takeSign (text.toList.dropWhile isJsSpace)
  let (radix, l) := takeRadix l
  let digits := l.takeWhile (isDigitIn radix)
  if digits = [] then none
  else
    let n : ℕ := digits.foldl (fun n c => radix * n + digitValueIn c) 0
    some (if negative then -n else n)

/-- The day of `new Date(year, month, day, ...)`. A year below 100 counts from 1900, a month that
    is no month counts from its year, and a day from its month. -/
def makeDay (year month day : ℤ) : ℤ :=
  let year := if 0 ≤ year ∧ year < 100 then 1900 + year else year
  let month₁₂ : Fin 12 := ⟨(month % 12).toNat, by omega⟩
  dayFromYear (year + month / 12) + daysBefore (isLeap (year + month / 12)) month₁₂ + day - 1

/-- `text.replaceAll('-', '')`. -/
def withoutDashes (text : String) : String := String.ofList (text.toList.filter (· != '-'))

/-! ## The client library -/

/-- The text `yyyy-MM-dd` of a date. -/
def isoText (c : CivilDate) : String :=
  String.ofList (numeral 4 c.year.toNat ++ ['-'] ++
    (numeral 2 (c.month.val + 1) ++ ['-'] ++ numeral 2 c.day))

/-- The years of four digits that `new Date` does not count from 1900. -/
def FourDigitYear (c : CivilDate) : Prop := 100 ≤ c.year ∧ c.year < 10000

instance (c : CivilDate) : Decidable (FourDigitYear c) := inferInstanceAs (Decidable (_ ∧ _))

/-! ## `helper` and `BotService` -/

/-- `parseDate` (lines 29–35): the day, on which it is 13:00; `none` is an invalid date. -/
def helper.parseDate (isoDate : String) : Option ℤ := do
  let dateSplit := (split ['-'] isoDate.toList).map String.ofList
  let year ← dateSplit[0]?.bind parseInt
  let month ← dateSplit[1]?.bind parseInt
  let day ← dateSplit[2]?.bind parseInt
  some (makeDay year (month - 1) day)

/-- `getBeforeDateIsoString` (lines 97–103), for what `Book.parseDate` reads. -/
def BotService.beforeDateIsoString (parseDate : String → Option ℤ) (toDateIsoString : String) :
    Option String :=
  (parseDate toDateIsoString).map fun toDate => isoText (CivilDate.ofDay (toDate + 1))

/-! ## Reading digits -/

section Digits

variable {l : List Char}

theorem toNat_of_isDigit {c : Char} (h : c.isDigit = true) : 48 ≤ c.toNat ∧ c.toNat ≤ 57 := by
  simp only [Char.isDigit, Bool.and_eq_true, decide_eq_true_eq, ge_iff_le, UInt32.le_iff_toNat_le]
    at h
  exact h

theorem isJsSpace_of_isDigit {c : Char} (h : c.isDigit = true) : isJsSpace c = false := by
  obtain ⟨hlow, hhigh⟩ := toNat_of_isDigit h
  simp [isJsSpace]
  omega

theorem takeSign_digits (h : ∀ c ∈ l, c.isDigit = true) : takeSign l = (false, l) := by
  unfold takeSign
  split
  · exact absurd (h '-' List.mem_cons_self) (by decide)
  · exact absurd (h '+' List.mem_cons_self) (by decide)
  · rfl

theorem takeRadix_digits (h : ∀ c ∈ l, c.isDigit = true) : takeRadix l = (10, l) := by
  unfold takeRadix
  split
  · exact absurd (h 'x' (by simp)) (by decide)
  · exact absurd (h 'X' (by simp)) (by decide)
  · rfl

theorem foldl_digitValueIn (h : ∀ c ∈ l, c.isDigit = true) (n : ℕ) :
    l.foldl (fun n c => 10 * n + digitValueIn c) n =
      l.foldl (fun n c => 10 * n + digitValue c) n := by
  induction l generalizing n with
  | nil => rfl
  | cons c l ih =>
    have hc : digitValueIn c = digitValue c := if_pos (h c List.mem_cons_self)
    rw [List.foldl_cons, List.foldl_cons, hc]
    exact ih (fun c hc => h c (List.mem_cons_of_mem _ hc)) _

/-- Digits are read as the number that they denote. -/
theorem parseInt_digits (h : ∀ c ∈ l, c.isDigit = true) (hne : l ≠ []) :
    parseInt (String.ofList l) = some (readNumeral l : ℤ) := by
  have hspace : l.dropWhile isJsSpace = l := by
    cases l with
    | nil => rfl
    | cons c l =>
      exact List.dropWhile_cons_of_neg (by simp [isJsSpace_of_isDigit (h c List.mem_cons_self)])
  have hdigits : l.takeWhile (isDigitIn 10) = l :=
    List.takeWhile_eq_self_iff.2 fun c hc => by simp [isDigitIn, h c hc]
  unfold parseInt
  rw [String.toList_ofList, hspace, takeSign_digits h]
  dsimp only
  rw [takeRadix_digits h]
  dsimp only
  rw [hdigits, if_neg hne, foldl_digitValueIn h]
  rfl

theorem parseInt_numeral {k n : ℕ} (hk : k ≠ 0) (h : n < 10 ^ k) :
    parseInt (String.ofList (numeral k n)) = some (n : ℤ) := by
  have hne : numeral k n ≠ [] := fun he => hk (by simpa using congrArg List.length he)
  rw [parseInt_digits (fun c => isDigit_of_mem_numeral) hne, readNumeral_numeral h]

end Digits

/-! ## The text of a date -/

section Texts

variable {c : CivilDate}

theorem dash_notMem_numeral (k n : ℕ) : '-' ∉ numeral k n :=
  fun h => absurd (isDigit_of_mem_numeral h) (by decide)

/-- The three parts between the dashes. -/
theorem split_isoText (c : CivilDate) :
    (split ['-'] (isoText c).toList).map String.ofList =
      [String.ofList (numeral 4 c.year.toNat), String.ofList (numeral 2 (c.month.val + 1)),
        String.ofList (numeral 2 c.day)] := by
  have hlast : split ['-'] (numeral 2 c.day) = [numeral 2 c.day] :=
    split_absent fun h => dash_notMem_numeral _ _ (h.subset List.mem_cons_self)
  rw [isoText, String.toList_ofList,
    split_append (by simp) _ (unseparated_singleton (dash_notMem_numeral _ _)),
    split_append (by simp) _ (unseparated_singleton (dash_notMem_numeral _ _)), hlast]
  rfl

/-- The day of the parts of a date is its day. -/
theorem makeDay_of_fourDigitYear (h : FourDigitYear c) :
    makeDay c.year.toNat ((c.month.val + 1 : ℕ) - 1 : ℤ) c.day = c.toDay := by
  obtain ⟨hlow, hhigh⟩ := h
  have hmonth := c.month.isLt
  have hpos := c.day_pos
  have hyear : (c.year.toNat : ℤ) = c.year := by omega
  have hindex : ((c.month.val + 1 : ℕ) - 1 : ℤ) = c.month.val := by omega
  have hnone : (c.month.val : ℤ) / 12 = 0 := by omega
  have hfin : (⟨((c.month.val : ℤ) % 12).toNat, by omega⟩ : Fin 12) = c.month := by
    ext
    show ((c.month.val : ℤ) % 12).toNat = c.month.val
    omega
  unfold makeDay
  rw [hyear, hindex]
  dsimp only
  rw [if_neg (by omega), hnone, add_zero, hfin]
  unfold CivilDate.toDay CivilDate.dayInYear
  omega

/-- `parseDate` reads what the client library writes. -/
theorem parseDate_isoText (h : FourDigitYear c) : helper.parseDate (isoText c) = some c.toDay := by
  have hmonth := c.month.isLt
  have hday := c.day_le_thirtyOne
  have hyear : c.year.toNat < 10 ^ 4 := by
    obtain ⟨hlow, hhigh⟩ := h
    omega
  unfold helper.parseDate
  rw [split_isoText]
  simp only [List.getElem?_cons_zero, List.getElem?_cons_succ, Option.bind_some,
    parseInt_numeral (by decide : 4 ≠ 0) hyear,
    parseInt_numeral (by decide : 2 ≠ 0) (by omega : c.month.val + 1 < 10 ^ 2),
    parseInt_numeral (by decide : 2 ≠ 0) (by omega : c.day < 10 ^ 2), Option.bind_eq_bind]
  rw [makeDay_of_fourDigitYear h]

theorem toList_withoutDashes_isoText (c : CivilDate) : (withoutDashes (isoText c)).toList =
    numeral 4 c.year.toNat ++ (numeral 2 (c.month.val + 1) ++ numeral 2 c.day) := by
  have hkept : ∀ k n, (numeral k n).filter (· != '-') = numeral k n := fun k n =>
    List.filter_eq_self.2 fun a ha => by
      have hne : a ≠ '-' := fun he => dash_notMem_numeral k n (he ▸ ha)
      simpa using hne
  rw [withoutDashes, isoText, String.toList_ofList, String.toList_ofList, List.filter_append,
    List.filter_append, List.filter_append, List.filter_append, hkept, hkept, hkept]
  simp

/-- Without its dashes, the text of a date denotes its number. -/
theorem readNumeral_isoText (h : FourDigitYear c) :
    (readNumeral (withoutDashes (isoText c)).toList : ℤ) = c.value := by
  obtain ⟨hlow, hhigh⟩ := h
  have hmonth := c.month.isLt
  have hday := c.day_le_thirtyOne
  rw [toList_withoutDashes_isoText, readNumeral_append, readNumeral_append,
    readNumeral_numeral (by omega : c.year.toNat < 10 ^ 4),
    readNumeral_numeral (by omega : c.month.val + 1 < 10 ^ 2),
    readNumeral_numeral (by omega : c.day < 10 ^ 2)]
  simp only [List.length_append, length_numeral]
  unfold CivilDate.value
  omega

end Texts

end InventoryBot.Menu
