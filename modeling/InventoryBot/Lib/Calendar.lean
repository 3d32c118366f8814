import Mathlib.Data.List.FinRange
import Mathlib.Order.SuccPred.Basic
import Mathlib.Data.Int.SuccPred
import Mathlib.Order.Fin.Basic

/-!
# The Gregorian calendar

Civil dates and day numbers, which count from the first of January 1970. Months count from zero.

* `CivilDate`: a day of a month of a year.
* `CivilDate.toDay`, `ofDay`: the two are inverse to each other.
* `CivilDate.next`: the day after.
* `CivilDate.toDay_lt_iff`: day numbers are ordered as dates are.
* `CivilDate.value_le_iff`: a number `yyyymmdd`, of a date or not, stands for a day number.
-/

namespace InventoryBot.Lib

/-- The years with a 29th of February. -/
def isLeap (y : ℤ) : Bool := y % 4 = 0 && (y % 100 ≠ 0 || y % 400 = 0)

/-- The day number of the first of January. -/
def dayFromYear (y : ℤ) : ℤ :=
  365 * (y - 1970) + (y - 1969) / 4 - (y - 1901) / 100 + (y - 1601) / 400

/-- The days before a month. -/
def daysBefore (leap : Bool) (m : Fin 12) : ℕ :=
  if leap then [0, 31, 60, 91, 121, 152, 182, 213, 244, 274, 305, 335].getD m 0
  else [0, 31, 59, 90, 120, 151, 181, 212, 243, 273, 304, 334].getD m 0

/-- The days of a month. -/
def daysIn (leap : Bool) (m : Fin 12) : ℕ :=
  if m = 1 then if leap then 29 else 28 else if m ∈ [3, 5, 8, 10] then 30 else 31

/-- The days of a year. -/
def yearLength (leap : Bool) : ℕ := if leap then 366 else 365

/-! ## Years and months -/

theorem dayFromYear_succ (y : ℤ) : dayFromYear (y + 1) = dayFromYear y + yearLength (isLeap y) := by
  unfold dayFromYear yearLength isLeap
  by_cases h4 : y % 4 = 0
  · by_cases h100 : y % 100 = 0
    · by_cases h400 : y % 400 = 0
      · simp [h4, h100, h400]
        omega
      · simp [h4, h100, h400]
        omega
    · simp [h4, h100]
      omega
  · simp [h4]
    omega

theorem yearLength_pos (leap : Bool) : 0 < yearLength leap := by
  cases leap <;> decide

theorem dayFromYear_le {y z : ℤ} (h : y ≤ z) : dayFromYear y ≤ dayFromYear z := by
  refine monotone_int_of_le_succ (fun y => ?_) h
  have hpos := yearLength_pos (isLeap y)
  rw [dayFromYear_succ]
  omega

/-- A month ends where the next one starts, or with the year. -/
theorem daysBefore_add_daysIn (leap : Bool) (m : Fin 12) :
    daysBefore leap m + daysIn leap m =
      if h : m.val + 1 < 12 then daysBefore leap ⟨m.val + 1, h⟩ else yearLength leap := by
  revert leap m
  decide

theorem daysIn_pos (leap : Bool) (m : Fin 12) : 0 < daysIn leap m := by
  revert leap m
  decide

/-- An earlier month is over before a later one starts. -/
theorem daysBefore_add_daysIn_le (leap : Bool) (m m' : Fin 12) (h : m < m') :
    daysBefore leap m + daysIn leap m ≤ daysBefore leap m' := by
  revert leap m m'
  decide

theorem daysBefore_add_daysIn_le_yearLength (leap : Bool) (m : Fin 12) :
    daysBefore leap m + daysIn leap m ≤ yearLength leap := by
  revert leap m
  decide

/-- The year of a day: a guess, and the years next to it. -/
def yearFromDay (d : ℤ) : ℤ :=
  let y := 1970 + 400 * d / 146097
  if d < dayFromYear y then y - 1 else if dayFromYear (y + 1) ≤ d then y + 1 else y

theorem yearFromDay_spec (d : ℤ) :
    dayFromYear (yearFromDay d) ≤ d ∧ d < dayFromYear (yearFromDay d + 1) := by
  unfold yearFromDay
  dsimp only
  split
  · rename_i hearly
    rw [sub_add_cancel]
    refine ⟨?_, hearly⟩
    unfold dayFromYear
    omega
  · split
    · unfold dayFromYear at *
      omega
    · exact ⟨by omega, by omega⟩

/-- The month of a day of a year. -/
def monthFromDay (leap : Bool) (k : ℕ) : Fin 12 :=
  ((List.finRange 12).reverse.find? fun m => daysBefore leap m ≤ k).getD 0

theorem monthFromDay_spec (leap : Bool) (k : ℕ) (h : k < yearLength leap) :
    daysBefore leap (monthFromDay leap k) ≤ k ∧
      k < daysBefore leap (monthFromDay leap k) + daysIn leap (monthFromDay leap k) := by
  have hall : ∀ leap : Bool, ∀ k < 366, k < yearLength leap →
      daysBefore leap (monthFromDay leap k) ≤ k ∧
        k < daysBefore leap (monthFromDay leap k) + daysIn leap (monthFromDay leap k) := by
    decide +kernel
  refine hall leap k (h.trans_le ?_) h
  cases leap <;> decide

/-! ## Dates -/

/-- A day of the calendar. -/
@[ext]
structure CivilDate where
  year : ℤ
  month : Fin 12
  day : ℕ
  day_pos : 0 < day
  day_le : day ≤ daysIn (isLeap year) month
  deriving DecidableEq

namespace CivilDate

/-- The days of the year before a date. -/
def dayInYear (c : CivilDate) : ℕ := daysBefore (isLeap c.year) c.month + (c.day - 1)

/-- The day number of a date. -/
def toDay (c : CivilDate) : ℤ := dayFromYear c.year + c.dayInYear

/-- The dates in order: by year, month and day. -/
def Before (c c' : CivilDate) : Prop :=
  c.year < c'.year ∨ (c.year = c'.year ∧
    (c.month < c'.month ∨ (c.month = c'.month ∧ c.day < c'.day)))

/-- The day after a date. -/
def next (c : CivilDate) : CivilDate :=
  if h : c.day < daysIn (isLeap c.year) c.month then
    ⟨c.year, c.month, c.day + 1, Nat.succ_pos _, h⟩
  else if h : c.month.val + 1 < 12 then
    ⟨c.year, ⟨c.month.val + 1, h⟩, 1, Nat.one_pos, daysIn_pos _ _⟩
  else ⟨c.year + 1, 0, 1, Nat.one_pos, daysIn_pos _ _⟩

variable {c c' : CivilDate}

theorem dayInYear_lt (c : CivilDate) : c.dayInYear < yearLength (isLeap c.year) := by
  have hmonth := daysBefore_add_daysIn_le_yearLength (isLeap c.year) c.month
  have hpos := c.day_pos
  have hle := c.day_le
  unfold dayInYear
  omega

theorem toDay_bounds (c : CivilDate) :
    dayFromYear c.year ≤ c.toDay ∧ c.toDay < dayFromYear (c.year + 1) := by
  have hlt := c.dayInYear_lt
  rw [dayFromYear_succ]
  unfold toDay
  omega

theorem Before.toDay_lt (h : c.Before c') : c.toDay < c'.toDay := by
  rcases h with hyear | ⟨hyear, hrest⟩
  · have hmono := dayFromYear_le (show c.year + 1 ≤ c'.year from hyear)
    exact (c.toDay_bounds.2.trans_le hmono).trans_le c'.toDay_bounds.1
  · have hposition : c.dayInYear < c'.dayInYear := by
      have hpos := c.day_pos
      have hle := c.day_le
      have hpos' := c'.day_pos
      unfold dayInYear
      rcases hrest with hmonth | ⟨hmonth, hday⟩
      · have hover := daysBefore_add_daysIn_le (isLeap c.year) _ _ hmonth
        rw [← hyear]
        omega
      · rw [← hyear, ← hmonth]
        omega
    unfold toDay
    rw [hyear]
    omega

theorem before_trichotomy (c c' : CivilDate) : c.Before c' ∨ c = c' ∨ c'.Before c := by
  rcases lt_trichotomy c.year c'.year with hyear | hyear | hyear
  · exact Or.inl (Or.inl hyear)
  · rcases lt_trichotomy c.month c'.month with hmonth | hmonth | hmonth
    · exact Or.inl (Or.inr ⟨hyear, Or.inl hmonth⟩)
    · rcases lt_trichotomy c.day c'.day with hday | hday | hday
      · exact Or.inl (Or.inr ⟨hyear, Or.inr ⟨hmonth, hday⟩⟩)
      · exact Or.inr (Or.inl (CivilDate.ext hyear hmonth hday))
      · exact Or.inr (Or.inr (Or.inr ⟨hyear.symm, Or.inr ⟨hmonth.symm, hday⟩⟩))
    · exact Or.inr (Or.inr (Or.inr ⟨hyear.symm, Or.inl hmonth⟩))
  · exact Or.inr (Or.inr (Or.inl hyear))

/-- Day numbers are ordered as dates are. -/
theorem toDay_lt_iff : c.toDay < c'.toDay ↔ c.Before c' := by
  refine ⟨fun h => ?_, Before.toDay_lt⟩
  rcases before_trichotomy c c' with hbefore | rfl | hbefore
  · exact hbefore
  · exact absurd h (lt_irrefl _)
  · exact absurd h hbefore.toDay_lt.asymm

theorem toDay_injective : Function.Injective toDay := by
  intro c c' h
  rcases before_trichotomy c c' with hbefore | hsame | hbefore
  · exact absurd h hbefore.toDay_lt.ne
  · exact hsame
  · exact absurd h.symm hbefore.toDay_lt.ne

/-- The date of a day number. -/
def ofDay (d : ℤ) : CivilDate :=
  have hspec := monthFromDay_spec (isLeap (yearFromDay d))
    (d - dayFromYear (yearFromDay d)).toNat (by
      have hyear := yearFromDay_spec d
      rw [dayFromYear_succ] at hyear
      omega)
  { year := yearFromDay d
    month := monthFromDay (isLeap (yearFromDay d)) (d - dayFromYear (yearFromDay d)).toNat
    day := (d - dayFromYear (yearFromDay d)).toNat - daysBefore (isLeap (yearFromDay d))
      (monthFromDay (isLeap (yearFromDay d)) (d - dayFromYear (yearFromDay d)).toNat) + 1
    day_pos := Nat.succ_pos _
    day_le := by omega }

@[simp] theorem toDay_ofDay (d : ℤ) : (ofDay d).toDay = d := by
  have hyear := yearFromDay_spec d
  have hmonth := monthFromDay_spec (isLeap (yearFromDay d))
    (d - dayFromYear (yearFromDay d)).toNat (by
      rw [dayFromYear_succ] at hyear
      omega)
  simp only [toDay, dayInYear, ofDay, Nat.add_sub_cancel]
  omega

@[simp] theorem ofDay_toDay (c : CivilDate) : ofDay c.toDay = c := toDay_injective (toDay_ofDay _)

/-- The next date is the next day. -/
theorem toDay_next (c : CivilDate) : c.next.toDay = c.toDay + 1 := by
  have hpos := c.day_pos
  have hle := c.day_le
  have hmonth := daysBefore_add_daysIn (isLeap c.year) c.month
  unfold next
  split
  · simp only [toDay, dayInYear]
    omega
  · rename_i hlast
    split
    · rename_i hnext
      rw [dif_pos hnext] at hmonth
      simp only [toDay, dayInYear]
      omega
    · rename_i hdecember
      rw [dif_neg hdecember] at hmonth
      have hfirst : daysBefore (isLeap (c.year + 1)) 0 = 0 := by
        cases isLeap (c.year + 1) <;> rfl
      simp only [toDay, dayInYear, dayFromYear_succ, hfirst]
      omega

theorem ofDay_succ (c : CivilDate) : ofDay (c.toDay + 1) = c.next := by
  rw [← toDay_next, ofDay_toDay]

/-! ## Dates as one number -/

/-- The number `yyyymmdd` of a date. -/
def value (c : CivilDate) : ℤ := c.year * 10000 + (c.month.val + 1) * 100 + c.day

/-- The last day with a number up to the given one. -/
def dayOfValue (v : ℤ) : ℤ :=
  let year := v / 10000
  let month := v / 100 % 100
  let day := v % 100
  if month = 0 then dayFromYear year - 1
  else if h : month ≤ 12 then
    let m : Fin 12 := ⟨(month - 1).toNat, by omega⟩
    dayFromYear year + daysBefore (isLeap year) m + min day (daysIn (isLeap year) m) - 1
  else dayFromYear (year + 1) - 1

theorem toDay_lt_dayFromYear {y : ℤ} : c.toDay < dayFromYear y ↔ c.year < y := by
  constructor
  · intro h
    by_contra hle
    have hmono := dayFromYear_le (not_lt.1 hle)
    have hbound := c.toDay_bounds.1
    omega
  · intro h
    exact c.toDay_bounds.2.trans_le (dayFromYear_le h)

/-- The days of a month up to one of them. -/
theorem dayInYear_le_iff (c : CivilDate) (m : Fin 12) {day : ℤ} (hday : 0 ≤ day) :
    (c.dayInYear : ℤ) ≤ daysBefore (isLeap c.year) m + min day (daysIn (isLeap c.year) m) - 1 ↔
      c.month < m ∨ (c.month = m ∧ c.day ≤ day) := by
  have hpos := c.day_pos
  have hle := c.day_le
  unfold dayInYear
  rcases lt_trichotomy c.month m with hmonth | rfl | hmonth
  · have hover := daysBefore_add_daysIn_le (isLeap c.year) _ _ hmonth
    simp only [hmonth, true_or, iff_true]
    omega
  · simp only [lt_irrefl, false_or, true_and]
    omega
  · have hover := daysBefore_add_daysIn_le (isLeap c.year) _ _ hmonth
    simp only [hmonth.not_gt, hmonth.ne', false_and, or_self, iff_false]
    omega

theorem day_le_thirtyOne (c : CivilDate) : c.day ≤ 31 := by
  refine c.day_le.trans ?_
  generalize isLeap c.year = leap
  generalize c.month = m
  revert leap m
  decide

/-- Every number stands for a day: the dates up to that day are those with a number up to it. -/
theorem value_le_iff (c : CivilDate) (v : ℤ) : c.value ≤ v ↔ c.toDay ≤ dayOfValue v := by
  have hmonth := c.month.isLt
  have hpos := c.day_pos
  have hday := c.day_le_thirtyOne
  unfold dayOfValue
  dsimp only
  split
  · -- before the first of January
    have hyear : c.toDay ≤ dayFromYear (v / 10000) - 1 ↔ c.year < v / 10000 := by
      rw [← toDay_lt_dayFromYear]
      omega
    rw [hyear]
    unfold value
    omega
  · split
    · rename_i hnonzero hle
      have hval : (((v / 100 % 100 - 1).toNat : ℕ) : ℤ) = v / 100 % 100 - 1 := by omega
      generalize hm : (⟨(v / 100 % 100 - 1).toNat, by omega⟩ : Fin 12) = m
      have hmval : (m.val : ℤ) = v / 100 % 100 - 1 := by
        rw [← hm]
        exact hval
      have hmonths := daysBefore_add_daysIn_le_yearLength (isLeap (v / 10000)) m
      have hrest : 0 ≤ v % 100 := by omega
      rcases lt_trichotomy c.year (v / 10000) with hyear | hyear | hyear
      · have hbefore := toDay_lt_dayFromYear.2 hyear
        refine iff_of_true ?_ ?_
        · unfold value
          omega
        · omega
      · have hshift : c.toDay ≤ dayFromYear (v / 10000) + daysBefore (isLeap (v / 10000)) m +
            min (v % 100) (daysIn (isLeap (v / 10000)) m) - 1 ↔
            (c.dayInYear : ℤ) ≤ daysBefore (isLeap c.year) m +
              min (v % 100) (daysIn (isLeap c.year) m) - 1 := by
          rw [← hyear]
          unfold toDay
          omega
        rw [hshift, dayInYear_le_iff c m hrest, Fin.lt_def, Fin.ext_iff]
        unfold value
        omega
      · have hafter : dayFromYear (v / 10000 + 1) ≤ c.toDay := by
          refine not_lt.1 fun h => ?_
          have hlt := toDay_lt_dayFromYear.1 h
          omega
        rw [dayFromYear_succ] at hafter
        refine iff_of_false ?_ ?_
        · unfold value
          omega
        · omega
    · -- after the last of December
      have hyear : c.toDay ≤ dayFromYear (v / 10000 + 1) - 1 ↔ c.year < v / 10000 + 1 := by
        rw [← toDay_lt_dayFromYear]
        omega
      rw [hyear]
      unfold value
      omega

theorem dayOfValue_value (c : CivilDate) : dayOfValue c.value = c.toDay := by
  refine le_antisymm ?_ ((value_le_iff c c.value).1 le_rfl)
  have hnext := mt (value_le_iff c.next c.value).2 (by
    have hafter : c.Before c.next := toDay_lt_iff.1 (by rw [toDay_next]; omega)
    have hday : c.day ≤ 31 ∧ c.next.day ≤ 31 := ⟨c.day_le_thirtyOne, c.next.day_le_thirtyOne⟩
    have hpos := c.next.day_pos
    have hmonth := c.month.isLt
    unfold Before at hafter
    rw [Fin.lt_def, Fin.ext_iff] at hafter
    unfold value
    omega)
  rw [toDay_next] at hnext
  omega

/-- The numbers of dates are ordered as their days are. -/
theorem value_le_value_iff : c.value ≤ c'.value ↔ c.toDay ≤ c'.toDay := by
  rw [value_le_iff, dayOfValue_value]

end CivilDate

end InventoryBot.Lib
