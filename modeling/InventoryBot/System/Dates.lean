import InventoryBot.Events.BotService
import InventoryBot.Menu.CalculateCostOfSales
import InventoryBot.Menu.Dates
import InventoryBot.System.Collection

/-!
# Days for the dates of the source

The source compares the number of a date (`getDateValue`, `yyyymmdd`) with the number that the text
of a property denotes, and hands on dates as texts. The model counts days.

* `calendarPlatform`: a platform whose texts and numbers of dates are those of the source.
* `dates_are_days`: on it, the comparisons and texts of the model are those of the source.
-/

namespace InventoryBot.System

open Lib Menu

/-- A platform with the dates of the source, for the number that a text denotes to the runtime:
    the text of a date is `yyyy-MM-dd`, and a number stands for the last day up to it. -/
def calendarPlatform (P : Platform) (number : String → Option ℚ) : Platform :=
  { P with
    dateText := fun day => isoText (CivilDate.ofDay day)
    dateNumber := fun text =>
      (number (withoutDashes text)).map fun q => CivilDate.dayOfValue ⌊q⌋ }

/-- The runtime reads the eight digits of a date as the number that they denote. -/
def ReadsNumerals (number : String → Option ℚ) : Prop :=
  ∀ l : List Char, l.length = 8 → (∀ c ∈ l, c.isDigit = true) →
    number (String.ofList l) = some (readNumeral l : ℚ)

section Dates

variable {P : Platform} {number : String → Option ℚ} {c c' : CivilDate} {a : Account}

/-- A date is up to the day of a number if its own number is. -/
theorem toDay_le_dayOfValue_floor (c : CivilDate) (q : ℚ) :
    c.toDay ≤ CivilDate.dayOfValue ⌊q⌋ ↔ (c.value : ℚ) ≤ q := by
  rw [← CivilDate.value_le_iff, Int.le_floor]

theorem number_isoText (hnumber : ReadsNumerals number) (h : FourDigitYear c) :
    number (withoutDashes (isoText c)) = some (c.value : ℚ) := by
  have hlist := toList_withoutDashes_isoText c
  have hlength : (withoutDashes (isoText c)).toList.length = 8 := by
    rw [hlist]
    simp
  have hdigits : ∀ d ∈ (withoutDashes (isoText c)).toList, d.isDigit = true := by
    intro d hd
    rw [hlist, List.mem_append, List.mem_append] at hd
    rcases hd with hd | hd | hd <;> exact isDigit_of_mem_numeral hd
  have hvalue : ((readNumeral (withoutDashes (isoText c)).toList : ℤ) : ℚ) = c.value := by
    rw [readNumeral_isoText h]
  have hread := hnumber _ hlength hdigits
  rw [String.ofList_toList] at hread
  rw [hread, ← hvalue]
  rfl

/-- The webhook's test of a date against the calculation date of an account. -/
theorem calculated_iff_value (a : Account) (c : CivilDate) :
    Events.BotService.calculated (calendarPlatform P number) a c.toDay = true ↔
      ∃ text q, a.properties.get cogsCalcDateProp = some text ∧ text ≠ "" ∧
        number (withoutDashes text) = some q ∧ (c.value : ℚ) ≤ q := by
  unfold Events.BotService.calculated Events.BotService.getCOGSCalculationDateValue
  cases hprop : a.properties.get cogsCalcDateProp with
  | none => simp
  | some text =>
    dsimp only
    by_cases hempty : text = ""
    · rw [if_pos hempty]
      simp [hempty]
    · rw [if_neg hempty]
      cases hq : number (withoutDashes text) with
      | none => simp [calendarPlatform, hq]
      | some q => simp [calendarPlatform, hq, hempty, toDay_le_dayOfValue_floor]

/-- What a run stores is what the next one reads. -/
theorem calculationDate_read_back (hnumber : ReadsNumerals number) (a : Account)
    (h : FourDigitYear c) :
    GoodAccount.getCOGSCalculationDateValue (calendarPlatform P number)
      (GoodAccount.setCOGSCalculationDate a ((calendarPlatform P number).dateText c.toDay)) =
      some (some c.toDay) := by
  have hnonempty : isoText c ≠ "" := by
    intro he
    have hlength := congrArg (fun s : String => s.toList.length) he
    simp [isoText] at hlength
  simp [GoodAccount.getCOGSCalculationDateValue, GoodAccount.getCOGSCalculationDate,
    GoodAccount.setCOGSCalculationDate, truthy, calendarPlatform, number_isoText hnumber h,
    hnonempty, CivilDate.dayOfValue_value]

/-- The condition on which `storeLastCalcTxDate` writes, on numbers (lines 136–139). -/
def MovesOn (number : String → Option ℚ) (a : Account) (c : CivilDate) : Prop :=
  ∀ text, a.properties.get cogsCalcDateProp = some text → text ≠ "" →
    ∃ q, number (withoutDashes text) = some q ∧ q < c.value

/-- A run writes the date of its last sale under that condition. -/
theorem storeLastCalcTxDate_value (b : Book) (a : Account) {sales : List Transaction}
    {last : Transaction} (hlast : sales.getLast? = some last) (hdate : last.date = c.toDay) :
    (MovesOn number a c →
      CostOfSalesService.storeLastCalcTxDate (calendarPlatform P number) b a sales =
        b.updateAccount (GoodAccount.setCOGSCalculationDate a (isoText c))) ∧
    (¬MovesOn number a c →
      CostOfSalesService.storeLastCalcTxDate (calendarPlatform P number) b a sales = b) := by
  have htext : (calendarPlatform P number).dateText last.date = isoText c := by
    simp [calendarPlatform, hdate]
  unfold CostOfSalesService.storeLastCalcTxDate MovesOn
  rw [hlast]
  dsimp only
  rw [htext]
  unfold GoodAccount.getCOGSCalculationDateValue GoodAccount.getCOGSCalculationDate
  cases hprop : a.properties.get cogsCalcDateProp with
  | none => simp [truthy]
  | some text =>
    by_cases hempty : text = ""
    · simp [truthy, hempty]
    · cases hq : number (withoutDashes text) with
      | none => simp [truthy, hempty, calendarPlatform, hq]
      | some q =>
        have hmoves : CivilDate.dayOfValue ⌊q⌋ < last.date ↔ q < c.value := by
          rw [hdate, ← not_le, toDay_le_dayOfValue_floor, not_le]
        simp only [truthy, Option.any_some, bne_iff_ne, ne_eq, hempty, not_false_eq_true, if_true,
          Option.map_some, calendarPlatform, hq]
        constructor
        · intro hcond
          obtain ⟨q', hq', hlt⟩ := hcond text rfl hempty
          obtain rfl : q = q' := Option.some.inj (hq.symm.trans hq')
          exact if_pos (hmoves.2 hlt)
        · intro hcond
          refine if_neg fun hlt => hcond fun text' htext' _ => ?_
          obtain rfl : text = text' := Option.some.inj htext'
          exact ⟨q, hq, hmoves.1 hlt⟩

/-- A run up to a date lists the transactions up to that date. -/
theorem listTransactions_value {parseDate : String → Option ℤ}
    (hparse : ∀ c, FourDigitYear c → parseDate (isoText c) = some c.toDay) (b : Book) (a : Account)
    (h : FourDigitYear c) (hnext : FourDigitYear c.next) :
    ∃ before day, BotService.beforeDateIsoString parseDate (isoText c) = some before ∧
      helper.parseDate before = some day ∧
      CostOfSalesService.listTransactions b a c.toDay =
        b.getTransactions (helper.getAccountQuery a.name (some day) none) ∧
      ∀ c' : CivilDate, c'.toDay < day ↔ c'.value ≤ c.value := by
  refine ⟨isoText c.next, c.next.toDay, ?_, parseDate_isoText hnext, ?_, fun c' => ?_⟩
  · rw [BotService.beforeDateIsoString, hparse c h, Option.map_some, CivilDate.ofDay_succ]
  · rw [CivilDate.toDay_next]
    rfl
  · rw [CivilDate.toDay_next, CivilDate.value_le_value_iff]
    exact Int.lt_add_one_iff

/-- The days of the model are the dates of the source. The webhook and `storeLastCalcTxDate` compare
    days as the source compares numbers, whatever text a property has; and for years from 100 to
    9999, `parseDate` reads the text of a date as its day, what a run stores the next one reads, and
    a run up to a date lists the transactions whose number is up to that of the date. -/
theorem dates_are_days {parseDate : String → Option ℤ} (hnumber : ReadsNumerals number)
    (hparse : ∀ c, FourDigitYear c → parseDate (isoText c) = some c.toDay) (a : Account)
    (c : CivilDate) :
    (FourDigitYear c → helper.parseDate (isoText c) = some c.toDay) ∧
    (Events.BotService.calculated (calendarPlatform P number) a c.toDay = true ↔
      ∃ text q, a.properties.get cogsCalcDateProp = some text ∧ text ≠ "" ∧
        number (withoutDashes text) = some q ∧ (c.value : ℚ) ≤ q) ∧
    (∀ b sales last, sales.getLast? = some last → last.date = c.toDay →
      (MovesOn number a c →
        CostOfSalesService.storeLastCalcTxDate (calendarPlatform P number) b a sales =
          b.updateAccount (GoodAccount.setCOGSCalculationDate a (isoText c))) ∧
      (¬MovesOn number a c →
        CostOfSalesService.storeLastCalcTxDate (calendarPlatform P number) b a sales = b)) ∧
    (FourDigitYear c → GoodAccount.getCOGSCalculationDateValue (calendarPlatform P number)
      (GoodAccount.setCOGSCalculationDate a (isoText c)) = some (some c.toDay)) ∧
    (FourDigitYear c → FourDigitYear c.next → ∀ b, ∃ before day,
      BotService.beforeDateIsoString parseDate (isoText c) = some before ∧
        helper.parseDate before = some day ∧
        CostOfSalesService.listTransactions b a c.toDay =
          b.getTransactions (helper.getAccountQuery a.name (some day) none) ∧
        ∀ c' : CivilDate, c'.toDay < day ↔ c'.value ≤ c.value) := by
  refine ⟨parseDate_isoText, calculated_iff_value a c, fun b sales last hlast hdate => ?_,
    fun h => ?_, fun h hnext b => listTransactions_value hparse b a h hnext⟩
  · exact storeLastCalcTxDate_value b a hlast hdate
  · have hread := calculationDate_read_back (P := P) hnumber a h
    rwa [show (calendarPlatform P number).dateText c.toDay = isoText c by
      simp [calendarPlatform]] at hread

end Dates

/-! ## The end of February -/

namespace Sample

/-- The reader of digits as a reader of numbers. -/
def readNumber (text : String) : Option ℚ := (readDigits text).map (↑)

theorem readNumber_readsNumerals : ReadsNumerals readNumber := by
  have hfold : ∀ (l : List Char) (n : ℕ), (∀ c ∈ l, c.isDigit = true) →
      l.foldlM (fun n c => if c.isDigit then some (10 * n + (c.toNat - '0'.toNat)) else none) n =
        some (l.foldl (fun n c => 10 * n + digitValue c) n) := by
    intro l
    induction l with
    | nil => exact fun n _ => rfl
    | cons c l ih =>
      intro n h
      rw [List.foldlM_cons, if_pos (h c List.mem_cons_self)]
      exact ih _ fun d hd => h d (List.mem_cons_of_mem _ hd)
  intro l hlength hdigits
  have hnonempty : String.ofList l ≠ "" := by
    intro he
    have hnil : l = [] := by simpa using congrArg String.toList he
    rw [hnil] at hlength
    cases hlength
  unfold readNumber readDigits
  rw [if_neg hnonempty, String.toList_ofList, hfold l 0 hdigits]
  rfl

/-- The 29th of February 2024. -/
def leapDay : CivilDate := .ofDay 19782

end Sample

/-- A run up to the 29th of February lists what is before the first of March. -/
theorem dates_are_days_sample :
    helper.parseDate (isoText Sample.leapDay) = some 19782 ∧
      BotService.beforeDateIsoString helper.parseDate (isoText Sample.leapDay) =
        some "2024-03-01" ∧
      ∃ day, helper.parseDate "2024-03-01" = some day ∧
        ∀ c' : CivilDate, c'.toDay < day ↔ c'.value ≤ 20240229 := by
  have hparse : ∀ c, FourDigitYear c → helper.parseDate (isoText c) = some c.toDay :=
    fun c => parseDate_isoText
  have hdates := dates_are_days (P := decimalPlatform) Sample.readNumber_readsNumerals hparse
    (Sample.widgets "USD") Sample.leapDay
  have hday : Sample.leapDay.toDay = 19782 := CivilDate.toDay_ofDay _
  have hvalue : Sample.leapDay.value = 20240229 := by decide +kernel
  have hbefore : BotService.beforeDateIsoString helper.parseDate (isoText Sample.leapDay) =
      some "2024-03-01" := by decide +kernel
  have hreadable : FourDigitYear Sample.leapDay := by decide +kernel
  have hnext : FourDigitYear Sample.leapDay.next := by decide +kernel
  refine ⟨hday ▸ hdates.1 hreadable, hbefore, ?_⟩
  obtain ⟨before, day, htext, hparsed, -, hlisted⟩ :=
    hdates.2.2.2.2 hreadable hnext Sample.emptyBook
  obtain rfl : "2024-03-01" = before := Option.some.inj (hbefore.symm.trans htext)
  exact ⟨day, hparsed, fun c' => hvalue ▸ hlisted c'⟩

end InventoryBot.System
