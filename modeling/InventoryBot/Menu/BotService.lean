import InventoryBot.Bkper.Book
import Mathlib.Data.List.Sort

/-!
# The menu's `BotService`, `GoodAccount`, `helper` and `Summary`

Models of `menu/server/src/BotService.ts`, `GoodAccount.ts`, `helper.ts` and `Summary.ts`:
the classification of inventory transactions, the FIFO comparator, the resolution of the
books of a collection, and the properties of a good account.
-/

namespace InventoryBot.Menu

open Lib

/-! ## `constants.ts` -/

/-- `ADDITIONAL_COSTS_CREDITS_QUERY_RANGE`, in months. -/
def additionalCostsCreditsQueryRange : ℤ := 2

/-- `COGS_ACCOUNT`. -/
def cogsAccount : String := "Cost of goods sold"

/-- `COGS_CALC_DATE_PROP`. -/
def cogsCalcDateProp : String := "cogs_calc_date"

/-- `EXC_CODE_PROP`. -/
def excCodeProp : String := "exc_code"

/-- `NEEDS_REBUILD_PROP`. -/
def needsRebuildProp : String := "needs_rebuild"

/-! ## `BotService` -/

namespace BotService

/-- `isSale` (lines 39–41). A posted transaction has both its accounts. -/
def isSale (transaction : Transaction) : Bool :=
  transaction.posted && transaction.debitAccount.any (·.type == .outgoing)

/-- `isPurchase` (lines 43–45). -/
def isPurchase (transaction : Transaction) : Bool :=
  transaction.posted && transaction.creditAccount.any (·.type == .incoming)

/-- `isCreditNote` (lines 47–49). -/
def isCreditNote (transaction : Transaction) : Bool :=
  transaction.posted && transaction.debitAccount.any (·.type == .incoming) &&
    transaction.creditNote.isSome

/-- `getInventoryBook` (lines 3–18), on the books of the collection. -/
def getInventoryBook (collection : Option (List BookInfo)) : Option BookInfo :=
  collection.bind fun connectedBooks => connectedBooks.find? fun connectedBook =>
    truthy connectedBook.inventoryBook || connectedBook.fractionDigits == 0

/-- `getExcCode` (lines 51–53). -/
def getExcCode (book : BookInfo) : Option String := book.excCode <|> book.exchangeCode

/-- `getFinancialBook` (lines 24–39). -/
def getFinancialBook (collection : Option (List BookInfo)) (excCode : Option String) :
    Option BookInfo :=
  match collection, excCode with
  | some connectedBooks, some code => connectedBooks.find? fun connectedBook =>
      connectedBook.fractionDigits != 0 && some code == getExcCode connectedBook
  | _, _ => none

/-- `getExchangeCode` (lines 55–72). -/
def getExchangeCode (account : Account) : Option String :=
  if account.type = .incoming ∨ account.type = .outgoing then none
  else account.groups.findSome? fun group =>
    (group.properties.get excCodeProp).filter fun exchange => jsTrim exchange != ""

/-- `tx.getProperty(ORDER_PROP) ? +tx.getProperty(ORDER_PROP) : 0`. -/
def orderValue (P : Platform) (tx : Transaction) : JsNumber :=
  match tx.order with
  | some text => if text = "" then .fin 0 else P.orderNumber text
  | none => .fin 0

/-- `compareToFIFO` (lines 74–89). `getMilliseconds()` is the millisecond within the second. -/
def compareToFIFO (P : Platform) (tx1 tx2 : Transaction) : JsNumber :=
  if tx1.date - tx2.date = 0 then
    let ret := (orderValue P tx1).sub (orderValue P tx2)
    match tx1.createdAt, tx2.createdAt with
    | some c1, some c2 =>
      if ret = .fin 0 then .fin (((c1 % 1000 : ℕ) : ℚ) - ((c2 % 1000 : ℕ) : ℚ)) else ret
    | _, _ => ret
  else .fin ((tx1.date - tx2.date : ℤ) : ℚ)

/-- `tx1` may stand before `tx2` in an array sorted with `compareToFIFO`. -/
def fifoLe (P : Platform) (tx1 tx2 : Transaction) : Prop :=
  (compareToFIFO P tx1 tx2).isPos = false

instance (P : Platform) : DecidableRel (fifoLe P) :=
  fun tx1 tx2 => inferInstanceAs (Decidable ((compareToFIFO P tx1 tx2).isPos = false))

/-- `array.sort(BotService.compareToFIFO)`. -/
def sortFIFO (P : Platform) (txs : List Transaction) : List Transaction :=
  P.sort (compareToFIFO P) txs

/-- `getBeforeDateIsoString` (lines 91–103): the day after the given one. -/
def getBeforeDateIsoString (toDate : Date) : Date := toDate + 1

end BotService

theorem sortFIFO_perm {P : Platform} (txs : List Transaction) :
    (BotService.sortFIFO P txs).Perm txs :=
  P.sort_perm _ txs

/-! ## The kinds of a transaction -/

theorem isSale_iff {t : Transaction} : BotService.isSale t = true ↔
    t.posted = true ∧ ∃ r, t.debitAccount = some r ∧ r.type = .outgoing := by
  simp [BotService.isSale, Option.any_eq_true]

theorem isPurchase_iff {t : Transaction} : BotService.isPurchase t = true ↔
    t.posted = true ∧ ∃ r, t.creditAccount = some r ∧ r.type = .incoming := by
  simp [BotService.isPurchase, Option.any_eq_true]

theorem isCreditNote_iff {t : Transaction} : BotService.isCreditNote t = true ↔
    t.posted = true ∧ (∃ r, t.debitAccount = some r ∧ r.type = .incoming) ∧
      ∃ number, t.creditNote = some number := by
  simp [BotService.isCreditNote, Option.any_eq_true, Option.isSome_iff_exists, and_assoc]

/-- A sale is no credit note. -/
theorem not_creditNote_of_sale {t : Transaction} (h : BotService.isSale t) :
    ¬BotService.isCreditNote t := by
  intro hn
  obtain ⟨-, r, hr, hrt⟩ := isSale_iff.1 h
  obtain ⟨-, ⟨q, hq, hqt⟩, -⟩ := isCreditNote_iff.1 hn
  obtain rfl : r = q := Option.some.inj (hr.symm.trans hq)
  rw [hrt] at hqt
  cases hqt

/-! ## What updates keep -/

/-- What no update of the menu changes about a transaction. -/
structure SameIdentity (t t' : Transaction) : Prop where
  id : t'.id = t.id
  creditAccount : t'.creditAccount = t.creditAccount
  debitAccount : t'.debitAccount = t.debitAccount
  posted : t'.posted = t.posted
  date : t'.date = t.date
  parentId : t'.parentId = t.parentId
  originalQuantity : t'.originalQuantity = t.originalQuantity
  goodPurchaseCost : t'.goodPurchaseCost = t.goodPurchaseCost
  purchaseCode : t'.purchaseCode = t.purchaseCode
  agentId : t'.agentId = t.agentId

theorem SameIdentity.refl (t : Transaction) : SameIdentity t t :=
  ⟨rfl, rfl, rfl, rfl, rfl, rfl, rfl, rfl, rfl, rfl⟩

theorem SameIdentity.trans {t t' t'' : Transaction} (h : SameIdentity t t')
    (h' : SameIdentity t' t'') : SameIdentity t t'' :=
  ⟨h'.id.trans h.id, h'.creditAccount.trans h.creditAccount,
    h'.debitAccount.trans h.debitAccount, h'.posted.trans h.posted, h'.date.trans h.date,
    h'.parentId.trans h.parentId, h'.originalQuantity.trans h.originalQuantity,
    h'.goodPurchaseCost.trans h.goodPurchaseCost, h'.purchaseCode.trans h.purchaseCode,
    h'.agentId.trans h.agentId⟩

theorem SameIdentity.moves {t t' : Transaction} (h : SameIdentity t t') (account : String) :
    t'.moves account = t.moves account := by
  rw [Transaction.moves, Transaction.moves, h.creditAccount, h.debitAccount]

theorem SameIdentity.isPurchase {t t' : Transaction} (h : SameIdentity t t') :
    BotService.isPurchase t' = BotService.isPurchase t := by
  rw [BotService.isPurchase, BotService.isPurchase, h.creditAccount, h.posted]

theorem SameIdentity.isSale {t t' : Transaction} (h : SameIdentity t t') :
    BotService.isSale t' = BotService.isSale t := by
  rw [BotService.isSale, BotService.isSale, h.debitAccount, h.posted]

/-! ## `helper` -/

namespace helper

/-- `getAccountQuery` (lines 10–21). -/
def getAccountQuery (goodAccountName : String) (beforeDate afterDate : Option Date) : Query :=
  .account goodAccountName afterDate beforeDate

/-- `getTimeRange` (lines 42–44), in milliseconds. -/
def getTimeRange (months : ℤ) : ℤ := months * 30 * 24 * 60 * 60 * 1000

end helper

/-! ## `GoodAccount` -/

namespace GoodAccount

/-- `getCOGSCalculationDate` (lines 42–44). -/
def getCOGSCalculationDate (account : Account) : Option String :=
  account.properties.get cogsCalcDateProp

/-- `getCOGSCalculationDateValue` (lines 38–40); the inner `none` is `NaN`. -/
def getCOGSCalculationDateValue (P : Platform) (account : Account) : Option (Option Date) :=
  if truthy (getCOGSCalculationDate account) then
    (getCOGSCalculationDate account).map P.dateNumber
  else none

/-- `setCOGSCalculationDate` (lines 46–49). -/
def setCOGSCalculationDate (account : Account) (date : String) : Account :=
  { account with properties := account.properties.set cogsCalcDateProp date }

/-- `needsRebuild` (lines 56–58). -/
def needsRebuild (account : Account) : Bool :=
  account.properties.get needsRebuildProp == some "TRUE"

/-- `clearNeedsRebuild` (lines 64–66). -/
def clearNeedsRebuild (account : Account) : Account :=
  { account with properties := account.properties.erase needsRebuildProp }

end GoodAccount

/-! ## `Summary` -/

/-- What a `Summary` reports. -/
inductive Summary where
  | nothingToCalculate
  | rebuild
  | resetingAsync
  | calculatingAsync
  | lockError
  | salequantityError
  | creditNoteQuantityError (creditNote : String)
  | financialBookNotFound (goodAccountName : String)
  deriving DecidableEq

namespace Summary

/-- `getResult` (lines 15–17): the text shown for the account. -/
def getResult : Summary → String
  | nothingToCalculate => "Nothing to calculate"
  | rebuild => "Account needs rebuild: reseting..."
  | resetingAsync => "Reseted"
  | calculatingAsync => "Calculated"
  | lockError => "Cannot proceed: collection has locked/closed book(s)"
  | salequantityError => "Cannot proceed: sales quantity is greater than quantity purchased"
  | creditNoteQuantityError creditNote =>
    "Cannot proceed: credit note quantity is greater than purchased quantity. Credit note: " ++
      creditNote
  | financialBookNotFound goodAccountName =>
    "Cannot proceed: financial book not found for good account " ++ goodAccountName

end Summary

end InventoryBot.Menu
