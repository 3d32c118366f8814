import InventoryBot.Menu.BotService
import Mathlib.Data.List.Infix

/-!
# The webhook's `BotService`

Models of `events/src/BotService.ts`, `constants.ts` and of what an event carries. The tests
`isSale` and `isPurchase`, `getBookExcCode` and `getExchangeCodeFromAccount` are those of the
menu (`Menu.BotService`) line by line and are shared with it.

* `BotService.flagInventoryAccountForRebuildIfNeeded`: the flag on a good account whose sales
  are calculated up to a date.
-/

namespace InventoryBot.Events

open Lib Menu

/-! ## Events -/

/-- `event.type`, as far as `index.ts` dispatches on it. -/
inductive EventType where
  | posted
  | checked
  | unchecked
  | deleted
  deriving DecidableEq

/-- The transaction of an event (`bkper.Transaction`) with its two accounts in full
    (`bkper.Account`); a missing property of an account has its default. -/
structure Payload where
  transaction : Transaction
  creditAccount : Option Account
  debitAccount : Option Account

/-- An event of a book of the collection (`bkper.Event`). -/
structure Event where
  type : EventType
  book : BookInfo
  agentId : Option String := none
  /-- `event.data.object.transaction` -/
  transaction : Option Payload

/-- What the outside decides for one event: the current time, the id of the transaction that it
    posts, and the ids of the accounts that it creates. -/
structure EventEnv where
  now : ℕ
  transactionId : String
  goodAccountId : String
  otherAccountId : String

/-! ## `constants.ts` -/

/-- `GOOD_SELL_ACCOUNT_NAME`. -/
def goodSellAccountName : String := "Sell"

/-- `GOOD_BUY_ACCOUNT_NAME`. -/
def goodBuyAccountName : String := "Buy"

/-- `COGS_HASHTAG`. -/
def cogsHashtag : String := "#cost_of_sale"

/-- `String.prototype.includes`. -/
def includes (text part : String) : Bool := decide (part.toList <:+: text.toList)

/-! ## `BotService` -/

namespace BotService

/-- `isInventoryBook` (lines 12–17). -/
def isInventoryBook (book : BookInfo) : Bool := truthy book.inventoryBook

/-- `getQuantity` (lines 20–26). -/
def getQuantity (P : Platform) (transaction : Transaction) : Except Exception (Option ℚ) :=
  match transaction.quantity with
  | none => .ok none
  | some quantityStr =>
    if jsTrim quantityStr = "" then .ok none
    else match P.parseAmount quantityStr with
      | some quantity => .ok (some quantity)
      | none => .error .invalidAmount

/-- `getInventoryBook` (lines 29–40), on the books of the collection. -/
def getInventoryBook (collection : Option (List BookInfo)) : Option BookInfo :=
  collection.bind fun connectedBooks => connectedBooks.find? isInventoryBook

/-- `getFinancialBook` (lines 43–55). -/
def getFinancialBook (collection : Option (List BookInfo)) (excCode : Option String) :
    Option BookInfo :=
  collection.bind fun connectedBooks =>
    connectedBooks.find? fun connectedBook => excCode == Menu.BotService.getExcCode connectedBook

/-- `getGoodAccount` (lines 96–104). -/
def getGoodAccount (inventoryBook : Book) (goodTransaction : Transaction) : Option Account :=
  if Menu.BotService.isSale goodTransaction then
    goodTransaction.creditAccount.bind fun account => inventoryBook.getAccount account.id
  else if Menu.BotService.isPurchase goodTransaction then
    goodTransaction.debitAccount.bind fun account => inventoryBook.getAccount account.id
  else none

/-- `uncheckAndTrash` (lines 118–124). -/
def uncheckAndTrash (book : Book) (transaction : Transaction) : Book :=
  book.batchTrashTransactions [transaction]

/-- `getCOGSCalculationDateValue` (lines 126–132); the inner `none` is `NaN`. -/
def getCOGSCalculationDateValue (P : Platform) (account : Account) : Option (Option Date) :=
  match account.properties.get cogsCalcDateProp with
  | some cogsCalcDate => if cogsCalcDate = "" then none else some (P.dateNumber cogsCalcDate)
  | none => none

/-- `account.setProperty(NEEDS_REBUILD_PROP, 'TRUE')`. -/
def setNeedsRebuild (account : Account) : Account :=
  { account with properties := account.properties.set needsRebuildProp "TRUE" }

/-- A date is on or before the calculation date of an account (lines 137–138). -/
def calculated (P : Platform) (account : Account) (date : Date) : Bool :=
  match getCOGSCalculationDateValue P account with
  | some (some lastTxDate) => date ≤ lastTxDate
  | _ => false

/-- `flagInventoryAccountForRebuildIfNeeded` (lines 134–145). -/
def flagInventoryAccountForRebuildIfNeeded (P : Platform) (inventoryBook : Book)
    (inventoryTransaction : Transaction) : Book :=
  match getGoodAccount inventoryBook inventoryTransaction with
  | some inventoryAccount =>
    if calculated P inventoryAccount inventoryTransaction.date then
      inventoryBook.updateAccount (setNeedsRebuild inventoryAccount)
    else inventoryBook
  | none => inventoryBook

/-- `flagInventoryAccountForRebuild` (lines 147–155). -/
def flagInventoryAccountForRebuild (inventoryBook : Book) (inventoryTransaction : Transaction) :
    Book :=
  match getGoodAccount inventoryBook inventoryTransaction with
  | some inventoryAccount => inventoryBook.updateAccount (setNeedsRebuild inventoryAccount)
  | none => inventoryBook

/-- `getAccountQuery` (lines 164–175). -/
def getAccountQuery (goodAccountName : String) (beforeDate afterDate : Option Date) : Query :=
  .account goodAccountName afterDate beforeDate

end BotService

end InventoryBot.Events
