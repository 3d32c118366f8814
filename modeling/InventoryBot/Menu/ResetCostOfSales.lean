import InventoryBot.Menu.BotService

/-!
# Resetting the cost of sales of an account

Models of `menu/server/src/ResetCostOfSalesProcessor.ts` and `ResetCostOfSalesService.ts`.

The processor keeps the objects it is given; here it keeps their value at the moment they
are queued. No queued transaction is changed afterwards, except that a credit-note split is
queued for trashing before it is queued for updating, and trashing only uses the id.
-/

namespace InventoryBot.Menu

open Lib

/-- What the outside decides for one run: the current day and time, and the ids that
    `Utilities.getUuid` and the two batch creations hand out. -/
structure RunEnv where
  today : Date
  now : ℕ
  /-- the `k`-th result of `Utilities.getUuid()` in the run -/
  uuid : ℕ → String
  /-- the id of the `k`-th transaction created in the inventory book -/
  inventoryId : ℕ → String
  /-- the id of the `k`-th transaction created in the financial book -/
  financialId : ℕ → String
  /-- the id of the cost of goods sold account, should it have to be created -/
  cogsAccountId : String

/-- How a call ends. -/
inductive Outcome where
  | returned (summary : Summary)
  | threw (exception : Exception)
  deriving DecidableEq

/-! ## `ResetCostOfSalesProcessor` -/

/-- The state of a `ResetCostOfSalesProcessor`. -/
structure ResetCostOfSalesProcessor where
  financialBookTransactionsToTrashMap : OrderedMap String Transaction := ∅
  inventoryBookTransactionsToUpdateMap : OrderedMap String Transaction := ∅
  inventoryBookTransactionsToTrashMap : OrderedMap String Transaction := ∅
  isAnyTransactionLocked : Bool := false

namespace ResetCostOfSalesProcessor

/-- `setFinancialBookTransactionToTrash` (lines 19–22). -/
def setFinancialBookTransactionToTrash (processor : ResetCostOfSalesProcessor)
    (transaction : Transaction) : ResetCostOfSalesProcessor :=
  { processor with
    isAnyTransactionLocked := processor.isAnyTransactionLocked || transaction.locked
    financialBookTransactionsToTrashMap :=
      processor.financialBookTransactionsToTrashMap.set transaction.id transaction }

/-- `setInventoryBookTransactionToUpdate` (lines 24–27). -/
def setInventoryBookTransactionToUpdate (processor : ResetCostOfSalesProcessor)
    (transaction : Transaction) : ResetCostOfSalesProcessor :=
  { processor with
    isAnyTransactionLocked := processor.isAnyTransactionLocked || transaction.locked
    inventoryBookTransactionsToUpdateMap :=
      processor.inventoryBookTransactionsToUpdateMap.set transaction.id transaction }

/-- `setInventoryBookTransactionToTrash` (lines 29–32). -/
def setInventoryBookTransactionToTrash (processor : ResetCostOfSalesProcessor)
    (transaction : Transaction) : ResetCostOfSalesProcessor :=
  { processor with
    isAnyTransactionLocked := processor.isAnyTransactionLocked || transaction.locked
    inventoryBookTransactionsToTrashMap :=
      processor.inventoryBookTransactionsToTrashMap.set transaction.id transaction }

/-- `hasLockedTransaction` (lines 40–42). -/
def hasLockedTransaction (processor : ResetCostOfSalesProcessor) : Bool :=
  processor.isAnyTransactionLocked

/-- `fireBatchTrashFinancialBookTransactions` (lines 51–56). -/
def fireBatchTrashFinancialBookTransactions (processor : ResetCostOfSalesProcessor)
    (s : State) : State :=
  { s with
    financialBook := s.financialBook.batchTrashTransactions
      processor.financialBookTransactionsToTrashMap.values }

/-- `fireBatchUpdateInventoryBookTransactions` (lines 59–64). -/
def fireBatchUpdateInventoryBookTransactions (processor : ResetCostOfSalesProcessor)
    (s : State) : State :=
  { s with
    inventoryBook := s.inventoryBook.batchUpdateTransactions
      processor.inventoryBookTransactionsToUpdateMap.values }

/-- `fireBatchTrashInventoryBookTransactions` (lines 67–72). -/
def fireBatchTrashInventoryBookTransactions (processor : ResetCostOfSalesProcessor)
    (s : State) : State :=
  { s with
    inventoryBook := s.inventoryBook.batchTrashTransactions
      processor.inventoryBookTransactionsToTrashMap.values }

/-- The first `calls` batch calls of `fireBatchOperations` (lines 44–48). -/
def fireBatchOperations (processor : ResetCostOfSalesProcessor) : ℕ → State → State
  | 0, s => s
  | 1, s => processor.fireBatchTrashFinancialBookTransactions s
  | 2, s => processor.fireBatchUpdateInventoryBookTransactions
      (processor.fireBatchTrashFinancialBookTransactions s)
  | _ + 3, s => processor.fireBatchTrashInventoryBookTransactions
      (processor.fireBatchUpdateInventoryBookTransactions
        (processor.fireBatchTrashFinancialBookTransactions s))

end ResetCostOfSalesProcessor

/-! ## `resetCostOfSalesForAccount` -/

namespace CostOfSalesService

/-- The reset of a sale (lines 38–53 of `ResetCostOfSalesService.ts`): its first cost of sales
    transaction is queued for trashing, the sale without its logs for updating. -/
def resetSale (financialBook : Book) (tx : Transaction) (processor : ResetCostOfSalesProcessor) :
    ResetCostOfSalesProcessor :=
  let processor := match (financialBook.getTransactions (.remoteId tx.id)).head? with
    | some cogsTransaction =>
      processor.setFinancialBookTransactionToTrash { cogsTransaction with checked := false }
    | none => processor
  processor.setInventoryBookTransactionToUpdate { tx with purchaseLog := none, totalCost := none }

/-- The reset of a purchase (lines 60–75): quantity and cost as posted, and no logs. -/
def resetPurchase (P : Platform) (tx : Transaction) : Except Exception Transaction := do
  let goodPurchaseCost ← P.newAmount tx.goodPurchaseCost
  let originalQuantity ← P.newAmount tx.originalQuantity
  pure { tx with
    amount := originalQuantity
    totalCost := some goodPurchaseCost
    liquidationLog := none
    additionalCosts := none
    creditNote := none }

/-- The body of the loop over the transactions of the account (lines 33–82). -/
def resetTransaction (P : Platform) (financialBook : Book) (processor : ResetCostOfSalesProcessor)
    (tx : Transaction) : Except Exception ResetCostOfSalesProcessor := do
  let tx := { tx with checked := false }
  if tx.agentId = some "inventory-bot" then
    if tx.purchaseLog.isSome then
      pure (resetSale financialBook tx processor)
    else
      let processor := if truthy tx.parentId then
          processor.setInventoryBookTransactionToTrash tx
        else processor
      if tx.originalQuantity.isSome then
        let tx ← resetPurchase P tx
        let processor := processor.setInventoryBookTransactionToUpdate tx
        pure (if truthy tx.creditNote then processor.setInventoryBookTransactionToUpdate tx
          else processor)
      else
        pure (if truthy tx.creditNote then processor.setInventoryBookTransactionToUpdate tx
          else processor)
  else pure processor

/-- The account of the book and the book that its exchange code resolves to; without a good
    account the call throws. -/
def openAccount (collection : Option (List BookInfo)) (s : State) (goodAccountId : String) :
    Except Exception (Account × Option Book) :=
  match s.inventoryBook.getAccount goodAccountId with
  | none => .error .typeError
  | some goodAccount =>
    let goodExcCode := BotService.getExchangeCode goodAccount
    .ok (goodAccount, (BotService.getFinancialBook collection goodExcCode).map fun _ =>
      s.financialBook)

/-- What a reset is about to write. -/
inductive ResetPlan where
  | stop (summary : Summary)
  | fire (goodAccount : Account) (processor : ResetCostOfSalesProcessor)

/-- `resetCostOfSalesForAccount` up to the batch operations (lines 3–87). -/
def planReset (P : Platform) (collection : Option (List BookInfo)) (s : State)
    (goodAccountId : String) : Except Exception ResetPlan := do
  let (goodAccount, financialBook) ← openAccount collection s goodAccountId
  match financialBook with
  | none => pure (.stop .nothingToCalculate)
  | some financialBook =>
    let transactions :=
      s.inventoryBook.getTransactions (helper.getAccountQuery goodAccount.name none none)
    let processor ← transactions.foldlM (resetTransaction P financialBook) {}
    if processor.hasLockedTransaction then pure (.stop .lockError)
    else pure (.fire goodAccount processor)

/-- The account without its rebuild flag and calculation date (lines 92–94). -/
def clearAccount (goodAccount : Account) : Account :=
  GoodAccount.setCOGSCalculationDate (GoodAccount.clearNeedsRebuild goodAccount) ""

/-- `resetCostOfSalesForAccount` (`ResetCostOfSalesService.ts`, lines 3–97). -/
def resetCostOfSalesForAccount (P : Platform) (collection : Option (List BookInfo)) (s : State)
    (goodAccountId : String) : State × Outcome :=
  match planReset P collection s goodAccountId with
  | .error e => (s, .threw e)
  | .ok (.stop summary) => (s, .returned summary)
  | .ok (.fire goodAccount processor) =>
    let s := processor.fireBatchOperations 3 s
    ({ s with inventoryBook := s.inventoryBook.updateAccount (clearAccount goodAccount) },
      .returned .resetingAsync)

/-- A reset that is stopped after its first `calls` batch calls. -/
def interruptedReset (P : Platform) (collection : Option (List BookInfo)) (calls : ℕ) (s : State)
    (goodAccountId : String) : State :=
  match planReset P collection s goodAccountId with
  | .ok (.fire _ processor) => processor.fireBatchOperations calls s
  | _ => s

end CostOfSalesService

end InventoryBot.Menu
