import InventoryBot.Menu.ResetCostOfSales

/-!
# Calculating the cost of sales of an account

Models of `menu/server/src/CalculateCostOfSalesProcessor.ts` and
`CalculateCostOfSalesService.ts`.

The service works on objects that several collections share. A purchase that a loop changes
is here the entry of the list, or of the map, that the loop hands on, and the processor keeps
the value an object has when it is queued: every change of a queued object is followed by
queueing it again, so this is the value it has when the batches are fired.
-/

namespace InventoryBot.Menu

open Lib

/-! ## `CalculateCostOfSalesProcessor` -/

/-- The state of a `CalculateCostOfSalesProcessor`; `generatedIds` counts the calls of
    `generateId`. -/
structure CalculateCostOfSalesProcessor where
  inventoryBookTransactionsToCreateMap : OrderedMap String Transaction := ∅
  inventoryBookTransactionsToUpdateMap : OrderedMap String Transaction := ∅
  financialBookTransactionsToCreateMap : OrderedMap String Transaction := ∅
  isAnyTransactionLocked : Bool := false
  generatedIds : ℕ := 0

namespace CalculateCostOfSalesProcessor

/-- `getRemoteId` (lines 17–20). -/
def getRemoteId (transaction : Transaction) : String := transaction.remoteIds.headD ""

/-- `generateId` (lines 22–24). -/
def generateId (env : RunEnv) (processor : CalculateCostOfSalesProcessor) :
    String × CalculateCostOfSalesProcessor :=
  (env.uuid processor.generatedIds, { processor with generatedIds := processor.generatedIds + 1 })

/-- `hasLockedTransaction` (lines 32–34). -/
def hasLockedTransaction (processor : CalculateCostOfSalesProcessor) : Bool :=
  processor.isAnyTransactionLocked

/-- `setInventoryBookTransactionToCreate` (lines 36–40). -/
def setInventoryBookTransactionToCreate (processor : CalculateCostOfSalesProcessor)
    (transaction : Transaction) : CalculateCostOfSalesProcessor :=
  { processor with
    isAnyTransactionLocked := processor.isAnyTransactionLocked || transaction.locked
    inventoryBookTransactionsToCreateMap :=
      processor.inventoryBookTransactionsToCreateMap.set (getRemoteId transaction) transaction }

/-- `setInventoryBookTransactionToUpdate` (lines 42–45). -/
def setInventoryBookTransactionToUpdate (processor : CalculateCostOfSalesProcessor)
    (transaction : Transaction) : CalculateCostOfSalesProcessor :=
  { processor with
    isAnyTransactionLocked := processor.isAnyTransactionLocked || transaction.locked
    inventoryBookTransactionsToUpdateMap :=
      processor.inventoryBookTransactionsToUpdateMap.set transaction.id transaction }

/-- `setFinancialBookTransactionToCreate` (lines 47–51). -/
def setFinancialBookTransactionToCreate (processor : CalculateCostOfSalesProcessor)
    (transaction : Transaction) : CalculateCostOfSalesProcessor :=
  { processor with
    isAnyTransactionLocked := processor.isAnyTransactionLocked || transaction.locked
    financialBookTransactionsToCreateMap :=
      processor.financialBookTransactionsToCreateMap.set (getRemoteId transaction) transaction }

/-- `fireBatchCreateInventoryBookTransactions` (lines 60–66). -/
def fireBatchCreateInventoryBookTransactions (env : RunEnv)
    (processor : CalculateCostOfSalesProcessor) (s : State) : State :=
  { s with
    inventoryBook := s.inventoryBook.batchCreateTransactions env.inventoryId env.now
      processor.inventoryBookTransactionsToCreateMap.values }

/-- `fireBatchUpdateInventoryBookTransactions` (lines 69–74). -/
def fireBatchUpdateInventoryBookTransactions (processor : CalculateCostOfSalesProcessor)
    (s : State) : State :=
  { s with
    inventoryBook := s.inventoryBook.batchUpdateTransactions
      processor.inventoryBookTransactionsToUpdateMap.values }

/-- `fireBatchCreateFinancialBookTransactions` (lines 77–83). -/
def fireBatchCreateFinancialBookTransactions (env : RunEnv)
    (processor : CalculateCostOfSalesProcessor) (s : State) : State :=
  { s with
    financialBook := s.financialBook.batchCreateTransactions env.financialId env.now
      processor.financialBookTransactionsToCreateMap.values }

/-- The first `calls` batch calls of `fireBatchOperations` (lines 53–57). -/
def fireBatchOperations (env : RunEnv) (processor : CalculateCostOfSalesProcessor) :
    ℕ → State → State
  | 0, s => s
  | 1, s => processor.fireBatchCreateInventoryBookTransactions env s
  | 2, s => processor.fireBatchUpdateInventoryBookTransactions
      (processor.fireBatchCreateInventoryBookTransactions env s)
  | _ + 3, s => processor.fireBatchCreateFinancialBookTransactions env
      (processor.fireBatchUpdateInventoryBookTransactions
        (processor.fireBatchCreateInventoryBookTransactions env s))

end CalculateCostOfSalesProcessor

namespace CostOfSalesService

/-! ## Additional costs and credit notes -/

/-- The running totals of `getAdditionalCostsAndCreditNotes`. -/
structure LinkedAmounts where
  additionalCosts : ℚ := 0
  creditNotesAmount : ℚ := 0
  deriving DecidableEq

/-- The test for an additional cost (lines 359–363). -/
def isAdditionalCost (financialAccountId : String) (purchaseCode : Option String)
    (tx : Transaction) : Bool :=
  tx.checked && tx.debitAccount.any (·.id == financialAccountId) &&
    tx.purchaseCode == purchaseCode &&
    (tx.purchaseInvoice.isSome && tx.purchaseInvoice != purchaseCode)

/-- The test for a credit note (lines 371–374). -/
def isLinkedCreditNote (financialAccountId : String) (purchaseCode : Option String)
    (tx : Transaction) : Bool :=
  tx.checked && tx.creditNote.isSome && tx.purchaseCode == purchaseCode &&
    tx.creditAccount.any (·.id == financialAccountId)

/-- The body of the loop over the transactions of the window (lines 351–377). -/
def addLinkedAmount (financialAccountId : String) (purchaseCode : Option String)
    (totals : LinkedAmounts) (tx : Transaction) : LinkedAmounts :=
  if isAdditionalCost financialAccountId purchaseCode tx then
    { totals with additionalCosts := totals.additionalCosts + tx.amount }
  else if isLinkedCreditNote financialAccountId purchaseCode tx then
    { totals with creditNotesAmount := totals.creditNotesAmount + tx.amount }
  else totals

/-- The query of the window around a purchase (lines 325–339). -/
def linkedTransactionsQuery (P : Platform) (inventoryAccountName : String) (date : Date) : Query :=
  let transactionDate := P.instant date
  let timeRange := helper.getTimeRange additionalCostsCreditsQueryRange
  let beforeDate := P.formatDate (transactionDate + timeRange)
  let afterDate := P.formatDate (transactionDate - timeRange)
  helper.getAccountQuery inventoryAccountName (some beforeDate) (some afterDate)

/-- `getAdditionalCostsAndCreditNotes` (lines 324–384). -/
def getAdditionalCostsAndCreditNotes (P : Platform) (financialBook : Book)
    (inventoryTransaction : Transaction) : Except Exception LinkedAmounts :=
  match inventoryTransaction.debitAccount with
  | none => .error .typeError
  | some inventoryAccount =>
    let query := linkedTransactionsQuery P inventoryAccount.name inventoryTransaction.date
    match financialBook.getAccount inventoryAccount.name with
    | none => .error .typeError
    | some financialAccount =>
      .ok ((financialBook.getTransactions query).foldl
        (addLinkedAmount financialAccount.id inventoryTransaction.purchaseCode) {})

/-! ## Processing a sale -/

/-- `getLiquidationLog` (lines 386–394). -/
def getLiquidationLog (transaction : Transaction) (costOfSalePerUnit : ℚ) : LiquidationLogEntry :=
  { id := transaction.id, dt := transaction.date, qt := transaction.amount,
    uc := costOfSalePerUnit, rt := "" }

/-- `getPurchaseLog` (lines 396–403). -/
def getPurchaseLog (quantity costOfSalePerUnit : ℚ) (transaction : Transaction) :
    PurchaseLogEntry :=
  { id := transaction.id, qt := quantity, uc := costOfSalePerUnit, rt := "" }

/-- The local state of the loop of `processSale`. -/
structure SaleLoop where
  soldQuantity : ℚ
  saleCost : ℚ := 0
  purchaseLogEntries : List PurchaseLogEntry := []
  processor : CalculateCostOfSalesProcessor

/-- The costs to fold into a purchase (lines 170–176): those linked to it, unless it has been
    processed before. -/
def unfoldedAmounts (P : Platform) (financialBook : Book) (purchaseTransaction : Transaction) :
    Except Exception LinkedAmounts :=
  if purchaseTransaction.creditNote = none ∧ purchaseTransaction.additionalCosts = none then
    getAdditionalCostsAndCreditNotes P financialBook purchaseTransaction
  else .ok {}

/-- The properties that record what has been folded into a purchase (lines 193–194, 218–219). -/
def markProcessed (P : Platform) (creditNotesQuantity : ℚ) (amounts : LinkedAmounts)
    (purchaseTransaction : Transaction) : Transaction :=
  { purchaseTransaction with
    additionalCosts := some amounts.additionalCosts
    creditNote := some (P.creditNoteJson creditNotesQuantity
      (P.toNumber amounts.creditNotesAmount)) }

/-- The purchase after its full liquidation (lines 189–196). -/
def liquidatePurchase (updatedCost : ℚ) (liquidationLog : LiquidationLogEntry)
    (purchaseTransaction : Transaction) : Transaction :=
  { purchaseTransaction with
    totalCost := some updatedCost
    liquidationLog := some liquidationLog
    checked := true }

/-- The purchase after a part of it was split off (lines 214–217). -/
def reducePurchase (remainingQuantity remainingCost : ℚ) (purchaseTransaction : Transaction) :
    Transaction :=
  { purchaseTransaction with amount := remainingQuantity, totalCost := some remainingCost }

/-- The split of a purchase for a sale (lines 231–244). -/
def splitPurchase (partialBuyQuantity splittedCost : ℚ) (liquidationLog : LiquidationLogEntry)
    (purchaseCode remoteId : String) (purchaseTransaction : Transaction) : Transaction :=
  { id := ""
    posted := false
    checked := true
    date := purchaseTransaction.date
    amount := partialBuyQuantity
    creditAccount := purchaseTransaction.creditAccount
    debitAccount := purchaseTransaction.debitAccount
    description := purchaseTransaction.description
    excCode := purchaseTransaction.excCode
    parentId := some purchaseTransaction.id
    purchaseCode := some purchaseCode
    totalCost := some splittedCost
    liquidationLog := some liquidationLog
    order := purchaseTransaction.order
    remoteIds := [remoteId] }

/-- The body of the loop over the purchases for an unchecked purchase (lines 158–256). -/
def processPurchase (P : Platform) (env : RunEnv) (financialBook : Book)
    (saleTransaction purchaseTransaction : Transaction) (st : SaleLoop) :
    Except Exception (Transaction × SaleLoop) := do
  let originalQuantity ← P.newAmount purchaseTransaction.originalQuantity
  let transactionQuantity := purchaseTransaction.amount
  let transactionCost ← P.newAmount purchaseTransaction.totalCost
  let creditNotesQuantity := P.toNumber (originalQuantity - transactionQuantity)
  let amounts ← unfoldedAmounts P financialBook purchaseTransaction
  let updatedCost := transactionCost + amounts.additionalCosts - amounts.creditNotesAmount
  let costOfSalePerUnit ← P.amountDiv updatedCost transactionQuantity
  let liquidationLog := getLiquidationLog saleTransaction costOfSalePerUnit
  if transactionQuantity ≤ st.soldQuantity then
    let purchaseTransaction := markProcessed P creditNotesQuantity amounts
      (liquidatePurchase updatedCost liquidationLog purchaseTransaction)
    pure (purchaseTransaction,
      { soldQuantity := st.soldQuantity - transactionQuantity
        saleCost := st.saleCost + updatedCost
        purchaseLogEntries := st.purchaseLogEntries ++
          [getPurchaseLog transactionQuantity costOfSalePerUnit purchaseTransaction]
        processor := st.processor.setInventoryBookTransactionToUpdate purchaseTransaction })
  else
    let remainingQuantity := transactionQuantity - st.soldQuantity
    let partialBuyQuantity := transactionQuantity - remainingQuantity
    let splittedCost := partialBuyQuantity * costOfSalePerUnit
    let remainingCost := updatedCost - splittedCost
    let purchaseTransaction := markProcessed P creditNotesQuantity amounts
      (reducePurchase remainingQuantity remainingCost purchaseTransaction)
    let processor := st.processor.setInventoryBookTransactionToUpdate purchaseTransaction
    match purchaseTransaction.purchaseCode with
    | none => throw .typeError
    | some purchaseCode =>
      let (remoteId, processor) := processor.generateId env
      let splittedPurchaseTransaction :=
        splitPurchase partialBuyQuantity splittedCost liquidationLog purchaseCode remoteId
          purchaseTransaction
      pure (purchaseTransaction,
        { soldQuantity := st.soldQuantity - partialBuyQuantity
          saleCost := st.saleCost + splittedCost
          purchaseLogEntries := st.purchaseLogEntries ++
            [getPurchaseLog partialBuyQuantity costOfSalePerUnit purchaseTransaction]
          processor :=
            processor.setInventoryBookTransactionToCreate splittedPurchaseTransaction })

/-- The loop over the purchases (lines 153–261). It skips checked purchases and stops when
    nothing is left to be sold. -/
def processPurchases (P : Platform) (env : RunEnv) (financialBook : Book)
    (saleTransaction : Transaction) :
    List Transaction → SaleLoop → Except Exception (List Transaction × SaleLoop)
  | [], st => pure ([], st)
  | purchaseTransaction :: rest, st =>
    if purchaseTransaction.checked then do
      let (rest, st) ← processPurchases P env financialBook saleTransaction rest st
      pure (purchaseTransaction :: rest, st)
    else do
      let (purchaseTransaction, st) ←
        processPurchase P env financialBook saleTransaction purchaseTransaction st
      if st.soldQuantity = 0 then pure (purchaseTransaction :: rest, st)
      else do
        let (rest, st) ← processPurchases P env financialBook saleTransaction rest st
        pure (purchaseTransaction :: rest, st)

/-- The account that `addCostOfSales` creates where it finds none (lines 286–289). -/
def newCostOfSalesAccount (env : RunEnv) : Account :=
  { id := env.cogsAccountId, name := cogsAccount, type := .outgoing }

/-- The financial book after `addCostOfSales` has looked for its account (lines 284–290). -/
def createCostOfSalesAccount (env : RunEnv) (financialBook : Book) : Book :=
  { financialBook with
    accounts := match financialBook.getAccount cogsAccount with
      | some _ => financialBook.accounts
      | none => financialBook.accounts ++ [newCostOfSalesAccount env] }

/-- The cost of sales transaction of a sale (lines 284–307). -/
def costOfSaleTransaction (P : Platform) (env : RunEnv) (financialBook : Book)
    (saleTransaction : Transaction) (saleCost : ℚ) : Transaction :=
  let costOfSalesAccount := match financialBook.getAccount cogsAccount with
    | some account => account.ref
    | none => (newCostOfSalesAccount env).ref
  let financialGoodAccount := saleTransaction.creditAccount.bind fun account =>
    (financialBook.getAccount account.name).map Account.ref
  { id := ""
    posted := false
    checked := true
    date := saleTransaction.date
    amount := saleCost
    description := "#COGS " ++ saleTransaction.description
    creditAccount := financialGoodAccount
    debitAccount := some costOfSalesAccount
    quantitySold := some (P.toNumber saleTransaction.amount)
    saleInvoice := some (saleTransaction.saleInvoice.getD "undefined")
    remoteIds := [saleTransaction.id] }

/-- `addCostOfSales` (lines 283–311). -/
def addCostOfSales (P : Platform) (env : RunEnv) (financialBook : Book)
    (saleTransaction : Transaction) (saleCost : ℚ) (processor : CalculateCostOfSalesProcessor) :
    CalculateCostOfSalesProcessor :=
  processor.setFinancialBookTransactionToCreate
    (costOfSaleTransaction P env financialBook saleTransaction saleCost)

/-- The sale after its purchases are known (lines 266–271). -/
def settleSale (saleCost : ℚ) (purchaseLogEntries : List PurchaseLogEntry)
    (saleTransaction : Transaction) : Transaction :=
  if purchaseLogEntries.length > 0 then
    { saleTransaction with
      totalCost := some saleCost
      purchaseLog := some purchaseLogEntries
      checked := true }
  else saleTransaction

/-- `processSale` (lines 142–281): the purchases and the processor after the sale. -/
def processSale (P : Platform) (env : RunEnv) (financialBook inventoryBook : Book)
    (saleTransaction : Transaction) (purchaseTransactions : List Transaction)
    (processor : CalculateCostOfSalesProcessor) :
    Except Exception (List Transaction × CalculateCostOfSalesProcessor) := do
  let (purchaseTransactions, st) ←
    processPurchases P env financialBook saleTransaction purchaseTransactions
      { soldQuantity := saleTransaction.amount, processor := processor }
  if P.round st.soldQuantity inventoryBook.info.fractionDigits = 0 then
    let saleTransaction := settleSale st.saleCost st.purchaseLogEntries saleTransaction
    let processor := st.processor.setInventoryBookTransactionToUpdate saleTransaction
    pure (purchaseTransactions,
      addCostOfSales P env financialBook saleTransaction st.saleCost processor)
  else
    pure (purchaseTransactions,
      addCostOfSales P env financialBook saleTransaction st.saleCost st.processor)

/-- The loop over the sales (lines 112–120); `none` when it met a locked transaction. -/
def processSales (P : Platform) (env : RunEnv) (financialBook inventoryBook : Book) :
    List Transaction → List Transaction → CalculateCostOfSalesProcessor →
      Except Exception (Option (List Transaction × CalculateCostOfSalesProcessor))
  | [], purchaseTransactions, processor => pure (some (purchaseTransactions, processor))
  | saleTransaction :: rest, purchaseTransactions, processor => do
    let (purchaseTransactions, processor) ←
      processSale P env financialBook inventoryBook saleTransaction purchaseTransactions processor
    if processor.hasLockedTransaction then pure none
    else processSales P env financialBook inventoryBook rest purchaseTransactions processor

/-! ## The transactions of the account -/

/-- What the loop over the listed transactions collects (lines 30–55). -/
structure Listing where
  goodAccountSaleTransactions : List Transaction := []
  goodAccountPurchaseTransactionsMap : OrderedMap (Option String) Transaction := ∅
  goodAccountCreditNoteTransactionsMap : OrderedMap (Option String) Transaction := ∅
  totalSalesQuantity : ℚ := 0
  totalPurchasedQuantity : ℚ := 0

/-- `if (BotService.isSale(tx)) ...` (lines 43–46). -/
def Listing.addSale (P : Platform) (l : Listing) (tx : Transaction) : Listing :=
  if BotService.isSale tx then
    { l with
      goodAccountSaleTransactions := l.goodAccountSaleTransactions ++ [tx]
      totalSalesQuantity := P.numberAdd l.totalSalesQuantity (P.toNumber tx.amount) }
  else l

/-- `if (BotService.isPurchase(tx)) ...` (lines 47–50). -/
def Listing.addPurchase (P : Platform) (l : Listing) (tx : Transaction) : Listing :=
  if BotService.isPurchase tx then
    { l with
      goodAccountPurchaseTransactionsMap :=
        l.goodAccountPurchaseTransactionsMap.set tx.purchaseCode tx
      totalPurchasedQuantity := P.numberAdd l.totalPurchasedQuantity (P.toNumber tx.amount) }
  else l

/-- `if (BotService.isCreditNote(tx)) ...` (lines 51–54). -/
def Listing.addCreditNote (P : Platform) (l : Listing) (tx : Transaction) : Listing :=
  if BotService.isCreditNote tx then
    { l with
      goodAccountCreditNoteTransactionsMap :=
        l.goodAccountCreditNoteTransactionsMap.set tx.creditNote tx
      totalPurchasedQuantity := P.numberSub l.totalPurchasedQuantity (P.toNumber tx.amount) }
  else l

/-- The body of the loop over the listed transactions (lines 37–55). -/
def Listing.add (P : Platform) (l : Listing) (tx : Transaction) : Listing :=
  if tx.checked then l
  else ((l.addSale P tx).addPurchase P tx).addCreditNote P tx

/-- The loop over the listed transactions (lines 30–55). -/
def collect (P : Platform) (transactions : List Transaction) : Listing :=
  transactions.foldl (Listing.add P) {}

/-! ## Credit notes -/

/-- The split of a purchase for a credit note (lines 79–90). -/
def splitCreditNote (creditNoteQuantity : ℚ) (purchaseCode creditNote : String)
    (purchaseTransaction : Transaction) : Transaction :=
  { id := ""
    posted := false
    checked := true
    date := purchaseTransaction.date
    amount := creditNoteQuantity
    creditAccount := purchaseTransaction.creditAccount
    debitAccount := purchaseTransaction.debitAccount
    description := purchaseTransaction.description
    parentId := some purchaseTransaction.id
    purchaseCode := some purchaseCode
    creditNote := some creditNote
    remoteIds := [creditNote] }

/-- How the loop over the credit notes ends. -/
inductive CreditNotesResult where
  | stop (creditNote : String)
  | done (purchases : OrderedMap (Option String) Transaction)
      (processor : CalculateCostOfSalesProcessor)

/-- The loop over the credit notes (lines 69–106). -/
def processCreditNotes (P : Platform) :
    List (Option String × Transaction) → OrderedMap (Option String) Transaction →
      CalculateCostOfSalesProcessor → Except Exception CreditNotesResult
  | [], purchases, processor => pure (.done purchases processor)
  | (creditNote, creditNoteTx) :: rest, purchases, processor =>
    match purchases.get creditNoteTx.purchaseCode with
    | none => processCreditNotes P rest purchases processor
    | some purchaseTransaction =>
      let creditNoteQuantity := P.toNumber creditNoteTx.amount
      let remainingQuantity := purchaseTransaction.amount - creditNoteQuantity
      if P.toNumber remainingQuantity ≤ 0 then
        pure (.stop (creditNoteTx.creditNote.getD "undefined"))
      else
        match creditNoteTx.purchaseCode with
        | none => throw .typeError
        | some purchaseCode =>
          let splittedPurchaseTransaction := splitCreditNote creditNoteQuantity purchaseCode
            (creditNote.getD "undefined") purchaseTransaction
          let processor :=
            processor.setInventoryBookTransactionToCreate splittedPurchaseTransaction
          let purchaseTransaction := { purchaseTransaction with amount := remainingQuantity }
          let processor := processor.setInventoryBookTransactionToUpdate purchaseTransaction
          let purchases := purchases.set (some purchaseCode) purchaseTransaction
          let processor :=
            processor.setInventoryBookTransactionToUpdate { creditNoteTx with checked := true }
          processCreditNotes P rest purchases processor

/-! ## `calculateCostOfSalesForAccount` -/

/-- What a calculation is about to do. -/
inductive CalculationPlan where
  | stop (summary : Summary)
  | reset
  | fire (goodAccount : Account) (sales : List Transaction)
      (processor : CalculateCostOfSalesProcessor)

/-- The credit notes and the sales of a listing that passed the quantity guard (lines 65–120). -/
def planListing (P : Platform) (env : RunEnv) (financialBook inventoryBook : Book)
    (goodAccount : Account) (l : Listing) : Except Exception CalculationPlan := do
  match ← processCreditNotes P l.goodAccountCreditNoteTransactionsMap.entries
      l.goodAccountPurchaseTransactionsMap {} with
  | .stop creditNote => pure (.stop (.creditNoteQuantityError creditNote))
  | .done purchases processor =>
    let sales := BotService.sortFIFO P l.goodAccountSaleTransactions
    let purchaseTransactions := BotService.sortFIFO P purchases.values
    match ← processSales P env financialBook inventoryBook sales purchaseTransactions processor with
    | none => pure (.stop .lockError)
    | some (_, processor) => pure (.fire goodAccount sales processor)

/-- The transactions a calculation up to `toDate` iterates over (lines 27–28). -/
def listTransactions (inventoryBook : Book) (goodAccount : Account) (toDate : Date) :
    List Transaction :=
  inventoryBook.getTransactions (helper.getAccountQuery goodAccount.name
    (some (BotService.getBeforeDateIsoString toDate)) none)

/-- `calculateCostOfSalesForAccount` up to the batch operations (lines 3–120). The first sale
    creates the account of the cost of goods sold where it is missing. The run reads the financial
    book with that account from the start here, which only a good account of the same name can
    tell. -/
def planCalculation (P : Platform) (collection : Option (List BookInfo)) (env : RunEnv)
    (s : State) (goodAccountId : String) (toDate : Option Date) :
    Except Exception CalculationPlan := do
  let toDate := toDate.getD env.today
  let (goodAccount, financialBook) ← openAccount collection s goodAccountId
  if GoodAccount.needsRebuild goodAccount then pure .reset
  else match financialBook with
    | none => pure (.stop (.financialBookNotFound goodAccount.name))
    | some financialBook =>
      let l := collect P (listTransactions s.inventoryBook goodAccount toDate)
      if l.totalSalesQuantity = 0 then pure (.stop .nothingToCalculate)
      else if l.totalPurchasedQuantity < l.totalSalesQuantity then pure (.stop .salequantityError)
      else
        planListing P env (createCostOfSalesAccount env financialBook) s.inventoryBook goodAccount l

/-- Whether a run over a listing that passed the quantity guard calls `addCostOfSales`: its credit
    notes let it go on, and the purchases of its first sale are processed. -/
def reachesCostOfSales (P : Platform) (env : RunEnv) (financialBook inventoryBook : Book)
    (l : Listing) : Bool :=
  match processCreditNotes P l.goodAccountCreditNoteTransactionsMap.entries
      l.goodAccountPurchaseTransactionsMap {} with
  | .ok (.done purchases processor) =>
    match BotService.sortFIFO P l.goodAccountSaleTransactions with
    | [] => false
    | saleTransaction :: _ =>
      (processSale P env financialBook inventoryBook saleTransaction
        (BotService.sortFIFO P purchases.values) processor).isOk
  | _ => false

/-- The books with the account of the cost of goods sold. -/
def withCostOfSalesAccount (env : RunEnv) (s : State) : State :=
  { s with financialBook := createCostOfSalesAccount env s.financialBook }

/-- The financial book that a run reads and posts to. -/
abbrev costOfSalesBook (env : RunEnv) (s : State) : Book :=
  createCostOfSalesAccount env s.financialBook

/-- The books after a run over a listing has come to its batch operations, or has ended before:
    nothing is written but the account that `addCostOfSales` creates. -/
def booksAfterListing (P : Platform) (env : RunEnv) (s : State) (l : Listing) : State :=
  if l.totalSalesQuantity ≠ 0 ∧ l.totalSalesQuantity ≤ l.totalPurchasedQuantity ∧
      reachesCostOfSales P env (costOfSalesBook env s) s.inventoryBook l then
    withCostOfSalesAccount env s
  else s

/-- The books when `calculateCostOfSalesForAccount` comes to its batch operations, or ends before. -/
def booksAfterPlan (P : Platform) (collection : Option (List BookInfo)) (env : RunEnv)
    (s : State) (goodAccountId : String) (toDate : Option Date) : State :=
  match openAccount collection s goodAccountId with
  | .ok (goodAccount, some _) =>
    if GoodAccount.needsRebuild goodAccount then s
    else booksAfterListing P env s
      (collect P (listTransactions s.inventoryBook goodAccount (toDate.getD env.today)))
  | _ => s

/-- `storeLastCalcTxDate` (lines 130–140). -/
def storeLastCalcTxDate (P : Platform) (inventoryBook : Book) (goodAccount : Account)
    (goodAccountSaleTransactions : List Transaction) : Book :=
  match goodAccountSaleTransactions.getLast? with
  | none => inventoryBook
  | some lastSaleTx =>
    let stored := inventoryBook.updateAccount
      (GoodAccount.setCOGSCalculationDate goodAccount (P.dateText lastSaleTx.date))
    match GoodAccount.getCOGSCalculationDateValue P goodAccount with
    | none => stored
    | some none => inventoryBook
    | some (some goodAccountLastTxDateValue) =>
      if goodAccountLastTxDateValue < lastSaleTx.date then stored else inventoryBook

/-- `calculateCostOfSalesForAccount` (`CalculateCostOfSalesService.ts`, lines 3–128). -/
def calculateCostOfSalesForAccount (P : Platform) (collection : Option (List BookInfo))
    (env : RunEnv) (s : State) (goodAccountId : String) (toDate : Option Date) :
    State × Outcome :=
  let books := booksAfterPlan P collection env s goodAccountId toDate
  match planCalculation P collection env s goodAccountId toDate with
  | .error e => (books, .threw e)
  | .ok (.stop summary) => (books, .returned summary)
  | .ok .reset =>
    match resetCostOfSalesForAccount P collection s goodAccountId with
    | (s, .threw e) => (s, .threw e)
    | (s, .returned _) => (s, .returned .rebuild)
  | .ok (.fire goodAccount sales processor) =>
    let s := processor.fireBatchOperations env 3 books
    ({ s with
        inventoryBook := storeLastCalcTxDate P s.inventoryBook goodAccount sales },
      .returned .calculatingAsync)

/-- A calculation that is stopped after its first `calls` batch calls. -/
def interruptedCalculation (P : Platform) (collection : Option (List BookInfo)) (env : RunEnv)
    (calls : ℕ) (s : State) (goodAccountId : String) (toDate : Option Date) : State :=
  let books := booksAfterPlan P collection env s goodAccountId toDate
  match planCalculation P collection env s goodAccountId toDate with
  | .ok (.fire _ _ processor) => processor.fireBatchOperations env calls books
  | .ok .reset => interruptedReset P collection calls s goodAccountId
  | _ => books

end CostOfSalesService

end InventoryBot.Menu
