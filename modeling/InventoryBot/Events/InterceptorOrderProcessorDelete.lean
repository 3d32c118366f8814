import InventoryBot.Events.EventHandlerTransactionChecked

/-!
# Deleted transactions

Models of `events/src/InterceptorOrderProcessorDelete.ts`,
`InterceptorOrderProcessorDeleteGoods.ts` and `InterceptorOrderProcessorDeleteFinancial.ts`: what
the webhook trashes and flags when a transaction of the inventory book or of a financial book is
deleted.

* `cascadeDeleteInventoryTransactions`, `cascadeDeleteFinancialTransactions`: the splits of a
  purchase and the cost of sales transaction of a sale.
* `InterceptorOrderProcessorDeleteGoods.intercept`: a deletion in the inventory book.
* `InterceptorOrderProcessorDeleteFinancial.intercept`: a deletion in a financial book.
-/

namespace InventoryBot.Events

open Lib Menu

/-- An entry of the result of a deletion. The texts around these facts are left out. -/
inductive DeleteNote where
  | deleted (transaction : Transaction)
  | flagged (account : Option String)

namespace InterceptorOrderProcessorDelete

/-- `cascadeDeleteInventoryTransactions` (lines 16–36): the splits of a deleted purchase, listed
    under the account that it debits. -/
def cascadeDeleteInventoryTransactions (inventoryBook : Book) (transactionId : String)
    (originalQuantity : Option ℚ) (accountName : Option String) : Book × List Transaction :=
  if originalQuantity.isSome then
    let goodAccountTransactions :=
      inventoryBook.getTransactions (.account (accountName.getD "undefined") none none)
    let splits := goodAccountTransactions.filter (·.parentId == some transactionId)
    (splits.foldl BotService.uncheckAndTrash inventoryBook, splits)
  else (inventoryBook, [])

/-- `cascadeDeleteFinancialTransactions` (lines 38–55): the first transaction with the remote
    id. -/
def cascadeDeleteFinancialTransactions (financialBook : Book) (remoteId : String) :
    Book × List Transaction :=
  match (financialBook.getTransactions (.remoteId remoteId)).head? with
  | some tx => (BotService.uncheckAndTrash financialBook tx, [tx])
  | none => (financialBook, [])

/-- `deleteTransactionByRemoteId` (lines 70–77). -/
def deleteTransactionByRemoteId (book : Book) (remoteId : String) : Book × Option Transaction :=
  if remoteId = "" then (book, none)
  else match (book.getTransactions (.remoteId remoteId)).head? with
    | some tx => (BotService.uncheckAndTrash book tx, some tx)
    | none => (book, none)

end InterceptorOrderProcessorDelete

open InterceptorOrderProcessorDelete

/-! ## `InterceptorOrderProcessorDeleteGoods` -/

namespace InterceptorOrderProcessorDeleteGoods

/-- `getGoodAccount` (lines 64–72). -/
def getGoodAccount (inventoryBook : Book) (transactionPayload : Payload) : Option Account :=
  if transactionPayload.debitAccount.any (·.type == .incoming) then
    transactionPayload.creditAccount.bind fun account => inventoryBook.getAccount account.id
  else if transactionPayload.creditAccount.any (·.type == .outgoing) then
    transactionPayload.debitAccount.bind fun account => inventoryBook.getAccount account.id
  else none

/-- `intercept` (lines 13–62). -/
def intercept (P : Platform) (collection : Option (List BookInfo)) (s : State)
    (transactionPayload : Payload) : State × List DeleteNote :=
  let transaction := transactionPayload.transaction
  if !transaction.posted then (s, [])
  else match getGoodAccount s.inventoryBook transactionPayload with
    | none => (s, [])
    | some goodAccount =>
      match transaction.originalQuantity with
      | some originalQuantity =>
        if P.toNumber originalQuantity != P.toNumber transaction.amount then
          let inventoryBook :=
            s.inventoryBook.updateAccount (BotService.setNeedsRebuild goodAccount)
          let (inventoryBook, responses) := cascadeDeleteInventoryTransactions inventoryBook
            transaction.id transaction.originalQuantity
            (transactionPayload.debitAccount.map Account.name)
          ({ s with inventoryBook := inventoryBook },
            .flagged (some goodAccount.name) :: responses.map .deleted)
        else (s, [])
      | none =>
        let goodExcCode := Menu.BotService.getExchangeCode goodAccount
        match BotService.getFinancialBook collection goodExcCode with
        | none => (s, [])
        | some _ =>
          let (financialBook, responses) :=
            cascadeDeleteFinancialTransactions s.financialBook transaction.id
          ({ s with financialBook := financialBook }, responses.map .deleted)

end InterceptorOrderProcessorDeleteGoods

/-! ## `InterceptorOrderProcessorDeleteFinancial` -/

namespace InterceptorOrderProcessorDeleteFinancial

/-- `deleteOnInventoryBook` (lines 104–117). -/
def deleteOnInventoryBook (collection : Option (List BookInfo)) (s : State) (remoteId : String) :
    State × List Transaction :=
  match BotService.getInventoryBook collection with
  | none => (s, [])
  | some _ =>
    let (inventoryBook, deletedInventoryTx) := deleteTransactionByRemoteId s.inventoryBook remoteId
    match deletedInventoryTx with
    | none => (s, [])
    | some deletedInventoryTx =>
      let (inventoryBook, inventoryResponses) := cascadeDeleteInventoryTransactions inventoryBook
        deletedInventoryTx.id deletedInventoryTx.originalQuantity
        (deletedInventoryTx.debitAccount.map AccountRef.name)
      let (financialBook, financialResponses) :=
        cascadeDeleteFinancialTransactions s.financialBook deletedInventoryTx.id
      (⟨inventoryBook, financialBook⟩,
        deletedInventoryTx :: (inventoryResponses ++ financialResponses))

/-- `deleteOnInventoryBook` and the flag for the transaction that it has deleted (lines 31–37 and
    71–77). -/
def deleteAndFlag (P : Platform) (collection : Option (List BookInfo)) (s : State)
    (remoteId : String) : State × List DeleteNote :=
  match deleteOnInventoryBook collection s remoteId with
  | (s, []) => (s, [])
  | (s, deletedTx :: deletedTxs) =>
    let rebuildFlag := (BotService.getGoodAccount s.inventoryBook deletedTx).any fun account =>
      BotService.calculated P account deletedTx.date
    ({ s with
        inventoryBook :=
          BotService.flagInventoryAccountForRebuildIfNeeded P s.inventoryBook deletedTx },
      (deletedTx :: deletedTxs).map .deleted ++ if rebuildFlag then [.flagged none] else [])

/-- `getTimeRange` (lines 145–147), in milliseconds. -/
def getTimeRange : ℤ := additionalCostsCreditsQueryRange * 30 * 24 * 60 * 60 * 1000

/-- `getAccountQuery` (lines 119–138), for the name of an account of the inventory book. -/
def getAccountQuery (P : Platform) (inventoryAccountName : String) (date : Date) : Query :=
  let transactionDate := P.bookInstant date
  BotService.getAccountQuery inventoryAccountName
    (some (P.formatDate (transactionDate + getTimeRange)))
    (some (P.formatDate (transactionDate - getTimeRange)))

/-- The test for the purchase transaction (line 29). -/
def isPurchaseTransaction (transaction : Transaction) : Bool :=
  transaction.quantity.isSome && transaction.purchaseCode.isSome &&
    transaction.purchaseCode == transaction.purchaseInvoice

/-- The test for an additional cost or a credit note (line 42). -/
def isAdjustmentTransaction (transaction : Transaction) : Bool :=
  transaction.purchaseCode.isSome && transaction.purchaseCode != transaction.purchaseInvoice

/-- The test for the sale transaction (line 70). -/
def isSaleTransaction (transactionPayload : Payload) : Bool :=
  transactionPayload.transaction.good.isSome &&
    transactionPayload.debitAccount.any (·.type == .incoming)

/-- The test for the calculated cost of sales (line 82). -/
def isCOGSTransaction (transaction : Transaction) : Bool :=
  transaction.agentId == some "inventory-bot" && includes transaction.description cogsHashtag

/-- A purchase that is not as it was bought (lines 54–56). -/
def isProcessed (P : Platform) (transaction : Transaction) : Bool :=
  P.toNumber (transaction.originalQuantity.getD 0) != P.toNumber transaction.amount

/-- The account that a deleted additional cost or credit note flags (lines 43–66): the one with
    the name of the credited account, if the first transaction listed with the purchase code is
    processed. -/
def adjustedAccount (P : Platform) (inventoryBook : Book) (creditAccount : Account)
    (transaction : Transaction) : Option Account :=
  (inventoryBook.getAccount creditAccount.name).filter fun goodAccount =>
    ((inventoryBook.getTransactions (getAccountQuery P goodAccount.name transaction.date)).find?
      (·.purchaseCode == transaction.purchaseCode)).any (isProcessed P)

/-- The sale that a deleted cost of sales transaction is linked to (lines 85–95). -/
def linkedSale (inventoryBook : Book) (transaction : Transaction) : Option Transaction :=
  transaction.remoteIds.findSome? fun remoteId =>
    (inventoryBook.getTransactions (.id remoteId)).head?

/-- The branch of the purchase (lines 28–39). -/
def deletePurchase (P : Platform) (collection : Option (List BookInfo)) (s : State)
    (transaction : Transaction) : State × List DeleteNote :=
  if isPurchaseTransaction transaction then deleteAndFlag P collection s transaction.id
  else (s, [])

/-- The branch of the additional cost and the credit note (lines 41–67). -/
def deleteAdjustment (P : Platform) (collection : Option (List BookInfo)) (s : State)
    (creditAccount : Account) (transaction : Transaction) : State × List DeleteNote :=
  if isAdjustmentTransaction transaction && (BotService.getInventoryBook collection).isSome then
    match adjustedAccount P s.inventoryBook creditAccount transaction with
    | some goodAccount =>
      ({ s with
          inventoryBook := s.inventoryBook.updateAccount (BotService.setNeedsRebuild goodAccount) },
        [.flagged (some goodAccount.name)])
    | none => (s, [])
  else (s, [])

/-- The branch of the sale (lines 69–79). -/
def deleteSale (P : Platform) (collection : Option (List BookInfo)) (s : State)
    (transactionPayload : Payload) : State × List DeleteNote :=
  if isSaleTransaction transactionPayload then
    deleteAndFlag P collection s transactionPayload.transaction.id
  else (s, [])

/-- The branch of the cost of sales (lines 81–96). -/
def deleteCOGS (collection : Option (List BookInfo)) (s : State) (transaction : Transaction) :
    State × List DeleteNote :=
  if isCOGSTransaction transaction && (BotService.getInventoryBook collection).isSome then
    match linkedSale s.inventoryBook transaction with
    | some inventoryBookTransaction =>
      ({ s with
          inventoryBook :=
            BotService.flagInventoryAccountForRebuild s.inventoryBook inventoryBookTransaction },
        if (BotService.getGoodAccount s.inventoryBook inventoryBookTransaction).isSome then
          [.flagged none]
        else [])
    | none => (s, [])
  else (s, [])

/-- `intercept` (lines 13–102). -/
def intercept (P : Platform) (collection : Option (List BookInfo)) (s : State)
    (transactionPayload : Payload) : State × List DeleteNote :=
  let transaction := transactionPayload.transaction
  if !transaction.posted then (s, [])
  else match transactionPayload.debitAccount, transactionPayload.creditAccount with
    | some _, some creditAccount =>
      if transaction.id = "" then (s, [])
      else
        let (s, purchase) := deletePurchase P collection s transaction
        let (s, adjustment) := deleteAdjustment P collection s creditAccount transaction
        let (s, sale) := deleteSale P collection s transactionPayload
        let (s, cogs) := deleteCOGS collection s transaction
        (s, purchase ++ adjustment ++ sale ++ cogs)
    | _, _ => (s, [])

end InterceptorOrderProcessorDeleteFinancial

/-! ## `EventHandlerTransactionDeleted` -/

/-- `EventHandlerTransactionDeleted.intercept` (lines 14–22). After it the handler reads at most:
    it neither posts nor trashes. -/
def EventHandlerTransactionDeleted.intercept (P : Platform) (collection : Option (List BookInfo))
    (s : State) (event : Event) : State × List DeleteNote :=
  match event.transaction with
  | none => (s, [])
  | some transactionPayload =>
    if BotService.isInventoryBook event.book then
      InterceptorOrderProcessorDeleteGoods.intercept P collection s transactionPayload
    else InterceptorOrderProcessorDeleteFinancial.intercept P collection s transactionPayload

end InventoryBot.Events
