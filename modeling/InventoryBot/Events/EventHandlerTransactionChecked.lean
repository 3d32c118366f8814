import InventoryBot.Events.BotService

/-!
# Checked transactions

Models of `events/src/EventHandlerTransactionChecked.ts`, `EventHandlerTransaction.ts` and
`InterceptorFlagRebuild.ts`: what the webhook posts in the inventory book when a transaction of
a financial book is checked, and what it flags when one of the inventory book is.

* `newSale`, `newPurchase`, `newCreditNote`: the three transactions that it posts.
* `connectedTransactionNotFound`: the replication of a financial transaction.
* `InterceptorFlagRebuild.intercept`: the flag for a change in the inventory book.
-/

namespace InventoryBot.Events

open Lib Menu

/-- What a handler answers. The texts around these facts are left out. -/
inductive Response where
  /-- `result: false`, or no response -/
  | silent
  | inventoryBookNotFound
  | postedInInventoryBook
  | found (inventoryTransaction : Transaction)
  | sell (inventoryTransaction : Transaction) (needsRebuild : Bool)
  | buy (inventoryTransaction : Transaction) (needsRebuild : Bool)
  | credit (inventoryTransaction : Transaction) (needsRebuild : Bool)
  | flagged (accountName : String)
  | error (exception : Exception)

/-! ## The transactions it posts -/

/-- The sale (lines 54–65). -/
def newSale (quantity : ℚ) (inventoryAccount inventorySellAccount : Account)
    (goodExcCode : Option String) (financialTransaction : Transaction) : Transaction :=
  { id := ""
    posted := false
    date := financialTransaction.date
    amount := quantity
    creditAccount := some inventoryAccount.ref
    debitAccount := some inventorySellAccount.ref
    description := financialTransaction.description
    remoteIds := [financialTransaction.id]
    saleInvoice := financialTransaction.saleInvoice
    order := financialTransaction.order
    saleAmount := some financialTransaction.amount
    excCode := goodExcCode }

/-- The purchase (lines 94–107). -/
def newPurchase (quantity : ℚ) (inventoryAccount inventoryBuyAccount : Account)
    (goodExcCode : Option String) (financialTransaction : Transaction) : Transaction :=
  { id := ""
    posted := false
    date := financialTransaction.date
    amount := quantity
    creditAccount := some inventoryBuyAccount.ref
    debitAccount := some inventoryAccount.ref
    description := financialTransaction.description
    remoteIds := [financialTransaction.id]
    purchaseCode := financialTransaction.purchaseCode
    originalQuantity := some quantity
    goodPurchaseCost := some financialTransaction.amount
    order := financialTransaction.order
    excCode := goodExcCode
    totalCost := some financialTransaction.amount }

/-- The credit note (lines 132–143). -/
def newCreditNote (quantity : ℚ) (inventoryAccount inventoryBuyAccount : Account)
    (goodExcCode : Option String) (financialTransaction : Transaction) : Transaction :=
  { id := ""
    posted := false
    date := financialTransaction.date
    amount := quantity
    creditAccount := some inventoryAccount.ref
    debitAccount := some inventoryBuyAccount.ref
    description := financialTransaction.description
    remoteIds := [financialTransaction.id]
    creditNote := financialTransaction.creditNote
    purchaseCode := financialTransaction.purchaseCode
    order := financialTransaction.order
    excCode := goodExcCode }

/-! ## Accounts -/

/-- `Book.getGroup`. -/
def getGroup (inventoryBook : Book) (name : String) : Option Group :=
  inventoryBook.groups.find? (·.name == name)

/-- The groups of a financial account in the inventory book, which creates the missing ones
    (lines 183–196 and 238–252). -/
def connectGroups : List Group → Book → Book × List Group
  | [], inventoryBook => (inventoryBook, [])
  | group :: rest, inventoryBook =>
    match getGroup inventoryBook group.name with
    | some inventoryGroup =>
      let (inventoryBook, groups) := connectGroups rest inventoryBook
      (inventoryBook, inventoryGroup :: groups)
    | none =>
      let inventoryGroup := { group with
        parent := group.parent.bind fun parent =>
          if parent = "" then none else (getGroup inventoryBook parent).map Group.name }
      let (inventoryBook, groups) := connectGroups rest
        { inventoryBook with groups := inventoryBook.groups ++ [inventoryGroup] }
      (inventoryBook, inventoryGroup :: groups)

/-- `Account.create`. -/
def createAccount (inventoryBook : Book) (account : Account) : Book :=
  { inventoryBook with accounts := inventoryBook.accounts ++ [account] }

/-- `createConnectedInventoryAccountOnPurchase` (lines 170–201). -/
def createConnectedInventoryAccountOnPurchase (env : EventEnv) (inventoryBook : Book)
    (financialAccount : Account) : Book × Account :=
  let (inventoryBook, groups) := connectGroups financialAccount.groups inventoryBook
  let inventoryAccount : Account :=
    { id := env.goodAccountId
      name := financialAccount.name
      type := .asset
      archived := financialAccount.archived
      properties := financialAccount.properties
      groups := groups }
  (createAccount inventoryBook inventoryAccount, inventoryAccount)

/-- `createConnectedInventoryAccountOnSale` (lines 204–209). Without a name it throws. -/
def createConnectedInventoryAccountOnSale (env : EventEnv) (inventoryBook : Book)
    (goodAccountName : Option String) : Except Exception (Book × Account) :=
  match goodAccountName with
  | none => .error .typeError
  | some name =>
    let inventoryAccount : Account := { id := env.goodAccountId, name := name, type := .asset }
    .ok (createAccount inventoryBook inventoryAccount, inventoryAccount)

/-- The account of a name, which is created where it is missing (lines 49–52 and 89–92). -/
def getOrCreateAccount (env : EventEnv) (inventoryBook : Book) (name : String)
    (type : AccountType) : Book × Account :=
  match inventoryBook.getAccount name with
  | some account => (inventoryBook, account)
  | none =>
    let account : Account := { id := env.otherAccountId, name := name, type := type }
    (createAccount inventoryBook account, account)

/-- `checkInventoryAccount` (lines 212–259): the book and the account object it has updated. The
    property maps are compared with `!=`, as objects, so they always differ. -/
def checkInventoryAccount (inventoryBook : Book) (financialAccount : Account) :
    Book × Option Account :=
  match inventoryBook.getAccount financialAccount.name with
  | none => (inventoryBook, none)
  | some inventoryAccount =>
    let inventoryAccount := { inventoryAccount with
      properties := financialAccount.properties
      archived := financialAccount.archived }
    let (inventoryBook, groups) := connectGroups financialAccount.groups inventoryBook
    let inventoryAccount := { inventoryAccount with groups := inventoryAccount.groups ++ groups }
    (inventoryBook.updateAccount inventoryAccount, some inventoryAccount)

/-- `checkLastTxDate` (lines 160–167). -/
def checkLastTxDate (P : Platform) (inventoryBook : Book) (goodAccount : Account)
    (transaction : Transaction) : Book × Bool :=
  if BotService.calculated P goodAccount transaction.date then
    (inventoryBook.updateAccount (BotService.setNeedsRebuild goodAccount), true)
  else (inventoryBook, false)

/-! ## Replication -/

/-- Posting in the inventory book, and the check of the calculation date after it. -/
def postAndCheck (P : Platform) (env : EventEnv) (inventoryBook : Book) (inventoryAccount : Account)
    (newTransaction financialTransaction : Transaction) : Book × Transaction × Bool :=
  let newTransaction := Book.post env.transactionId env.now newTransaction
  let inventoryBook :=
    { inventoryBook with transactions := inventoryBook.transactions ++ [newTransaction] }
  let (inventoryBook, needsRebuild) :=
    checkLastTxDate P inventoryBook inventoryAccount financialTransaction
  (inventoryBook, newTransaction, needsRebuild)

/-- The branch of a sale (lines 41–75). -/
def sell (P : Platform) (env : EventEnv) (inventoryBook : Book) (quantity : ℚ)
    (financialTransaction : Payload) (goodExcCode : Option String) :
    Except Exception (Book × Response) := do
  let goodProperty := financialTransaction.transaction.good
  let (inventoryBook, inventoryAccount) ← match goodProperty.bind inventoryBook.getAccount with
    | some inventoryAccount => pure (inventoryBook, inventoryAccount)
    | none => createConnectedInventoryAccountOnSale env inventoryBook goodProperty
  let (inventoryBook, inventorySellAccount) :=
    getOrCreateAccount env inventoryBook goodSellAccountName .outgoing
  let (inventoryBook, newTransaction, needsRebuild) :=
    postAndCheck P env inventoryBook inventoryAccount
      (newSale quantity inventoryAccount inventorySellAccount goodExcCode
        financialTransaction.transaction) financialTransaction.transaction
  pure (inventoryBook, .sell newTransaction needsRebuild)

/-- The branch of a purchase (lines 78–117). -/
def buy (P : Platform) (env : EventEnv) (inventoryBook : Book) (quantity : ℚ)
    (financialTransaction : Payload) (financialDebitAccount : Account)
    (goodExcCode : Option String) : Book × Response :=
  let (inventoryBook, inventoryAccount) :=
    match inventoryBook.getAccount financialDebitAccount.name with
    | none => createConnectedInventoryAccountOnPurchase env inventoryBook financialDebitAccount
    | some inventoryAccount =>
      -- the account is fetched again inside, and the object out here may be another one
      let (inventoryBook, checked) := checkInventoryAccount inventoryBook financialDebitAccount
      (inventoryBook,
        if P.sharesAccounts then checked.getD inventoryAccount else inventoryAccount)
  let (inventoryBook, inventoryBuyAccount) :=
    getOrCreateAccount env inventoryBook goodBuyAccountName .incoming
  let (inventoryBook, newTransaction, needsRebuild) :=
    postAndCheck P env inventoryBook inventoryAccount
      (newPurchase quantity inventoryAccount inventoryBuyAccount goodExcCode
        financialTransaction.transaction) financialTransaction.transaction
  (inventoryBook, .buy newTransaction needsRebuild)

/-- The branch of a credit note (lines 120–153). -/
def credit (P : Platform) (env : EventEnv) (inventoryBook : Book) (quantity : ℚ)
    (financialTransaction : Payload) (financialCreditAccount : Account)
    (goodExcCode : Option String) : Book × Response :=
  let (inventoryBook, inventoryAccount) :=
    match inventoryBook.getAccount financialCreditAccount.name with
    | none => createConnectedInventoryAccountOnPurchase env inventoryBook financialCreditAccount
    | some inventoryAccount => (inventoryBook, inventoryAccount)
  let (inventoryBook, inventoryBuyAccount) :=
    getOrCreateAccount env inventoryBook goodBuyAccountName .incoming
  let (inventoryBook, newTransaction, needsRebuild) :=
    postAndCheck P env inventoryBook inventoryAccount
      (newCreditNote quantity inventoryAccount inventoryBuyAccount goodExcCode
        financialTransaction.transaction) financialTransaction.transaction
  (inventoryBook, .credit newTransaction needsRebuild)

/-- `connectedTransactionNotFound` (lines 27–158). -/
def connectedTransactionNotFound (P : Platform) (env : EventEnv) (inventoryBook : Book)
    (financialTransaction : Payload) (goodExcCode : Option String) :
    Except Exception (Book × Response) :=
  match financialTransaction.debitAccount, financialTransaction.creditAccount with
  | some debitAccount, some creditAccount =>
    if financialTransaction.transaction.id = "" then .ok (inventoryBook, .silent)
    else do
      match ← BotService.getQuantity P financialTransaction.transaction with
      | none => pure (inventoryBook, .silent)
      | some quantity =>
        if quantity = 0 then pure (inventoryBook, .silent)
        else if truthy financialTransaction.transaction.saleInvoice then
          sell P env inventoryBook quantity financialTransaction goodExcCode
        else if truthy financialTransaction.transaction.purchaseInvoice then
          pure (buy P env inventoryBook quantity financialTransaction debitAccount goodExcCode)
        else if truthy financialTransaction.transaction.creditNote then
          pure (credit P env inventoryBook quantity financialTransaction creditAccount goodExcCode)
        else pure (inventoryBook, .silent)
  | _, _ => .ok (inventoryBook, .silent)

/-- A transaction of the inventory book as the webhook posts it, for an account `Buy` of type
    incoming and an account `Sell` of type outgoing. -/
inductive Replicated : Transaction → Prop
  | sale {id : String} (now : ℕ) (quantity : ℚ) (inventoryAccount inventorySellAccount : Account)
      (goodExcCode : Option String) (financialTransaction : Transaction) (hid : id ≠ "")
      (hsell : inventorySellAccount.type = .outgoing) :
      Replicated (Book.post id now (newSale quantity inventoryAccount inventorySellAccount
        goodExcCode financialTransaction))
  | purchase {id : String} (now : ℕ) (quantity : ℚ)
      (inventoryAccount inventoryBuyAccount : Account) (goodExcCode : Option String)
      (financialTransaction : Transaction) (hid : id ≠ "")
      (hbuy : inventoryBuyAccount.type = .incoming) :
      Replicated (Book.post id now (newPurchase quantity inventoryAccount inventoryBuyAccount
        goodExcCode financialTransaction))
  | creditNote {id : String} (now : ℕ) (quantity : ℚ)
      (inventoryAccount inventoryBuyAccount : Account) (goodExcCode : Option String)
      (financialTransaction : Transaction) (hid : id ≠ "")
      (hbuy : inventoryBuyAccount.type = .incoming)
      (hnumber : truthy financialTransaction.creditNote) :
      Replicated (Book.post id now (newCreditNote quantity inventoryAccount inventoryBuyAccount
        goodExcCode financialTransaction))

/-! ## `EventHandlerTransaction` -/

/-- `matchGoodExchange` (`EventHandler.ts`, lines 70–76). -/
def matchGoodExchange (goodExcCode excCode : String) : Bool := jsTrim goodExcCode == excCode

/-- `getGoodExcCodeFromTransaction` (lines 51–68). -/
def getGoodExcCodeFromTransaction (financialTransaction : Payload) (financialBook : Book) :
    Option String :=
  match financialTransaction.transaction.good.bind financialBook.getAccount with
  | some goodAccount => Menu.BotService.getExchangeCode goodAccount
  | none => financialTransaction.debitAccount.bind Menu.BotService.getExchangeCode

/-- The good of the transaction is traded in the book (lines 38–41). -/
def tradedIn (financialBook : Book) (goodExcCode : Option String) : Bool :=
  match goodExcCode, Menu.BotService.getExcCode financialBook.info with
  | some goodExcCode, some excCode =>
    goodExcCode == "" || excCode == "" || matchGoodExchange goodExcCode excCode
  | _, _ => true

/-- `processObject` (lines 24–49) of a checked transaction. It throws before it writes. -/
def processObject (P : Platform) (env : EventEnv) (financialBook inventoryBook : Book)
    (event : Event) : Except Exception (Book × Response) :=
  match event.transaction with
  | none => .ok (inventoryBook, .silent)
  | some financialTransaction =>
    if financialTransaction.transaction.posted then
      let goodExcCode := getGoodExcCodeFromTransaction financialTransaction financialBook
      if tradedIn financialBook goodExcCode then
        match (inventoryBook.getTransactions
            (.remoteId financialTransaction.transaction.id)).head? with
        | some goodTransaction => .ok (inventoryBook, .found goodTransaction)
        | none =>
          connectedTransactionNotFound P env inventoryBook financialTransaction goodExcCode
      else .ok (inventoryBook, .silent)
    else .ok (inventoryBook, .silent)

/-! ## `InterceptorFlagRebuild` -/

/-- `InterceptorFlagRebuild.intercept` (lines 94–114). -/
def InterceptorFlagRebuild.intercept (inventoryBook : Book) (event : Event) : Book × Response :=
  if BotService.isInventoryBook event.book && event.agentId != some "inventory-bot" then
    match event.transaction with
    | none => (inventoryBook, .silent)
    | some transactionPayload =>
      let transaction :=
        (inventoryBook.getTransactions (.id transactionPayload.transaction.id)).head?
      match transaction.bind (BotService.getGoodAccount inventoryBook) with
      | some goodAccount =>
        if goodAccount.properties.get needsRebuildProp = none then
          (inventoryBook.updateAccount (BotService.setNeedsRebuild goodAccount),
            .flagged goodAccount.name)
        else (inventoryBook, .silent)
      | none => (inventoryBook, .silent)
  else (inventoryBook, .silent)

end InventoryBot.Events
