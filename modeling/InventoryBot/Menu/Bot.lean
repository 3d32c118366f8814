import InventoryBot.Menu.CalculateCostOfSales

/-!
# The entry points of the menu

Models of `menu/server/src/Bot.ts`: the accounts that a context selects for a calculation and for
a reset, and the loops over them. The client keeps the context that `getContextParams` returns,
whose book is the inventory book, and hands it to both.

The financial books of the collection are given by their ids. A call for an account opens the one
that the exchange code of the account resolves to; without one the call writes nothing.
-/

namespace InventoryBot.Menu

open Lib

/-- What a context says about an account or a group: `{ id, name }`. -/
structure ContextRef where
  id : String
  name : String

/-- `ContextParams` (lines 8–12), without its book. -/
structure ContextParams where
  account : Option ContextRef := none
  group : Option ContextRef := none

/-- A group of the inventory book with the ids of its accounts. -/
structure AccountGroup where
  id : String
  name : String
  accountIds : List String

/-- The inventory book with its groups, and the financial books by their ids. -/
structure Books where
  inventoryBook : Book
  groups : List AccountGroup := []
  financialBook : String → Book

namespace Books

/-- `Book.getGroup`, by id or by name. -/
def getGroup (w : Books) (idOrName : String) : Option AccountGroup :=
  (w.groups.find? (·.id == idOrName)) <|> (w.groups.find? (·.name == idOrName))

/-- `Group.getAccounts`. -/
def getAccounts (w : Books) (group : AccountGroup) : List Account :=
  w.inventoryBook.accounts.filter fun account => group.accountIds.contains account.id

/-- The financial book that a call for an account opens. -/
def financialBookOf (collection : Option (List BookInfo)) (w : Books) (goodAccountId : String) :
    Option BookInfo :=
  (w.inventoryBook.getAccount goodAccountId).bind fun goodAccount =>
    BotService.getFinancialBook collection (BotService.getExchangeCode goodAccount)

/-- A call for an account, made on the two books that it opens. -/
def onAccount (collection : Option (List BookInfo)) (call : State → String → State × Outcome)
    (w : Books) (goodAccountId : String) : Books × Outcome :=
  match w.financialBookOf collection goodAccountId with
  | some info =>
    let (s, outcome) := call ⟨w.inventoryBook, w.financialBook info.id⟩ goodAccountId
    ({ w with
      inventoryBook := s.inventoryBook
      financialBook := Function.update w.financialBook info.id s.financialBook }, outcome)
  | none => (w, (call ⟨w.inventoryBook, w.inventoryBook⟩ goodAccountId).2)

end Books

namespace Bot

/-- What a function of `Bot.ts` throws: its own message, or an exception below it. -/
inductive Thrown where
  | message (text : String)
  | exception (e : Exception)
  deriving DecidableEq

/-- The message without an inventory book (lines 106 and 167). -/
def inventoryBookNotFound : Thrown :=
  .message ("Inventory Book not found in the collection. Please set the property inventory_book " ++
    "to the Inventory Book.")

/-- The UTF-16 code units of a text. -/
def codeUnits (s : String) : List ℕ :=
  s.toList.flatMap fun c =>
    if c.toNat < 0x10000 then [c.toNat]
    else [0xD800 + (c.toNat - 0x10000) / 0x400, 0xDC00 + (c.toNat - 0x10000) % 0x400]

/-- `x` may stand before `y` in a sorted array of entries: `sort()` compares the texts
    `name,id`. -/
def entryLe (x y : String × String) : Prop :=
  (codeUnits (y.1 ++ "," ++ y.2)).lex (codeUnits (x.1 ++ "," ++ x.2)) = false

instance : DecidableRel entryLe :=
  fun x y => inferInstanceAs
    (Decidable ((codeUnits (y.1 ++ "," ++ y.2)).lex (codeUnits (x.1 ++ "," ++ x.2)) = false))

/-- The asset accounts among some accounts. -/
def assets (accounts : List Account) : List Account := accounts.filter (·.type == .asset)

/-- The accounts that the context selects (lines 110–127), as they are set into the map. -/
def selectedAccounts (contextParams : ContextParams) (w : Books) : Except Exception (List Account) :=
  match contextParams.account, contextParams.group with
  | some account, _ =>
    match w.inventoryBook.getAccount account.id with
    | some account => .ok [account]
    | none => .error .typeError
  | none, some group =>
    match w.getGroup group.id with
    | some group => .ok (assets (w.getAccounts group))
    | none => .error .typeError
  | none, none => .ok (assets w.inventoryBook.accounts)

/-- `getAccountsToCalculate` (lines 102–136): the names and ids of the accounts. -/
def getAccountsToCalculate (collection : Option (List BookInfo)) (contextParams : ContextParams)
    (w : Books) : Except Thrown (List (String × String)) :=
  match BotService.getInventoryBook collection with
  | none => .error inventoryBookNotFound
  | some _ =>
    match selectedAccounts contextParams w with
    | .error e => .error (.exception e)
    | .ok accounts =>
      let accountsMap : OrderedMap String String :=
        accounts.foldl (fun accountsMap account => accountsMap.set account.name account.id) ∅
      .ok (accountsMap.entries.insertionSort entryLe)

/-- `getAccountsToReset` (lines 163–180). -/
def getAccountsToReset (collection : Option (List BookInfo)) (_contextParams : ContextParams)
    (w : Books) : Except Thrown (List Account) :=
  match BotService.getInventoryBook collection with
  | none => .error inventoryBookNotFound
  | some _ => .ok (assets w.inventoryBook.accounts)

/-- The loop over accounts: each call is made on the books that the one before it has left, and
    an exception ends the loop. -/
def forAccounts (call : Books → String → Books × Outcome) :
    List (String × String) → Books → Books × Except Thrown (List (String × String))
  | [], w => (w, .ok [])
  | (accountName, accountId) :: rest, w =>
    match call w accountId with
    | (w, .threw e) => (w, .error (.exception e))
    | (w, .returned summary) =>
      let (w, results) := forAccounts call rest w
      (w, results.map ((accountName, summary.getResult) :: ·))

/-- `calculateCostOfSales` (lines 82–96); `env` is what the outside decides for the run of each
    account. -/
def calculateCostOfSales (P : Platform) (collection : Option (List BookInfo))
    (env : String → RunEnv) (contextParams : ContextParams) (toDate : Option Date) (w : Books) :
    Books × Except Thrown (List (String × String)) :=
  match getAccountsToCalculate collection contextParams w with
  | .error e => (w, .error e)
  | .ok accountsToCalculate =>
    forAccounts (Books.onAccount collection fun s goodAccountId =>
      CostOfSalesService.calculateCostOfSalesForAccount P collection (env goodAccountId) s
        goodAccountId toDate) accountsToCalculate w

/-- `resetCostOfSales` (lines 143–156); `localeCompare` compares the names. -/
def resetCostOfSales (P : Platform) (localeCompare : String → String → ℤ)
    (collection : Option (List BookInfo)) (contextParams : ContextParams) (w : Books) :
    Books × Except Thrown (List (String × String)) :=
  match getAccountsToReset collection contextParams w with
  | .error e => (w, .error e)
  | .ok accounts =>
    let accountsToReset := accounts.insertionSort fun a b => localeCompare a.name b.name ≤ 0
    forAccounts (Books.onAccount collection
      (CostOfSalesService.resetCostOfSalesForAccount P collection))
        (accountsToReset.map fun account => (account.name, account.id)) w

end Bot

end InventoryBot.Menu
