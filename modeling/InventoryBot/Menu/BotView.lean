import InventoryBot.Menu.Bot

/-!
# The window of the menu

Models of `menu/client/src/BotViewScript.ts` and of the functions of `menu/server/src/Bot.ts` that
only the window calls. The window makes every call of the server asynchronously
(`google.script.run`): the server serves it at some later moment and its answer runs a handler at
some moment after that, while other windows make calls, and users and the webhook change the books.

* `Window`: the state of the script, with the calls that are under way.
* `serve`: what the server does for a call.
* `DesktopStep`: any number of windows at work on the same books.
-/

namespace InventoryBot.Menu

open Lib

/-! ## `BotService` and `Bot` -/

/-- `hasPendingTasks` (lines 20–22), of the number of tasks in the backlog of a book. -/
def BotService.hasPendingTasks (backlog : ℕ) : Bool := decide (0 < backlog)

/-- The parameters of the URL of a window. -/
structure UrlParameters where
  bookId : String
  accountId : Option String := none
  groupId : Option String := none

/-- A book as `BkperApp.getBook` opens it, with its groups. -/
structure OpenedBook where
  book : Book
  groups : List AccountGroup := []

/-- What the server sees: the books, every book that the user can open, and the number of tasks in
    the backlog of the inventory book. -/
structure Server where
  books : Books
  getBook : String → Option OpenedBook
  backlog : ℕ := 0

namespace Bot

/-- `getContextParams` (lines 30–59). The account and the group of the opened book stand for those
    of the same names in the inventory book. -/
def getContextParams (collection : Option (List BookInfo)) (parameters : UrlParameters)
    (server : Server) : Except Thrown ContextParams :=
  match server.getBook parameters.bookId with
  -- `BkperApp.getBook` throws
  | none => .error (.exception .typeError)
  | some opened =>
    match BotService.getInventoryBook collection with
    | none => .error (.message "Inventory Book not found in the collection")
    | some _ =>
      let group := parameters.groupId.bind fun id =>
        (opened.groups.find? (·.id == id)) <|> (opened.groups.find? (·.name == id))
      let account := parameters.accountId.bind opened.book.getAccount
      let inventoryAccount :=
        account.bind fun account => server.books.inventoryBook.getAccount account.name
      let accountRef := inventoryAccount.map fun account => ⟨account.id, account.name⟩
      match group with
      | none => .ok { account := accountRef }
      | some group =>
        match server.books.getGroup group.name with
        | some inventoryGroup =>
          .ok { account := accountRef, group := some ⟨inventoryGroup.id, group.name⟩ }
        | none => .error (.exception .typeError)

/-- `validate` (lines 66–75). -/
def validate (collection : Option (List BookInfo)) (server : Server) : Except Thrown Unit :=
  match BotService.getInventoryBook collection with
  | none => .error inventoryBookNotFound
  | some _ =>
    if BotService.hasPendingTasks server.backlog then
      .error (.message "Cannot start operation: Inventory Book has pending tasks")
    else .ok ()

end Bot

/-! ## Calls of the server -/

/-- What the two buttons of a window start. -/
inductive Operation where
  | calculate
  | reset
  deriving DecidableEq

/-- A call of the server. The handler of a validation starts the operation that was clicked. -/
inductive Call where
  | getContextParams (parameters : UrlParameters)
  | getAccountsToCalculate (contextParams : ContextParams)
  | validate (operation : Operation)
  | fire (operation : Operation) (contextParams : Option ContextParams)

/-- What a call returns. -/
abbrev Call.Reply : Call → Type
  | .getContextParams _ => ContextParams
  | .getAccountsToCalculate _ => List (String × String)
  | .validate _ => Unit
  | .fire _ _ => List (String × String)

/-- A call with what it has returned or thrown. -/
structure Answer where
  call : Call
  reply : Except Bot.Thrown call.Reply

section Serve

variable (P : Platform) (localeCompare : String → String → ℤ) (collection : Option (List BookInfo))
  (env : String → RunEnv)

/-- An operation on the books. -/
def operate : Operation → ContextParams → Books → Books × Except Bot.Thrown (List (String × String))
  | .calculate, contextParams => Bot.calculateCostOfSales P collection env contextParams none
  | .reset, contextParams => Bot.resetCostOfSales P localeCompare collection contextParams

/-- What the server does for a call. -/
def serve (server : Server) : (call : Call) → Server × Except Bot.Thrown call.Reply
  | .getContextParams parameters => (server, Bot.getContextParams collection parameters server)
  | .getAccountsToCalculate contextParams =>
    (server, Bot.getAccountsToCalculate collection contextParams server.books)
  | .validate _ => (server, Bot.validate collection server)
  | .fire operation (some contextParams) =>
    let (books, reply) :=
      operate P localeCompare collection env operation contextParams server.books
    ({ server with books := books }, reply)
  | .fire _ none => (server, .error (.exception .typeError))

end Serve

/-! ## `BotViewScript` -/

/-- The state of the script of a window. -/
structure Window where
  contextParams : Option ContextParams := none
  /-- the three buttons are disabled -/
  disabled : Bool := false
  /-- the entries of `#account-list` -/
  accountList : List String := []
  /-- what `window.alert` has shown -/
  alerts : List Bot.Thrown := []
  /-- `getLocation` has called back -/
  located : Bool := false
  /-- the calls that the server has not served -/
  sent : List Call := []
  /-- the answers whose handlers have not run -/
  answered : List Answer := []

namespace Window

/-- `google.script.run`. -/
def run (w : Window) (call : Call) : Window := { w with sent := w.sent ++ [call] }

/-- `disableButtons` (lines 90–100). -/
def disableButtons (w : Window) (disable : Bool) : Window := { w with disabled := disable }

/-- `loadTemplate` (lines 11–15). -/
def loadTemplate (w : Window) (parameters : UrlParameters) : Window :=
  let w := { w with located := true }
  (w.disableButtons true).run (.getContextParams parameters)

/-- `setParams` (lines 17–20). -/
def setParams (w : Window) (params : ContextParams) : Window :=
  let w := { w with contextParams := some params }
  w.run (.getAccountsToCalculate params)

/-- The entry of an account (line 25). -/
def accountEntry (account : String × String) : String := "<p>" ++ account.1 ++ "</p>"

/-- The entry of a result (line 79). -/
def resultEntry (account : String × String) : String :=
  "<p>" ++ account.1 ++ ": &nbsp;" ++ account.2 ++ "</p>"

/-- `showAccountsList` (lines 22–30). -/
def showAccountsList (w : Window) (accountsToCalculate : List (String × String)) : Window :=
  let w := { w with accountList := w.accountList ++ accountsToCalculate.map accountEntry }
  w.disableButtons false

/-- `showResults` (lines 76–84). -/
def showResults (w : Window) (results : List (String × String)) : Window :=
  let w := { w with accountList := results.map resultEntry }
  w.disableButtons false

/-- `showError` (lines 86–88). -/
def showError (w : Window) (error : Bot.Thrown) : Window := { w with alerts := w.alerts ++ [error] }

/-- What `calculate` and `reset` do alike. -/
def start (w : Window) (operation : Operation) : Window :=
  let w := w.disableButtons true
  match w.contextParams with
  | some _ => w.run (.validate operation)
  | none => w

/-- `calculate` (lines 32–48). -/
def calculate (w : Window) : Window := w.start .calculate

/-- `reset` (lines 54–70). -/
def reset (w : Window) : Window := w.start .reset

/-- `fireCalculateForAll` (lines 50–52) and `fireResetForAll` (lines 72–74). -/
def fireForAll (w : Window) (operation : Operation) : Window :=
  w.run (.fire operation w.contextParams)

/-- The handler of an answer. The calls of `loadTemplate` and of `setParams` have no handler for a
    failure. -/
def receive (w : Window) : Answer → Window
  | ⟨.getContextParams _, .ok params⟩ => w.setParams params
  | ⟨.getAccountsToCalculate _, .ok accountsToCalculate⟩ => w.showAccountsList accountsToCalculate
  | ⟨.validate operation, .ok ()⟩ => w.fireForAll operation
  | ⟨.validate _, .error error⟩ => w.showError error
  | ⟨.fire _ _, .ok results⟩ => w.showResults results
  | ⟨.fire _ _, .error error⟩ => w.showError error
  | ⟨.getContextParams _, .error _⟩ | ⟨.getAccountsToCalculate _, .error _⟩ => w

end Window

/-! ## Windows at work -/

/-- What happened in a window: a click, or a call that the server served while that many tasks
    were in the backlog. -/
inductive Entry where
  | clicked (operation : Operation)
  | served (backlog : ℕ) (answer : Answer)

/-- Any number of windows on the same books, each with what happened in it so far. -/
structure Desktop (ι : Type) where
  window : ι → Window := fun _ => {}
  server : Server
  log : ι → List Entry := fun _ => []

section Desktop

variable {ι : Type} [DecidableEq ι]

/-- Something happens in the window `i`. -/
def Desktop.act (d : Desktop ι) (i : ι) (w : Window) (happened : List Entry) : Desktop ι where
  window := Function.update d.window i w
  server := d.server
  log := Function.update d.log i (d.log i ++ happened)

/-- One step of the windows and of what they work on. -/
inductive DesktopStep (P : Platform) (localeCompare : String → String → ℤ)
    (collection : Option (List BookInfo)) : Desktop ι → Desktop ι → Prop
  /-- `getLocation` calls back -/
  | located {d : Desktop ι} (i : ι) (parameters : UrlParameters)
      (hfirst : (d.window i).located = false) :
      DesktopStep P localeCompare collection d
        (d.act i ((d.window i).loadTemplate parameters) [])
  /-- a button is clicked that is not disabled -/
  | clicked {d : Desktop ι} (i : ι) (operation : Operation)
      (henabled : (d.window i).disabled = false) :
      DesktopStep P localeCompare collection d
        (d.act i ((d.window i).start operation) [.clicked operation])
  /-- the server serves a call -/
  | served {d : Desktop ι} (i : ι) (env : String → RunEnv) {before after : List Call} {call : Call}
      (hsent : (d.window i).sent = before ++ call :: after) :
      DesktopStep P localeCompare collection d
        { d.act i
            { d.window i with
              sent := before ++ after
              answered := (d.window i).answered ++
                [⟨call, (serve P localeCompare collection env d.server call).2⟩] }
            [.served d.server.backlog
              ⟨call, (serve P localeCompare collection env d.server call).2⟩] with
          server := (serve P localeCompare collection env d.server call).1 }
  /-- the handler of an answer runs -/
  | answered {d : Desktop ι} (i : ι) {before after : List Answer} {answer : Answer}
      (hanswered : (d.window i).answered = before ++ answer :: after) :
      DesktopStep P localeCompare collection d
        (d.act i (({ d.window i with answered := before ++ after } : Window).receive answer) [])
  /-- users and the webhook change the books -/
  | changed {d : Desktop ι} (server : Server) :
      DesktopStep P localeCompare collection d { d with server := server }

end Desktop

end InventoryBot.Menu
