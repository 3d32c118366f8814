import InventoryBot.Events.EventHandlerTransactionChecked
import InventoryBot.Menu.Calculation

/-!
# A calculation and a handler side by side

`calculateCostOfSalesForAccount` and the replication of a checked sale or purchase as the calls
that they make to the books, which may come in any order between each other. Both keep the account
objects that they have read until they write them back.

* `RunAt`, `runStep`: the calls of a calculation.
* `HandlerAt`, `handlerStep`: the calls of the branches `sell` and `buy`.
* `interleave`: the configuration after the two have taken turns.
* `run_alone`, `handler_alone_sale`, `handler_alone_purchase`: a party that is not interrupted
  does what the model of its function does.
-/

namespace InventoryBot.System

open Lib Menu Events CostOfSalesService

/-- The two kinds of a transaction that is replicated next to a calculation; a purchase shows the
    account it debits in the financial book. -/
inductive Arrival where
  | sale
  | purchase (financialDebitAccount : Account)

/-- What a calculation of an account and the handling of a checked transaction are called with, and
    what the outside decides for each. -/
structure Encounter where
  collection : Option (List BookInfo)
  runEnv : RunEnv
  goodAccountId : String
  toDate : Date
  eventEnv : EventEnv
  quantity : ℚ
  goodExcCode : Option String
  financialTransaction : Payload
  arrival : Arrival

/-! ## The calculation -/

/-- Where a calculation stands. It holds the account it has read, what it has listed and, once it
    has planned, the sales and the batches. -/
inductive RunAt where
  | start
  | opened (goodAccount : Account)
  | listed (goodAccount : Account) (transactions : List Transaction)
  | created (goodAccount : Account) (transactions sales : List Transaction)
      (processor : CalculateCostOfSalesProcessor)
  | updated (goodAccount : Account) (transactions sales : List Transaction)
      (processor : CalculateCostOfSalesProcessor)
  | fired (goodAccount : Account) (transactions sales : List Transaction)
  /-- it has written the calculation date, unless the account has a later one -/
  | finished (goodAccount : Account) (transactions sales : List Transaction)
  /-- it has stopped without a batch, before or after it has listed -/
  | stopped (transactions : Option (List Transaction))
  /-- it has read the flag, and resets the account -/
  | rebuild

/-- The guards of a calculation and the plan of its batches (lines 54–117). -/
def planListed (P : Platform) (e : Encounter) (s : State) (goodAccount : Account)
    (transactions : List Transaction) : Except Exception CalculationPlan :=
  let l := collect P transactions
  if l.totalSalesQuantity = 0 then pure (.stop .nothingToCalculate)
  else if l.totalPurchasedQuantity < l.totalSalesQuantity then pure (.stop .salequantityError)
  else planListing P e.runEnv (costOfSalesBook e.runEnv s) s.inventoryBook goodAccount l

/-- The next call of a calculation. The account that `addCostOfSales` creates is one of the financial
    book, which only this party writes; it comes with the call that follows it. -/
def runStep (P : Platform) (e : Encounter) (s : State) : RunAt → State × RunAt
  | .start =>
    match openAccount e.collection s e.goodAccountId with
    | .error _ => (s, .stopped none)
    | .ok (goodAccount, financialBook) =>
      if GoodAccount.needsRebuild goodAccount then (s, .rebuild)
      else match financialBook with
        | none => (s, .stopped none)
        | some _ => (s, .opened goodAccount)
  | .opened goodAccount =>
    (s, .listed goodAccount (listTransactions s.inventoryBook goodAccount e.toDate))
  | .listed goodAccount transactions =>
    let s' := booksAfterListing P e.runEnv s (collect P transactions)
    match planListed P e s goodAccount transactions with
    | .ok (.fire goodAccount sales processor) =>
      (processor.fireBatchCreateInventoryBookTransactions e.runEnv s',
        .created goodAccount transactions sales processor)
    | _ => (s', .stopped (some transactions))
  | .created goodAccount transactions sales processor =>
    (processor.fireBatchUpdateInventoryBookTransactions s,
      .updated goodAccount transactions sales processor)
  | .updated goodAccount transactions sales processor =>
    (processor.fireBatchCreateFinancialBookTransactions e.runEnv s,
      .fired goodAccount transactions sales)
  | .fired goodAccount transactions sales =>
    ({ s with inventoryBook := storeLastCalcTxDate P s.inventoryBook goodAccount sales },
      .finished goodAccount transactions sales)
  | run => (s, run)

/-! ## The handler -/

/-- Where the handler stands. It holds the account it has read, for a purchase also the object that
    `checkInventoryAccount` has read. -/
inductive HandlerAt where
  | start
  | read (inventoryAccount : Account)
  | fetched (inventoryAccount own : Account)
  | ready (inventoryAccount : Account)
  | paired (inventoryAccount otherAccount : Account)
  | posted (inventoryAccount : Account) (newTransaction : Transaction)
  | finished (newTransaction : Transaction) (needsRebuild : Bool)
  | threw (exception : Exception)

namespace Encounter

/-- The name under which the handler looks for the account of the good. -/
def goodName (e : Encounter) : Option String :=
  match e.arrival with
  | .sale => e.financialTransaction.transaction.good
  | .purchase financialDebitAccount => some financialDebitAccount.name

/-- The name of the other account of the copy. -/
def otherName (e : Encounter) : String :=
  match e.arrival with
  | .sale => goodSellAccountName
  | .purchase _ => goodBuyAccountName

/-- The type of the other account of the copy. -/
def otherType (e : Encounter) : AccountType :=
  match e.arrival with
  | .sale => .outgoing
  | .purchase _ => .incoming

/-- The copy before it is posted. -/
def newTransaction (e : Encounter) (inventoryAccount otherAccount : Account) : Transaction :=
  match e.arrival with
  | .sale => newSale e.quantity inventoryAccount otherAccount e.goodExcCode
      e.financialTransaction.transaction
  | .purchase _ => newPurchase e.quantity inventoryAccount otherAccount e.goodExcCode
      e.financialTransaction.transaction

/-- The account of the good with the properties of the financial account, as
    `checkInventoryAccount` leaves them. -/
def synced (e : Encounter) (inventoryAccount : Account) : Account :=
  match e.arrival with
  | .sale => inventoryAccount
  | .purchase financialDebitAccount => { inventoryAccount with
      properties := financialDebitAccount.properties
      archived := financialDebitAccount.archived }

end Encounter

/-- Creating the account of the good where it is missing (lines 45–47 and 82–84). -/
def createGoodAccount (e : Encounter) (b : Book) : Except Exception (Book × Account) :=
  match e.arrival with
  | .sale => createConnectedInventoryAccountOnSale e.eventEnv b e.goodName
  | .purchase financialDebitAccount =>
    .ok (createConnectedInventoryAccountOnPurchase e.eventEnv b financialDebitAccount)

/-- The next call of the handler. -/
def handlerStep (P : Platform) (e : Encounter) (b : Book) : HandlerAt → Book × HandlerAt
  | .start =>
    match e.goodName.bind b.getAccount with
    | some inventoryAccount =>
      match e.arrival with
      | .sale => (b, .ready inventoryAccount)
      | .purchase _ => (b, .read inventoryAccount)
    | none =>
      match createGoodAccount e b with
      | .error exception => (b, .threw exception)
      | .ok (b, inventoryAccount) => (b, .ready inventoryAccount)
  | .read inventoryAccount =>
    match e.goodName.bind b.getAccount with
    | none => (b, .ready inventoryAccount)
    | some own => (b, .fetched inventoryAccount (if P.sharesAccounts then inventoryAccount else own))
  | .fetched inventoryAccount own =>
    match e.arrival with
    | .sale => (b, .ready inventoryAccount)
    | .purchase financialDebitAccount =>
      let (b, groups) := connectGroups financialDebitAccount.groups b
      let own := { e.synced own with groups := own.groups ++ groups }
      (b.updateAccount own, .ready (if P.sharesAccounts then own else inventoryAccount))
  | .ready inventoryAccount =>
    let (b, otherAccount) := getOrCreateAccount e.eventEnv b e.otherName e.otherType
    (b, .paired inventoryAccount otherAccount)
  | .paired inventoryAccount otherAccount =>
    let newTransaction := Book.post e.eventEnv.transactionId e.eventEnv.now
      (e.newTransaction inventoryAccount otherAccount)
    ({ b with transactions := b.transactions ++ [newTransaction] },
      .posted inventoryAccount newTransaction)
  | .posted inventoryAccount newTransaction =>
    let (b, needsRebuild) :=
      checkLastTxDate P b inventoryAccount e.financialTransaction.transaction
    (b, .finished newTransaction needsRebuild)
  | handler => (b, handler)

/-! ## Taking turns -/

/-- The two parties. -/
inductive Party where
  | run
  | handler

/-- How far a calculation has come: 1 once it has read the account, 2 once it has listed, 6 at its
    end. -/
def RunAt.progress : RunAt → ℕ
  | .start => 0
  | .opened _ => 1
  | .listed _ _ => 2
  | .created _ _ _ _ => 3
  | .updated _ _ _ _ => 4
  | .fired _ _ _ => 5
  | .finished _ _ _ => 6
  | .stopped _ => 6
  | .rebuild => 6

/-- How far the calculation was when the handler read the account, overwrote its properties, posted
    the copy and checked the date. -/
structure Order where
  read : Option ℕ := none
  synced : Option ℕ := none
  posted : Option ℕ := none
  checked : Option ℕ := none
  deriving DecidableEq

/-- The handler makes its next call while the calculation has come to `progress`. -/
def Order.mark (order : Order) (progress : ℕ) : HandlerAt → Order
  | .start => { order with read := some progress }
  | .fetched _ _ => { order with synced := some progress }
  | .paired _ _ => { order with posted := some progress }
  | .posted _ _ => { order with checked := some progress }
  | _ => order

/-- The books, and where the two stand. -/
structure Config where
  state : State
  run : RunAt := .start
  handler : HandlerAt := .start
  order : Order := {}

/-- One party makes its next call. -/
def Config.step (P : Platform) (e : Encounter) (c : Config) : Party → Config
  | .run =>
    let (state, run) := runStep P e c.state c.run
    { c with state := state, run := run }
  | .handler =>
    let (inventoryBook, handler) := handlerStep P e c.state.inventoryBook c.handler
    { c with
      state := { c.state with inventoryBook := inventoryBook }
      handler := handler
      order := c.order.mark c.run.progress c.handler }

/-- The two take turns as the schedule says; a party that has ended does nothing. -/
def interleave (P : Platform) (e : Encounter) (schedule : List Party) (c : Config) : Config :=
  schedule.foldl (Config.step P e) c

/-! ## Single calls -/

section Calls

variable {P : Platform} {e : Encounter} {c : Config}

theorem interleave_cons (party : Party) (schedule : List Party) (c : Config) :
    interleave P e (party :: schedule) c = interleave P e schedule (c.step P e party) := rfl

theorem step_run {state : State} {run : RunAt} (h : runStep P e c.state c.run = (state, run)) :
    c.step P e .run = { c with state := state, run := run } := by
  simp only [Config.step, h]

theorem step_handler {inventoryBook : Book} {handler : HandlerAt}
    (h : handlerStep P e c.state.inventoryBook c.handler = (inventoryBook, handler)) :
    c.step P e .handler = { c with
      state := { c.state with inventoryBook := inventoryBook }
      handler := handler
      order := c.order.mark c.run.progress c.handler } := by
  simp only [Config.step, h]

theorem interleave_append (schedule schedule' : List Party) (c : Config) :
    interleave P e (schedule ++ schedule') c =
      interleave P e schedule' (interleave P e schedule c) := List.foldl_append

/-- A party that has ended stays where it is. -/
theorem interleave_ended {party : Party} (h : c.step P e party = c) (n : ℕ) :
    interleave P e (List.replicate n party) c = c := by
  induction n with
  | zero => rfl
  | succ n ih => rwa [List.replicate_succ, interleave_cons, h]

theorem runStep_listed {goodAccount account : Account} {transactions sales : List Transaction}
    {processor : CalculateCostOfSalesProcessor} {s : State}
    (h : planListed P e s goodAccount transactions = .ok (.fire account sales processor)) :
    runStep P e s (.listed goodAccount transactions) =
      (processor.fireBatchCreateInventoryBookTransactions e.runEnv
          (booksAfterListing P e.runEnv s (collect P transactions)),
        .created account transactions sales processor) := by
  simp only [runStep, h]

theorem runStep_listed_stop {goodAccount : Account} {transactions : List Transaction} {s : State}
    (h : ∀ account sales processor, planListed P e s goodAccount transactions ≠
      .ok (.fire account sales processor)) :
    runStep P e s (.listed goodAccount transactions) =
      (booksAfterListing P e.runEnv s (collect P transactions),
        .stopped (some transactions)) := by
  simp only [runStep]

end Calls

/-! ## One party alone -/

section Alone

variable {P : Platform} {e : Encounter} {s : State}

/-- The plan of a calculation in two parts: what its first call reads, and what is planned on the
    listing. -/
theorem planCalculation_eq :
    planCalculation P e.collection e.runEnv s e.goodAccountId (some e.toDate) =
      match openAccount e.collection s e.goodAccountId with
      | .error exception => .error exception
      | .ok (goodAccount, financialBook) =>
        if GoodAccount.needsRebuild goodAccount then .ok .reset
        else match financialBook with
          | none => .ok (.stop (.financialBookNotFound goodAccount.name))
          | some _ => planListed P e s goodAccount
              (listTransactions s.inventoryBook goodAccount e.toDate) := by
  unfold planCalculation
  unfold openAccount
  cases s.inventoryBook.getAccount e.goodAccountId with
  | none => rfl
  | some goodAccount =>
    show (if GoodAccount.needsRebuild goodAccount then _ else _) =
      if GoodAccount.needsRebuild goodAccount then _ else _
    by_cases hflag : GoodAccount.needsRebuild goodAccount = true
    · rw [if_pos hflag, if_pos hflag]
      rfl
    · rw [if_neg hflag, if_neg hflag]
      cases Menu.BotService.getFinancialBook e.collection
        (Menu.BotService.getExchangeCode goodAccount) <;> rfl

theorem planListed_fire {goodAccount account : Account} {transactions sales : List Transaction}
    {processor : CalculateCostOfSalesProcessor}
    (h : planListed P e s goodAccount transactions = .ok (.fire account sales processor)) :
    account = goodAccount := by
  unfold planListed at h
  dsimp only at h
  split at h
  · cases h
  · split at h
    · cases h
    · obtain ⟨rfl, -⟩ := planListing_fire h
      rfl

/-- The calculation alone: its calls are those of `calculateCostOfSalesForAccount`. -/
theorem run_alone
    (h : planCalculation P e.collection e.runEnv s e.goodAccountId (some e.toDate) ≠ .ok .reset) :
    (interleave P e (List.replicate 6 .run) { state := s }).state =
      (calculateCostOfSalesForAccount P e.collection e.runEnv s e.goodAccountId
        (some e.toDate)).1 := by
  unfold calculateCostOfSalesForAccount booksAfterPlan
  rw [planCalculation_eq] at h ⊢
  rw [List.replicate_succ, interleave_cons]
  cases hopen : openAccount e.collection s e.goodAccountId with
  | error exception =>
    have hstep : runStep P e s .start = (s, .stopped none) := by simp only [runStep, hopen]
    rw [step_run hstep, interleave_ended rfl]
  | ok opened =>
    obtain ⟨goodAccount, financialBook⟩ := opened
    rw [hopen] at h
    dsimp only at h ⊢
    have hflag : GoodAccount.needsRebuild goodAccount ≠ true := fun hflag => h (if_pos hflag)
    rw [if_neg hflag]
    rw [if_neg hflag] at h
    cases financialBook with
    | none =>
      have hstep : runStep P e s .start = (s, .stopped none) := by
        simp only [runStep, hopen, if_neg hflag]
      rw [step_run hstep, interleave_ended rfl]
    | some financialBook =>
      have hstep : runStep P e s .start = (s, .opened goodAccount) := by
        simp only [runStep, hopen, if_neg hflag]
      have hlist : runStep P e s (.opened goodAccount) =
          (s, .listed goodAccount (listTransactions s.inventoryBook goodAccount e.toDate)) := rfl
      rw [step_run hstep, List.replicate_succ, interleave_cons, step_run hlist,
        List.replicate_succ, interleave_cons]
      dsimp only at h ⊢
      cases hplan : planListed P e s goodAccount
          (listTransactions s.inventoryBook goodAccount e.toDate) with
      | error exception =>
        rw [step_run (runStep_listed_stop fun _ _ _ => by simp [hplan]), interleave_ended rfl]
        exact (if_neg hflag).symm
      | ok plan =>
        cases plan with
        | stop summary =>
          rw [step_run (runStep_listed_stop fun _ _ _ => by simp [hplan]), interleave_ended rfl]
          exact (if_neg hflag).symm
        | reset => exact absurd hplan h
        | fire account sales processor =>
          rw [step_run (runStep_listed hplan), if_neg hflag]
          rfl

/-- The handler after it has read the account of the good: the other account, the copy and the
    check of the date. -/
theorem handler_from_ready {c : Config} {inventoryAccount : Account}
    (hready : c.handler = .ready inventoryAccount) (n : ℕ) :
    let found := getOrCreateAccount e.eventEnv c.state.inventoryBook e.otherName e.otherType
    let result := postAndCheck P e.eventEnv found.1 inventoryAccount
      (e.newTransaction inventoryAccount found.2) e.financialTransaction.transaction
    let c' := interleave P e (List.replicate (3 + n) .handler) c
    c'.state = { c.state with inventoryBook := result.1 } ∧
      c'.handler = .finished result.2.1 result.2.2 := by
  obtain ⟨state, run, handler, order⟩ := c
  cases hready
  rw [List.replicate_add, interleave_append]
  intro found result c'
  have hended : c' = interleave P e (List.replicate 3 .handler)
      { state, run, handler := .ready inventoryAccount, order } := interleave_ended rfl n
  rw [hended]
  exact ⟨rfl, rfl⟩

/-- The handler alone posts a sale as `sell` does. -/
theorem handler_alone_sale (harrival : e.arrival = .sale) {b' : Book} {tx : Transaction}
    {flagged : Bool}
    (h : sell P e.eventEnv s.inventoryBook e.quantity e.financialTransaction e.goodExcCode =
      .ok (b', .sell tx flagged)) :
    (interleave P e (List.replicate 6 .handler) { state := s }).state =
        { s with inventoryBook := b' } ∧
      (interleave P e (List.replicate 6 .handler) { state := s }).handler =
        .finished tx flagged := by
  have hname : e.goodName = e.financialTransaction.transaction.good := by
    simp only [Encounter.goodName, harrival]
  have hpost : ∀ b₁ good, handlerStep P e s.inventoryBook .start = (b₁, .ready good) →
      (let found := getOrCreateAccount e.eventEnv b₁ goodSellAccountName .outgoing
        let posted := postAndCheck P e.eventEnv found.1 good
          (newSale e.quantity good found.2 e.goodExcCode e.financialTransaction.transaction)
          e.financialTransaction.transaction
        (posted.1, Response.sell posted.2.1 posted.2.2)) = (b', .sell tx flagged) →
      (interleave P e (List.replicate 6 .handler) { state := s }).state =
          { s with inventoryBook := b' } ∧
        (interleave P e (List.replicate 6 .handler) { state := s }).handler =
          .finished tx flagged := by
    intro b₁ good hstep hresult
    rw [List.replicate_succ, interleave_cons, step_handler hstep]
    cases hresult
    have hrest := handler_from_ready (P := P) (e := e) (c := ⟨⟨b₁, s.financialBook⟩, .start,
      .ready good, Order.mark {} 0 .start⟩) rfl 2
    simp only [Encounter.otherName, Encounter.otherType, Encounter.newTransaction, harrival] at hrest
    exact hrest
  unfold sell at h
  dsimp only at h
  cases hfound : e.financialTransaction.transaction.good.bind s.inventoryBook.getAccount with
  | some inventoryAccount =>
    rw [hfound] at h
    refine hpost s.inventoryBook inventoryAccount ?_ (Except.ok.inj h)
    simp only [handlerStep, hname, hfound, harrival]
  | none =>
    rw [hfound] at h
    obtain ⟨⟨b₁, inventoryAccount⟩, hcreated, h⟩ := bind_eq_ok.1 h
    refine hpost b₁ inventoryAccount ?_ (Except.ok.inj h)
    simp only [handlerStep, createGoodAccount, hname, hfound, harrival, hcreated]

/-- The handler alone posts a purchase as `buy` does. -/
theorem handler_alone_purchase {financialDebitAccount : Account}
    (harrival : e.arrival = .purchase financialDebitAccount) {b' : Book} {tx : Transaction}
    {flagged : Bool}
    (h : buy P e.eventEnv s.inventoryBook e.quantity e.financialTransaction financialDebitAccount
      e.goodExcCode = (b', .buy tx flagged)) :
    (interleave P e (List.replicate 6 .handler) { state := s }).state =
        { s with inventoryBook := b' } ∧
      (interleave P e (List.replicate 6 .handler) { state := s }).handler =
        .finished tx flagged := by
  have hname : e.goodName = some financialDebitAccount.name := by
    simp only [Encounter.goodName, harrival]
  unfold buy at h
  rw [List.replicate_succ, interleave_cons]
  cases hfound : s.inventoryBook.getAccount financialDebitAccount.name with
  | none =>
    rw [hfound] at h
    let created := createConnectedInventoryAccountOnPurchase e.eventEnv s.inventoryBook
      financialDebitAccount
    have hstep : handlerStep P e s.inventoryBook .start = (created.1, .ready created.2) := by
      simp only [handlerStep, createGoodAccount, hname, Option.bind_some, hfound, harrival, created]
    have hrest := handler_from_ready (P := P) (e := e) (c := ⟨⟨created.1, s.financialBook⟩, .start,
      .ready created.2, Order.mark {} 0 .start⟩) rfl 2
    simp only [Encounter.otherName, Encounter.otherType, Encounter.newTransaction, harrival] at hrest
    rw [step_handler hstep]
    cases h
    exact hrest
  | some inventoryAccount =>
    rw [hfound] at h
    have hread : handlerStep P e s.inventoryBook .start =
        (s.inventoryBook, .read inventoryAccount) := by
      simp only [handlerStep, hname, Option.bind_some, hfound, harrival]
    have hfetch : handlerStep P e s.inventoryBook (.read inventoryAccount) =
        (s.inventoryBook, .fetched inventoryAccount inventoryAccount) := by
      simp only [handlerStep, hname, Option.bind_some, hfound, ite_self]
    let connected := connectGroups financialDebitAccount.groups s.inventoryBook
    let own : Account := { inventoryAccount with
      properties := financialDebitAccount.properties
      archived := financialDebitAccount.archived
      groups := inventoryAccount.groups ++ connected.2 }
    let good := if P.sharesAccounts then own else inventoryAccount
    have hsync : handlerStep P e s.inventoryBook (.fetched inventoryAccount inventoryAccount) =
        (connected.1.updateAccount own, .ready good) := by
      simp only [handlerStep, Encounter.synced, harrival, own, good, connected]
    have hrest := handler_from_ready (P := P) (e := e) (c := ⟨⟨connected.1.updateAccount own,
      s.financialBook⟩, .start, .ready good, { read := some 0, synced := some 0 }⟩) rfl 0
    simp only [Encounter.otherName, Encounter.otherType, Encounter.newTransaction, harrival] at hrest
    rw [step_handler hread, List.replicate_succ, interleave_cons, step_handler hfetch,
      List.replicate_succ, interleave_cons, step_handler hsync]
    have hchecked : checkInventoryAccount s.inventoryBook financialDebitAccount =
        (connected.1.updateAccount own, some own) := by
      simp only [checkInventoryAccount, hfound, own, connected]
    rw [hchecked] at h
    cases h
    exact hrest

end Alone

end InventoryBot.System
