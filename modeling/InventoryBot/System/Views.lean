import InventoryBot.System.Deletions
import InventoryBot.System.Encounter

/-!
# What the two parties hold

While a calculation and a handler take turns, the account objects that they hold and the account
that the inventory book holds depend on the order of their calls only.

* `Inv`: the properties of each of these objects, and what the calculation has listed.
* `Inv.run`, `Inv.handler`: every call of a party keeps it.
* `Inv.interleave`: it holds along every schedule.
-/

namespace InventoryBot.System

open Lib Menu Events CostOfSalesService

/-! ## What the parties hold -/

/-- The date that a calculation writes back: that of its last sale, unless the account object it
    holds shows a later one. -/
def movedDate (P : Platform) (goodAccount : Account) (sales : List Transaction) : Option Date :=
  match sales.getLast? with
  | none => none
  | some lastSaleTx =>
    match GoodAccount.getCOGSCalculationDateValue P goodAccount with
    | none => some lastSaleTx.date
    | some none => none
    | some (some date) => if date < lastSaleTx.date then some lastSaleTx.date else none

theorem storeLastCalcTxDate_eq (P : Platform) (b : Book) (goodAccount : Account)
    (sales : List Transaction) :
    storeLastCalcTxDate P b goodAccount sales =
      match movedDate P goodAccount sales with
      | none => b
      | some date =>
        b.updateAccount (GoodAccount.setCOGSCalculationDate goodAccount (P.dateText date)) := by
  unfold storeLastCalcTxDate movedDate
  cases sales.getLast? with
  | none => rfl
  | some lastSaleTx =>
    dsimp only
    rcases GoodAccount.getCOGSCalculationDateValue P goodAccount with _ | _ | date
    · rfl
    · rfl
    · dsimp only
      split <;> rfl

namespace RunAt

/-- The account object that a calculation holds. -/
def account : RunAt → Option Account
  | .opened goodAccount => some goodAccount
  | .listed goodAccount _ => some goodAccount
  | .created goodAccount _ _ _ => some goodAccount
  | .updated goodAccount _ _ _ => some goodAccount
  | .fired goodAccount _ _ => some goodAccount
  | _ => none

/-- What a calculation has listed. -/
def listing : RunAt → Option (List Transaction)
  | .listed _ transactions => some transactions
  | .created _ transactions _ _ => some transactions
  | .updated _ transactions _ _ => some transactions
  | .fired _ transactions _ => some transactions
  | .finished _ transactions _ => some transactions
  | .stopped transactions => transactions
  | _ => none

/-- The date that a calculation has written back. -/
def moved (P : Platform) : RunAt → Option Date
  | .finished goodAccount _ sales => movedDate P goodAccount sales
  | _ => none

end RunAt

namespace HandlerAt

/-- The account object that the handler holds. -/
def view : HandlerAt → Option Account
  | .read inventoryAccount => some inventoryAccount
  | .fetched inventoryAccount _ => some inventoryAccount
  | .ready inventoryAccount => some inventoryAccount
  | .paired inventoryAccount _ => some inventoryAccount
  | .posted inventoryAccount _ => some inventoryAccount
  | _ => none

/-- The transaction that the handler has posted. -/
def new : HandlerAt → Option Transaction
  | .posted _ newTransaction => some newTransaction
  | .finished newTransaction _ => some newTransaction
  | _ => none

/-- The handler has not overwritten the properties of the account. -/
def unsynced : HandlerAt → Bool
  | .start => true
  | .read _ => true
  | .fetched _ _ => true
  | _ => false

/-- The handler has created no account. -/
def unpaired : HandlerAt → Bool
  | .ready _ => true
  | handler => handler.unsynced

end HandlerAt

section Views

variable (P : Platform) (e : Encounter) (good : Account)

/-- The properties that the calculation reads: those of the financial account if the handler has
    written them before. -/
def runView (order : Order) : Account :=
  if order.synced = some 0 then e.synced good else good

/-- The properties that the handler compares the date with: those it has read, or those it has
    written itself where it gets one object for both. -/
def handlerView (order : Order) (moved : Option Date) : Account :=
  if order.synced.isSome && P.sharesAccounts then e.synced good
  else match moved with
    | some date => if order.read = some 6 then
        GoodAccount.setCOGSCalculationDate good (P.dateText date) else good
    | none => good

/-- The properties that are left by the calculation and by the handler before its check. -/
def leftBy (order : Order) (moved : Option Date) : Account :=
  match moved with
  | some date => if order.synced = some 6 then e.synced good
    else GoodAccount.setCOGSCalculationDate (runView e good order) (P.dateText date)
  | none => if order.synced.isSome then e.synced good else good

/-- The properties that the inventory book holds. -/
def standing (c : Config) : Account :=
  match c.handler with
  | .finished _ true =>
    if (c.run.moved P).isSome ∧ c.order.checked ≠ some 6 then leftBy P e good c.order (c.run.moved P)
    else Events.BotService.setNeedsRebuild (handlerView P e good c.order (c.run.moved P))
  | _ => leftBy P e good c.order (c.run.moved P)

end Views

/-- The copy was posted before the calculation listed. -/
def Order.beforeListing (order : Order) : Prop := order.posted = some 0 ∨ order.posted = some 1

/-! ## The account of the good -/

/-- The account that a key finds depends on the ids, names and types only. -/
theorem getAccount_map_ref (b : Book) (key : String) :
    (b.getAccount key).map Account.ref =
      ((accountRefs b).find? (·.id == key) <|> (accountRefs b).find? (·.name == key)) := by
  unfold Book.getAccount accountRefs
  rw [List.find?_map, List.find?_map]
  have hid : ((fun r : AccountRef => r.id == key) ∘ Account.ref) = fun a => a.id == key := rfl
  have hname : ((fun r : AccountRef => r.name == key) ∘ Account.ref) = fun a => a.name == key := rfl
  rw [hid, hname]
  cases b.accounts.find? (·.id == key) <;> rfl

/-- The book holds an account with these properties. -/
def Holds (b : Book) (r : AccountRef) (properties : OrderedMap String String) : Prop :=
  ∃ a ∈ b.accounts, a.ref = r ∧ a.properties = properties

section Holds

variable {b : Book} {r : AccountRef} {properties : OrderedMap String String}

theorem Holds.mem (h : Holds b r properties) : r ∈ accountRefs b := by
  obtain ⟨a, ha, rfl, -⟩ := h
  exact List.mem_map_of_mem ha

theorem Holds.eq (h : Holds b r properties) (hb : Distinct b) {a : Account} (ha : a ∈ b.accounts)
    (href : a.ref = r) : a.properties = properties := by
  obtain ⟨x, hx, rfl, rfl⟩ := h
  rw [eq_of_id hb.accountIds ha hx (congrArg AccountRef.id href)]

/-- An account with the same key is written back over the stored one. -/
theorem Holds.update (h : Holds b r properties) {a : Account} (href : a.ref = r) :
    Holds (b.updateAccount a) r a.properties := by
  obtain ⟨x, hx, rfl, -⟩ := h
  have hid : x.id = a.id := (congrArg AccountRef.id href).symm
  exact ⟨a, List.mem_map.2 ⟨x, hx, if_pos hid⟩, href, rfl⟩

theorem Holds.of_accounts {b' : Book} (h : Holds b r properties) (h' : b'.accounts = b.accounts) :
    Holds b' r properties := by
  unfold Holds
  rwa [h']

theorem distinct_of_accounts {b' : Book} (h : Distinct b) (h' : b'.accounts = b.accounts) :
    Distinct b' := by
  have hrefs : accountRefs b' = accountRefs b := by rw [accountRefs, accountRefs, h']
  exact ⟨hrefs ▸ h.accountIds, hrefs ▸ h.accountNames⟩

theorem distinct_updateAccount (hb : Distinct b) {a : Account} (ha : a.ref ∈ accountRefs b) :
    Distinct (b.updateAccount a) := by
  have hrefs := accountRefs_updateAccount hb.accountIds ha
  exact ⟨hrefs ▸ hb.accountIds, hrefs ▸ hb.accountNames⟩

/-- Looking up the other account of a copy touches no account that is there. -/
theorem Holds.getOrCreate (h : Holds b r properties) (env : EventEnv) (name : String)
    (type : AccountType) : Holds (getOrCreateAccount env b name type).1 r properties := by
  obtain ⟨a, ha, href, hproperties⟩ := h
  refine ⟨a, ?_, href, hproperties⟩
  unfold getOrCreateAccount
  split
  · exact ha
  · exact List.mem_append_left _ ha

end Holds

/-- The handler and the calculation work on one account of the inventory book. -/
structure Meets (e : Encounter) (b : Book) (good : Account) : Prop where
  complete : Complete b
  fresh : EventFresh e.eventEnv b
  account : good ∈ b.accounts
  id : good.id = e.goodAccountId
  name : e.goodName.bind b.getAccount = some good

/-! ## The invariant -/

/-- What holds along every interleaving that starts with the books `s`. -/
structure Inv (P : Platform) (e : Encounter) (s : State) (good : Account) (c : Config) : Prop where
  distinct : Distinct c.state.inventoryBook
  refs : c.handler.unpaired = true →
    accountRefs c.state.inventoryBook = accountRefs s.inventoryBook
  stored : Holds c.state.inventoryBook good.ref (standing P e good c).properties
  snapshot : ∀ a, c.run.account = some a →
    a.ref = good.ref ∧ a.properties = (runView e good c.order).properties ∧
      GoodAccount.needsRebuild a = false
  current : (c.run.moved P).isSome → GoodAccount.needsRebuild (runView e good c.order) = false
  view : ∀ a, c.handler.view = some a →
    a.ref = good.ref ∧
      a.properties = (handlerView P e good c.order (c.run.moved P)).properties
  own : ∀ a own, c.handler = .fetched a own → own.ref = good.ref
  purchase : ∀ a, c.handler = .read a ∨ (∃ own, c.handler = .fetched a own) →
    e.arrival ≠ .sale
  flag : ∀ tx needsRebuild, c.handler = .finished tx needsRebuild →
    needsRebuild = Events.BotService.calculated P (handlerView P e good c.order (c.run.moved P))
      e.financialTransaction.transaction.date
  early : c.run.progress < 6 →
    c.order.read ≠ some 6 ∧ c.order.synced ≠ some 6 ∧ c.order.checked ≠ some 6
  first : c.run.progress = 0 → c.order.synced = none ∨ c.order.synced = some 0
  late : ∀ tx needsRebuild, c.handler = .finished tx needsRebuild → c.order.synced = some 6 →
    c.order.checked = some 6
  unsynced : c.handler.unsynced = true → c.order.synced = none
  transactions : c.run.progress < 2 →
    c.state.inventoryBook.transactions = s.inventoryBook.transactions ++ c.handler.new.toList
  new : ∀ tx, c.handler.new = some tx →
    tx.id = e.eventEnv.transactionId ∧ tx.date = e.financialTransaction.transaction.date ∧
      tx.moves good.name = true
  unchecked : (∀ tx needsRebuild, c.handler ≠ .finished tx needsRebuild) → c.order.checked = none
  unposted : c.handler.new = none → c.order.posted = none
  posted : c.handler.new ≠ none → c.run.progress < 2 → c.order.beforeListing
  listed : ∀ transactions, c.run.listing = some transactions →
    2 ≤ c.run.progress ∧ (e.eventEnv.transactionId ∈ transactions.map Transaction.id ↔
      c.order.beforeListing ∧ e.financialTransaction.transaction.date ≤ e.toDate)

section Steps

variable {P : Platform} {e : Encounter} {s : State} {good : Account} {c : Config}

theorem standing_eq_leftBy (h : ∀ tx, c.handler ≠ .finished tx true) :
    standing P e good c = leftBy P e good c.order (c.run.moved P) := by
  unfold standing
  split
  · exact absurd ‹_› (h _)
  · rfl

theorem inv_start (h : Meets e s.inventoryBook good) : Inv P e s good { state := s } where
  distinct := ⟨h.complete.accountIds, h.complete.accountNames⟩
  refs := fun _ => rfl
  stored := ⟨good, h.account, rfl, rfl⟩
  snapshot := by simp [RunAt.account]
  current := by simp [RunAt.moved]
  view := by simp [HandlerAt.view]
  own := by simp
  purchase := by simp
  flag := by simp
  early := by simp
  first := fun _ => Or.inl rfl
  late := by simp
  unsynced := fun _ => rfl
  transactions := by simp [HandlerAt.new]
  new := by simp [HandlerAt.new]
  unchecked := fun _ => rfl
  unposted := fun _ => rfl
  posted := fun h => absurd rfl h
  listed := by simp [RunAt.listing]

/-- A call of the calculation that touches no account, reads none and lists nothing. -/
theorem Inv.quiet (h : Inv P e s good c) {state : State} {run : RunAt}
    (haccounts : state.inventoryBook.accounts = c.state.inventoryBook.accounts)
    (hmoved : run.moved P = c.run.moved P)
    (haccount : ∀ a, run.account = some a → c.run.account = some a)
    (hprogress : 2 ≤ run.progress ∧ c.run.progress < 6)
    (hlisting : ∀ transactions, run.listing = some transactions → c.run.listing = some transactions) :
    Inv P e s good { c with state := state, run := run } := by
  have hstanding : standing P e good { c with state := state, run := run } =
      standing P e good c := by
    unfold standing
    rw [hmoved]
  have hrefs : accountRefs state.inventoryBook = accountRefs c.state.inventoryBook := by
    rw [accountRefs, accountRefs, haccounts]
  exact
    { h with
      distinct := distinct_of_accounts h.distinct haccounts
      refs := fun hunpaired => hrefs.trans (h.refs hunpaired)
      stored := hstanding ▸ h.stored.of_accounts haccounts
      snapshot := fun a ha => h.snapshot a (haccount a ha)
      current := fun hsome => h.current (hmoved ▸ hsome)
      view := hmoved ▸ h.view
      flag := hmoved ▸ h.flag
      early := fun _ => h.early hprogress.2
      first := fun hzero => absurd hprogress.1 (by simp [hzero])
      transactions := fun htwo => absurd hprogress.1 (not_le.2 htwo)
      posted := fun _ htwo => absurd hprogress.1 (not_le.2 htwo)
      listed := fun transactions ht => ⟨hprogress.1, (h.listed transactions (hlisting _ ht)).2⟩ }

theorem needsRebuild_congr {a b : Account} (h : a.properties = b.properties) :
    GoodAccount.needsRebuild a = GoodAccount.needsRebuild b := by
  rw [GoodAccount.needsRebuild, GoodAccount.needsRebuild, h]

theorem calculated_congr (P : Platform) {a b : Account} (h : a.properties = b.properties)
    (date : Date) : Events.BotService.calculated P a date =
      Events.BotService.calculated P b date := by
  unfold Events.BotService.calculated Events.BotService.getCOGSCalculationDateValue
  rw [h]

/-- The account of the good as the inventory book holds it. -/
theorem Inv.account (h : Inv P e s good c) (hmeets : Meets e s.inventoryBook good) :
    ∃ a, c.state.inventoryBook.getAccount e.goodAccountId = some a ∧ a.ref = good.ref ∧
      a.properties = (standing P e good c).properties := by
  obtain ⟨a, ha, href, hproperties⟩ := h.stored
  have hid : a.id = e.goodAccountId := (congrArg AccountRef.id href).trans hmeets.id
  exact ⟨a, hid ▸ getAccount_id h.distinct.accountIds ha, href, hproperties⟩

/-- The calculation reads the account of the good without a flag. -/
theorem Inv.opened (h : Inv P e s good c) (hmeets : Meets e s.inventoryBook good)
    (hrun : c.run = .start) {a : Account}
    (ha : c.state.inventoryBook.getAccount e.goodAccountId = some a)
    (hflag : GoodAccount.needsRebuild a = false) :
    Inv P e s good { c with run := .opened a } := by
  obtain ⟨x, hx, href, hproperties⟩ := h.account hmeets
  obtain rfl : a = x := Option.some.inj (ha.symm.trans hx)
  have hmoved : c.run.moved P = none := by rw [hrun]; rfl
  have hstanding : standing P e good c = runView e good c.order := by
    rw [standing_eq_leftBy, hmoved]
    · rcases h.first (by rw [hrun]; rfl) with hnone | hzero
      · simp [leftBy, runView, hnone]
      · simp [leftBy, runView, hzero]
    · intro tx hfinished
      have htrue : GoodAccount.needsRebuild a = true := by
        rw [needsRebuild_congr hproperties]
        simp only [standing, hfinished, hmoved, Option.isSome_none, Bool.false_eq_true, false_and,
          if_false]
        exact needsRebuild_setNeedsRebuild _
      rw [hflag] at htrue
      cases htrue
  have hprogress : c.run.progress = 0 := by rw [hrun]; rfl
  have hview := h.view
  have hcompared := h.flag
  rw [hmoved] at hview hcompared
  have hsame : standing P e good { c with run := .opened a } = standing P e good c := by
    unfold standing
    rw [hmoved]
    rfl
  exact
    { h with
      stored := hsame ▸ h.stored
      snapshot := by
        rintro _ ⟨⟩
        exact ⟨href, hproperties.trans (congrArg Account.properties hstanding), hflag⟩
      current := fun hsome => by cases hsome
      view := hview
      flag := hcompared
      early := fun _ => h.early (by omega)
      first := fun hzero => by cases hzero
      transactions := fun _ => h.transactions (by omega)
      posted := fun hnew _ => h.posted hnew (by omega)
      listed := fun _ hnone => by cases hnone }

/-- The calculation lists the transactions of the account. -/
theorem Inv.listing (h : Inv P e s good c) (hmeets : Meets e s.inventoryBook good) {a : Account}
    (hrun : c.run = .opened a) :
    Inv P e s good { c with
      run := .listed a (listTransactions c.state.inventoryBook a e.toDate) } := by
  obtain ⟨href, hproperties, hflag⟩ := h.snapshot a (by rw [hrun]; rfl)
  have hmoved : c.run.moved P = none := by rw [hrun]; rfl
  have hprogress : c.run.progress = 1 := by rw [hrun]; rfl
  have hview := h.view
  have hcompared := h.flag
  rw [hmoved] at hview hcompared
  have hsame : standing P e good { c with
      run := .listed a (listTransactions c.state.inventoryBook a e.toDate) } =
        standing P e good c := by
    unfold standing
    rw [hmoved]
    rfl
  have hname : a.name = good.name := congrArg AccountRef.name href
  have hrows := h.transactions (by omega)
  have hfresh : e.eventEnv.transactionId ∉ s.inventoryBook.transactions.map Transaction.id :=
    fun hmem => hmeets.fresh.transactionId (List.mem_cons_of_mem _ hmem)
  have hlisted : e.eventEnv.transactionId ∈
        (listTransactions c.state.inventoryBook a e.toDate).map Transaction.id ↔
      c.order.beforeListing ∧ e.financialTransaction.transaction.date ≤ e.toDate := by
    rw [List.mem_map]
    constructor
    · rintro ⟨t, ht, hid⟩
      obtain ⟨hstored, -, hdate⟩ := mem_listTransactions.1 ht
      rw [hrows, List.mem_append] at hstored
      rcases hstored with hold | hnew
      · exact absurd (hid ▸ List.mem_map_of_mem hold) hfresh
      · have hnew' : c.handler.new = some t := by simpa using hnew
        refine ⟨h.posted (by rw [hnew']; simp) (by omega), ?_⟩
        rw [← (h.new t hnew').2.1]
        exact Int.lt_add_one_iff.1 hdate
    · rintro ⟨hbefore, hdate⟩
      cases hnew : c.handler.new with
      | none =>
        rw [Order.beforeListing, h.unposted hnew] at hbefore
        simp at hbefore
      | some t =>
        obtain ⟨hid, htdate, hmoves⟩ := h.new t hnew
        refine ⟨t, mem_listTransactions.2 ⟨?_, hname ▸ hmoves, ?_⟩, hid⟩
        · rw [hrows, hnew]
          simp
        · rw [htdate]
          exact Int.lt_add_one_iff.2 hdate
  exact
    { h with
      stored := hsame ▸ h.stored
      snapshot := by
        rintro _ ⟨⟩
        exact ⟨href, hproperties, hflag⟩
      current := fun hsome => by cases hsome
      view := hview
      flag := hcompared
      early := fun _ => h.early (by omega)
      first := fun hzero => by cases hzero
      transactions := fun htwo => absurd htwo (lt_irrefl 2)
      posted := fun _ htwo => absurd htwo (lt_irrefl 2)
      listed := by
        rintro _ ⟨⟩
        exact ⟨le_rfl, hlisted⟩ }

theorem handlerView_early {order : Order} (h : order.read ≠ some 6) (moved : Option Date) :
    handlerView P e good order moved = handlerView P e good order none := by
  unfold handlerView
  cases moved with
  | none => rfl
  | some date =>
    dsimp only
    rw [if_neg h]

/-- The calculation writes the account that it has read back, with the date. -/
theorem Inv.wroteBack (h : Inv P e s good c) {a : Account}
    {transactions sales : List Transaction} (hrun : c.run = .fired a transactions sales)
    {date : Date} (hdate : movedDate P a sales = some date) :
    Inv P e s good { c with
      state := { c.state with
        inventoryBook := c.state.inventoryBook.updateAccount
          (GoodAccount.setCOGSCalculationDate a (P.dateText date)) }
      run := .finished a transactions sales } := by
  obtain ⟨href, hproperties, hflag⟩ := h.snapshot a (by rw [hrun]; rfl)
  have hprogress : c.run.progress = 5 := by rw [hrun]; rfl
  have hmoved : c.run.moved P = none := by rw [hrun]; rfl
  obtain ⟨hread, hsynced, hchecked⟩ := h.early (by omega)
  have hmoved' : RunAt.moved P (.finished a transactions sales) = some date := hdate
  have hview : handlerView P e good c.order (some date) = handlerView P e good c.order none :=
    handlerView_early hread _
  have hleft : leftBy P e good c.order (some date) =
      GoodAccount.setCOGSCalculationDate (runView e good c.order) (P.dateText date) := by
    simp [leftBy, hsynced]
  have hstanding : standing P e good { c with
      state := { c.state with
        inventoryBook := c.state.inventoryBook.updateAccount
          (GoodAccount.setCOGSCalculationDate a (P.dateText date)) }
      run := .finished a transactions sales } =
        GoodAccount.setCOGSCalculationDate (runView e good c.order) (P.dateText date) := by
    unfold standing
    rw [hmoved', ← hleft]
    split
    · exact if_pos ⟨rfl, hchecked⟩
    · rfl
  have hwritten : (GoodAccount.setCOGSCalculationDate a (P.dateText date)).properties =
      (GoodAccount.setCOGSCalculationDate (runView e good c.order) (P.dateText date)).properties := by
    simp [GoodAccount.setCOGSCalculationDate, hproperties]
  have hmem : (GoodAccount.setCOGSCalculationDate a (P.dateText date)).ref ∈
      accountRefs c.state.inventoryBook := by
    rw [show (GoodAccount.setCOGSCalculationDate a (P.dateText date)).ref = good.ref from href]
    exact h.stored.mem
  exact
    { h with
      distinct := distinct_updateAccount h.distinct hmem
      refs := fun hunpaired =>
        (accountRefs_updateAccount h.distinct.accountIds hmem).trans (h.refs hunpaired)
      stored := by
        rw [hstanding, ← hwritten]
        exact h.stored.update (show _ = _ from href)
      snapshot := fun _ hnone => by cases hnone
      current := fun _ => by rwa [← needsRebuild_congr hproperties]
      view := fun v hv => by
        rw [hmoved', hview, ← hmoved]
        exact h.view v hv
      flag := fun tx fl hf => by
        rw [hmoved', hview, ← hmoved]
        exact h.flag tx fl hf
      early := fun hsix => absurd hsix (lt_irrefl 6)
      first := fun hzero => by cases hzero
      transactions := fun htwo => absurd (show 6 < 2 from htwo) (by decide)
      posted := fun _ htwo => absurd (show 6 < 2 from htwo) (by decide)
      listed := by
        rintro _ ⟨⟩
        exact ⟨show 2 ≤ 6 by decide, (h.listed transactions (by rw [hrun]; rfl)).2⟩ }

/-- Every call of the calculation keeps the invariant. -/
theorem Inv.run (h : Inv P e s good c) (hmeets : Meets e s.inventoryBook good) :
    Inv P e s good (c.step P e .run) := by
  obtain ⟨state, run, handler, order⟩ := c
  cases run with
  | start =>
    cases hopen : openAccount e.collection state e.goodAccountId with
    | error exception =>
      have hstep : runStep P e state .start = (state, .stopped none) := by simp only [runStep, hopen]
      rw [step_run hstep]
      exact h.quiet rfl rfl (fun _ ha => ha) (by simp [RunAt.progress]) fun _ ht => ht
    | ok opened =>
      obtain ⟨a, book⟩ := opened
      by_cases hflag : GoodAccount.needsRebuild a = true
      · have hstep : runStep P e state .start = (state, .rebuild) := by
          simp only [runStep, hopen, if_pos hflag]
        rw [step_run hstep]
        exact h.quiet rfl rfl (fun _ ha => ha) (by simp [RunAt.progress]) fun _ ht => ht
      · cases book with
        | none =>
          have hstep : runStep P e state .start = (state, .stopped none) := by
            simp only [runStep, hopen, if_neg hflag]
          rw [step_run hstep]
          exact h.quiet rfl rfl (fun _ ha => ha) (by simp [RunAt.progress]) fun _ ht => ht
        | some book =>
          have hstep : runStep P e state .start = (state, .opened a) := by
            simp only [runStep, hopen, if_neg hflag]
          rw [step_run hstep]
          exact h.opened hmeets rfl (openAccount_ok hopen).1 (by simpa using hflag)
  | opened a => exact h.listing hmeets rfl
  | listed a transactions =>
    have haccounts : (booksAfterListing P e.runEnv state
        (collect P transactions)).inventoryBook.accounts = state.inventoryBook.accounts := by
      rw [booksAfterListing_inventoryBook]
    show Inv P e s good { state := _, run := _, handler := handler, order := order }
    split
    · rename_i hplan
      obtain rfl := planListed_fire hplan
      exact h.quiet haccounts rfl (fun _ ha => ha) (by simp [RunAt.progress]) (fun _ ht => ht)
    · exact h.quiet haccounts rfl (fun _ ha => by cases ha) (by simp [RunAt.progress]) (fun _ ht => ht)
  | created a transactions sales processor =>
    exact h.quiet rfl rfl (fun _ ha => ha) (by simp [RunAt.progress]) fun _ ht => ht
  | updated a transactions sales processor =>
    exact h.quiet rfl rfl (fun _ ha => ha) (by simp [RunAt.progress]) fun _ ht => ht
  | fired a transactions sales =>
    cases hdate : movedDate P a sales with
    | none =>
      have hstep : runStep P e state (.fired a transactions sales) =
          (state, .finished a transactions sales) := by
        simp only [runStep, storeLastCalcTxDate_eq, hdate]
      rw [step_run hstep]
      exact h.quiet rfl hdate (fun _ ha => by cases ha) (by simp [RunAt.progress]) fun _ ht => ht
    | some date =>
      have hstep : runStep P e state (.fired a transactions sales) =
          ({ state with
            inventoryBook := state.inventoryBook.updateAccount
              (GoodAccount.setCOGSCalculationDate a (P.dateText date)) },
            .finished a transactions sales) := by
        simp only [runStep, storeLastCalcTxDate_eq, hdate]
      rw [step_run hstep]
      exact h.wroteBack rfl hdate
  | finished a transactions sales => exact h
  | stopped transactions => exact h
  | rebuild => exact h

/-! ## The calls of the handler -/

theorem RunAt.progress_le (run : RunAt) : run.progress ≤ 6 := by
  cases run <;> simp [RunAt.progress]

theorem RunAt.progress_of_moved {run : RunAt} {date : Date} (h : run.moved P = some date) :
    run.progress = 6 := by
  cases run with
  | finished a transactions sales => rfl
  | _ => cases h

theorem RunAt.progress_of_account {run : RunAt} {a : Account} (h : run.account = some a) :
    run.progress ≠ 0 := by
  cases run <;> simp_all [RunAt.progress, RunAt.account]

/-- A name that finds the good at first finds it as long as no account is created. -/
theorem Inv.found (h : Inv P e s good c) (hmeets : Meets e s.inventoryBook good)
    (hunpaired : c.handler.unpaired = true) :
    ∃ a, e.goodName.bind c.state.inventoryBook.getAccount = some a ∧
      a ∈ c.state.inventoryBook.accounts ∧ a.ref = good.ref := by
  obtain ⟨name, hname, hfound⟩ := Option.bind_eq_some_iff.1 hmeets.name
  have hrefs : (c.state.inventoryBook.getAccount name).map Account.ref = some good.ref := by
    rw [getAccount_map_ref, h.refs hunpaired, ← getAccount_map_ref, hfound]
    rfl
  obtain ⟨a, ha, href⟩ := Option.map_eq_some_iff.1 hrefs
  refine ⟨a, ?_, Book.mem_of_getAccount ha, href⟩
  rw [hname]
  exact ha

/-- The handler reads the account of the good. -/
theorem Inv.read (h : Inv P e s good c) (hhandler : c.handler = .start) {a : Account}
    (ha : a ∈ c.state.inventoryBook.accounts) (href : a.ref = good.ref) {handler : HandlerAt}
    (hnext : handler = .ready a ∨ handler = .read a ∧ e.arrival ≠ .sale) :
    Inv P e s good { c with
      handler := handler
      order := { c.order with read := some c.run.progress } } := by
  have hsynced : c.order.synced = none := h.unsynced (by rw [hhandler]; rfl)
  have hstanding : standing P e good c = leftBy P e good c.order (c.run.moved P) :=
    standing_eq_leftBy fun tx hf => by rw [hhandler] at hf; cases hf
  have hproperties : a.properties = (leftBy P e good c.order (c.run.moved P)).properties := by
    rw [← hstanding]
    exact h.stored.eq h.distinct ha href
  have hview : handlerView P e good { c.order with read := some c.run.progress } (c.run.moved P) =
      leftBy P e good c.order (c.run.moved P) := by
    unfold handlerView leftBy runView
    cases hmoved : c.run.moved P with
    | none => simp [hsynced]
    | some date => simp [hsynced, RunAt.progress_of_moved hmoved]
  have hnew : c.handler.new = none := by rw [hhandler]; rfl
  have hshape : handler.view = some a ∧ handler.new = none ∧
      (∀ tx fl, handler ≠ .finished tx fl) ∧ (∀ b own, handler ≠ .fetched b own) := by
    rcases hnext with rfl | ⟨rfl, -⟩ <;> simp [HandlerAt.view, HandlerAt.new]
  obtain ⟨hheld, hunposted, hunfinished, hunfetched⟩ := hshape
  exact
    { h with
      refs := fun _ => h.refs (by rw [hhandler]; rfl)
      stored := by
        rw [standing_eq_leftBy fun tx => hunfinished tx true]
        exact hstanding ▸ h.stored
      view := by
        intro v hv
        obtain rfl : a = v := Option.some.inj (hheld.symm.trans hv)
        exact ⟨href, hproperties.trans (congrArg Account.properties hview.symm)⟩
      own := fun b own hb => absurd hb (hunfetched b own)
      purchase := by
        rintro b (hb | ⟨own, hb⟩)
        · rcases hnext with hready | ⟨-, hne⟩
          · rw [hready] at hb
            cases hb
          · exact hne
        · exact absurd hb (hunfetched b own)
      flag := fun tx fl hf => absurd hf (hunfinished tx fl)
      early := fun hsix => ⟨fun hread => absurd (Option.some.inj hread) (Nat.ne_of_lt hsix),
        (h.early hsix).2⟩
      late := fun tx fl hf => absurd hf (hunfinished tx fl)
      unsynced := fun _ => hsynced
      transactions := fun htwo => by
        rw [hunposted, ← hnew]
        exact h.transactions htwo
      new := fun tx htx => by rw [hunposted] at htx; cases htx
      unchecked := fun _ => h.unchecked fun tx fl hf => by rw [hhandler] at hf; cases hf
      unposted := fun _ => h.unposted hnew
      posted := fun hposted => absurd hunposted hposted }

/-- `checkInventoryAccount` reads the account once more. -/
theorem Inv.fetched (h : Inv P e s good c) {a own : Account} (hhandler : c.handler = .read a)
    (hown : own.ref = good.ref) : Inv P e s good { c with handler := .fetched a own } := by
  have hstanding : standing P e good c = leftBy P e good c.order (c.run.moved P) :=
    standing_eq_leftBy fun tx hf => by rw [hhandler] at hf; cases hf
  have hstored := h.stored
  rw [hstanding] at hstored
  have hnew : c.handler.new = none := by rw [hhandler]; rfl
  have hrows := h.transactions
  rw [hnew] at hrows
  exact
    { h with
      refs := fun _ => h.refs (by rw [hhandler]; rfl)
      stored := hstored
      view := fun v hv => h.view v (by rw [hhandler]; exact hv)
      own := by
        rintro _ _ ⟨⟩
        exact hown
      purchase := fun _ _ => h.purchase a (Or.inl hhandler)
      flag := fun _ _ hf => by cases hf
      late := fun _ _ hf => by cases hf
      unsynced := fun _ => h.unsynced (by rw [hhandler]; rfl)
      transactions := hrows
      new := fun _ htx => by cases htx
      unchecked := fun _ => h.unchecked fun tx fl hf => by rw [hhandler] at hf; cases hf
      unposted := fun _ => h.unposted hnew
      posted := fun hposted => absurd rfl hposted }

/-- `checkInventoryAccount` overwrites the properties of the account. -/
theorem Inv.synced (h : Inv P e s good c) {a own new : Account} {b : Book}
    (hhandler : c.handler = .fetched a own)
    (haccounts : b.accounts = c.state.inventoryBook.accounts)
    (htransactions : b.transactions = c.state.inventoryBook.transactions)
    (href : new.ref = good.ref) (hproperties : new.properties = (e.synced good).properties) :
    Inv P e s good { c with
      state := { c.state with inventoryBook := b.updateAccount new }
      handler := .ready (if P.sharesAccounts then new else a)
      order := { c.order with synced := some c.run.progress } } := by
  have hsynced : c.order.synced = none := h.unsynced (by rw [hhandler]; rfl)
  have hstanding : standing P e good c = leftBy P e good c.order (c.run.moved P) :=
    standing_eq_leftBy fun tx hf => by rw [hhandler] at hf; cases hf
  have hleft : leftBy P e good { c.order with synced := some c.run.progress } (c.run.moved P) =
      e.synced good := by
    unfold leftBy
    cases hmoved : c.run.moved P with
    | none => simp
    | some date => simp [RunAt.progress_of_moved hmoved]
  have hrun : c.run.progress ≠ 0 →
      runView e good { c.order with synced := some c.run.progress } = runView e good c.order := by
    intro hne
    simp [runView, hsynced, hne]
  have hnew : c.handler.new = none := by rw [hhandler]; rfl
  have hrows := h.transactions
  rw [hnew] at hrows
  have hdistinct := distinct_of_accounts h.distinct haccounts
  have hholds := h.stored.of_accounts haccounts
  have hmem : new.ref ∈ accountRefs b := by
    rw [href]
    exact hholds.mem
  have hrefs : accountRefs (b.updateAccount new) = accountRefs c.state.inventoryBook := by
    rw [accountRefs_updateAccount hdistinct.accountIds hmem, accountRefs, accountRefs, haccounts]
  exact
    { h with
      distinct := distinct_updateAccount hdistinct hmem
      refs := fun _ => hrefs.trans (h.refs (by rw [hhandler]; rfl))
      stored := by
        rw [standing_eq_leftBy fun tx hf => by cases hf]
        rw [hleft, ← hproperties]
        exact hholds.update href
      snapshot := fun g hg => by
        rw [hrun (RunAt.progress_of_account hg)]
        exact h.snapshot g hg
      current := fun hsome => by
        obtain ⟨date, hdate⟩ := Option.isSome_iff_exists.1 hsome
        rw [hrun (by rw [RunAt.progress_of_moved hdate]; decide)]
        exact h.current hsome
      view := by
        rintro _ ⟨⟩
        obtain ⟨haref, hheld⟩ := h.view a (by rw [hhandler]; rfl)
        by_cases hshares : P.sharesAccounts = true
        · rw [if_pos hshares]
          refine ⟨href, hproperties.trans ?_⟩
          simp [handlerView, hshares]
        · rw [if_neg hshares]
          refine ⟨haref, hheld.trans ?_⟩
          simp [handlerView, hshares]
      own := fun _ _ hf => by cases hf
      purchase := by rintro _ (hf | ⟨_, hf⟩) <;> cases hf
      flag := fun _ _ hf => by cases hf
      early := fun hsix => ⟨(h.early hsix).1,
        fun hnow => absurd (Option.some.inj hnow) (Nat.ne_of_lt hsix), (h.early hsix).2.2⟩
      first := fun hzero => Or.inr (congrArg some hzero)
      late := fun _ _ hf => by cases hf
      unsynced := fun hf => by cases hf
      transactions := fun htwo => htransactions.trans (hrows htwo)
      new := fun _ htx => by cases htx
      unchecked := fun _ => h.unchecked fun tx fl hf => by rw [hhandler] at hf; cases hf
      unposted := fun _ => h.unposted hnew
      posted := fun hposted => absurd rfl hposted }

/-- The handler finds or creates the other account of the copy. -/
theorem Inv.paired (h : Inv P e s good c) (hmeets : Meets e s.inventoryBook good) {a : Account}
    (hhandler : c.handler = .ready a) :
    Inv P e s good { c with
      state := { c.state with
        inventoryBook :=
          (getOrCreateAccount e.eventEnv c.state.inventoryBook e.otherName e.otherType).1 }
      handler := .paired a
        (getOrCreateAccount e.eventEnv c.state.inventoryBook e.otherName e.otherType).2 } := by
  have hstanding : standing P e good c = leftBy P e good c.order (c.run.moved P) :=
    standing_eq_leftBy fun tx hf => by rw [hhandler] at hf; cases hf
  have hnew : c.handler.new = none := by rw [hhandler]; rfl
  have hrows := h.transactions
  rw [hnew] at hrows
  have hgrows := getOrCreateAccount_grows e.eventEnv c.state.inventoryBook e.otherName e.otherType
  have hother : e.eventEnv.otherAccountId ∉
      (accountRefs c.state.inventoryBook).map AccountRef.id := by
    rw [h.refs (by rw [hhandler]; rfl)]
    exact hmeets.fresh.otherAccountId
  exact
    { h with
      distinct := hgrows.distinct h.distinct hother
      refs := fun hf => by cases hf
      stored := by
        rw [standing_eq_leftBy fun tx hf => by cases hf]
        exact (hstanding ▸ h.stored).getOrCreate _ _ _
      view := fun v hv => h.view v (by rw [hhandler]; exact hv)
      own := fun _ _ hf => by cases hf
      purchase := by rintro _ (hf | ⟨_, hf⟩) <;> cases hf
      flag := fun _ _ hf => by cases hf
      late := fun _ _ hf => by cases hf
      unsynced := fun hf => by cases hf
      transactions := fun htwo => hgrows.transactions.trans (hrows htwo)
      new := fun _ htx => by cases htx
      unchecked := fun _ => h.unchecked fun tx fl hf => by rw [hhandler] at hf; cases hf
      unposted := fun _ => h.unposted hnew
      posted := fun hposted => absurd rfl hposted }

/-- The copy is dated like the financial transaction, and moves the account of the good. -/
theorem newTransaction_spec {e : Encounter} {good a : Account} (other : Account)
    (href : a.ref = good.ref) :
    (e.newTransaction a other).date = e.financialTransaction.transaction.date ∧
      (e.newTransaction a other).moves good.name = true := by
  have hname : a.name = good.name := congrArg AccountRef.name href
  unfold Encounter.newTransaction
  split <;> exact ⟨rfl, by simp [Transaction.moves, newSale, newPurchase, Account.ref, hname]⟩

/-- The handler posts the copy. -/
theorem Inv.posts (h : Inv P e s good c) {a other : Account}
    (hhandler : c.handler = .paired a other) :
    Inv P e s good { c with
      state := { c.state with
        inventoryBook := { c.state.inventoryBook with
          transactions := c.state.inventoryBook.transactions ++
            [Book.post e.eventEnv.transactionId e.eventEnv.now (e.newTransaction a other)] } }
      handler := .posted a
        (Book.post e.eventEnv.transactionId e.eventEnv.now (e.newTransaction a other))
      order := { c.order with posted := some c.run.progress } } := by
  have hstanding : standing P e good c = leftBy P e good c.order (c.run.moved P) :=
    standing_eq_leftBy fun tx hf => by rw [hhandler] at hf; cases hf
  have hstored := h.stored
  rw [hstanding] at hstored
  have hnew : c.handler.new = none := by rw [hhandler]; rfl
  have hrows := h.transactions
  rw [hnew] at hrows
  obtain ⟨href, -⟩ := h.view a (by rw [hhandler]; rfl)
  obtain ⟨hdate, hmoves⟩ := newTransaction_spec (e := e) other href
  exact
    { h with
      distinct := ⟨h.distinct.accountIds, h.distinct.accountNames⟩
      refs := fun hf => by cases hf
      stored := hstored
      view := fun v hv => h.view v (by rw [hhandler]; exact hv)
      own := fun _ _ hf => by cases hf
      purchase := by rintro _ (hf | ⟨_, hf⟩) <;> cases hf
      flag := fun _ _ hf => by cases hf
      late := fun _ _ hf => by cases hf
      unsynced := fun hf => by cases hf
      transactions := fun htwo => by
        show c.state.inventoryBook.transactions ++ _ = _
        rw [hrows htwo]
        simp [HandlerAt.new]
      new := by
        rintro _ ⟨⟩
        exact ⟨rfl, hdate, hmoves⟩
      unchecked := fun _ => h.unchecked fun tx fl hf => by rw [hhandler] at hf; cases hf
      unposted := fun hnone => by cases hnone
      posted := fun _ htwo => by
        have hcases : c.run.progress = 0 ∨ c.run.progress = 1 := by
          have hlt : c.run.progress < 2 := htwo
          omega
        exact hcases.imp (congrArg some) (congrArg some)
      listed := fun transactions ht => by
        obtain ⟨hlisted, hiff⟩ := h.listed transactions ht
        have hbefore : ¬c.order.beforeListing := by simp [Order.beforeListing, h.unposted hnew]
        have hafter : ¬Order.beforeListing { c.order with posted := some c.run.progress } := by
          rintro (hp | hp) <;> have hp := Option.some.inj hp <;> omega
        refine ⟨hlisted, ?_⟩
        rw [hiff]
        exact ⟨fun hb => absurd hb.1 hbefore, fun ha => absurd ha.1 hafter⟩ }

/-- The handler compares the date, and writes the account that it has read back with the flag. -/
theorem Inv.checks (h : Inv P e s good c) {a : Account} {tx : Transaction}
    (hhandler : c.handler = .posted a tx) :
    Inv P e s good { c with
      state := { c.state with
        inventoryBook := (checkLastTxDate P c.state.inventoryBook a
          e.financialTransaction.transaction).1 }
      handler := .finished tx (checkLastTxDate P c.state.inventoryBook a
        e.financialTransaction.transaction).2
      order := { c.order with checked := some c.run.progress } } := by
  have hstanding : standing P e good c = leftBy P e good c.order (c.run.moved P) :=
    standing_eq_leftBy fun tx hf => by rw [hhandler] at hf; cases hf
  have hstored := h.stored
  rw [hstanding] at hstored
  have hnew : c.handler.new = some tx := by rw [hhandler]; rfl
  have hrows := h.transactions
  rw [hnew] at hrows
  obtain ⟨href, hproperties⟩ := h.view a (by rw [hhandler]; rfl)
  have hmem : (Events.BotService.setNeedsRebuild a).ref ∈ accountRefs c.state.inventoryBook := by
    rw [show (Events.BotService.setNeedsRebuild a).ref = good.ref from href]
    exact h.stored.mem
  have hframe := checkLastTxDate_frame P e.financialTransaction.transaction h.distinct
    (show a.ref ∈ accountRefs c.state.inventoryBook from hmem)
  have hlate : ∀ date, c.run.moved P = some date → some c.run.progress = some 6 := fun date hd =>
    congrArg some (RunAt.progress_of_moved hd)
  have hchecked : Holds (checkLastTxDate P c.state.inventoryBook a
      e.financialTransaction.transaction).1 good.ref
      (standing P e good { c with
        handler := .finished tx (checkLastTxDate P c.state.inventoryBook a
          e.financialTransaction.transaction).2
        order := { c.order with checked := some c.run.progress } }).properties := by
    unfold checkLastTxDate
    by_cases hcalculated : Events.BotService.calculated P a
        e.financialTransaction.transaction.date = true
    · rw [if_pos hcalculated]
      have hflagged : standing P e good { c with
          handler := .finished tx true
          order := { c.order with checked := some c.run.progress } } =
          Events.BotService.setNeedsRebuild
            (handlerView P e good c.order (c.run.moved P)) := by
        unfold standing
        dsimp only
        rw [if_neg]
        · rfl
        · rintro ⟨hmoved, hne⟩
          obtain ⟨date, hdate⟩ := Option.isSome_iff_exists.1 hmoved
          exact hne (hlate date hdate)
      have hset : (Events.BotService.setNeedsRebuild a).properties =
          (Events.BotService.setNeedsRebuild
            (handlerView P e good c.order (c.run.moved P))).properties := by
        simp [Events.BotService.setNeedsRebuild, hproperties]
      rw [hflagged, ← hset]
      exact hstored.update (show _ = _ from href)
    · rw [if_neg hcalculated]
      exact hstored
  exact
    { h with
      distinct := ⟨hframe.2.2 ▸ h.distinct.accountIds, hframe.2.2 ▸ h.distinct.accountNames⟩
      refs := fun hf => by cases hf
      stored := hchecked
      view := fun _ hf => by cases hf
      own := fun _ _ hf => by cases hf
      purchase := by rintro _ (hf | ⟨_, hf⟩) <;> cases hf
      flag := by
        rintro _ _ ⟨⟩
        show _ = Events.BotService.calculated P (handlerView P e good c.order (c.run.moved P)) _
        rw [← calculated_congr P hproperties]
        unfold checkLastTxDate
        split
        · exact Eq.symm ‹_›
        · exact (Bool.eq_false_iff.2 ‹_›).symm
      early := fun hsix => ⟨(h.early hsix).1, (h.early hsix).2.1,
        fun hnow => absurd (Option.some.inj hnow) (Nat.ne_of_lt hsix)⟩
      late := fun _ _ _ hsix => by
        refine congrArg some ?_
        by_contra hne
        have hle := RunAt.progress_le c.run
        exact (h.early (by omega)).2.1 hsix
      unsynced := fun hf => by cases hf
      transactions := fun htwo => hframe.1.trans (hrows htwo)
      new := by
        rintro _ ⟨⟩
        exact h.new tx hnew
      unchecked := fun hf => absurd rfl (hf _ _)
      unposted := fun hnone => by cases hnone
      posted := fun _ htwo => h.posted (by rw [hnew]; simp) htwo }

/-- Every call of the handler keeps the invariant. -/
theorem Inv.handler (h : Inv P e s good c) (hmeets : Meets e s.inventoryBook good) :
    Inv P e s good (c.step P e .handler) := by
  obtain ⟨state, run, handler, order⟩ := c
  cases handler with
  | start =>
    obtain ⟨a, hfound, ha, href⟩ := h.found hmeets rfl
    cases harrival : e.arrival with
    | sale =>
      have hstep : handlerStep P e state.inventoryBook .start = (state.inventoryBook, .ready a) := by
        simp only [handlerStep, hfound, harrival]
      rw [step_handler hstep]
      exact h.read rfl ha href (Or.inl rfl)
    | purchase financialDebitAccount =>
      have hstep : handlerStep P e state.inventoryBook .start = (state.inventoryBook, .read a) := by
        simp only [handlerStep, hfound, harrival]
      rw [step_handler hstep]
      exact h.read rfl ha href (Or.inr ⟨rfl, by simp [harrival]⟩)
  | read a =>
    obtain ⟨own, hfound, -, hown⟩ := h.found hmeets rfl
    have hstep : handlerStep P e state.inventoryBook (.read a) =
        (state.inventoryBook, .fetched a (if P.sharesAccounts then a else own)) := by
      simp only [handlerStep, hfound]
    rw [step_handler hstep]
    refine h.fetched rfl ?_
    split
    · exact (h.view a rfl).1
    · exact hown
  | fetched a own =>
    have hown := h.own a own rfl
    cases harrival : e.arrival with
    | sale => exact absurd harrival (h.purchase a (Or.inr ⟨own, rfl⟩))
    | purchase financialDebitAccount =>
      obtain ⟨htransactions, -, haccounts⟩ :=
        connectGroups_frame financialDebitAccount.groups state.inventoryBook
      let connected := connectGroups financialDebitAccount.groups state.inventoryBook
      let new : Account := { e.synced own with groups := own.groups ++ connected.2 }
      have hstep : handlerStep P e state.inventoryBook (.fetched a own) =
          (connected.1.updateAccount new, .ready (if P.sharesAccounts then new else a)) := by
        simp only [handlerStep, harrival, new, connected]
      have href : new.ref = good.ref := by
        simpa only [new, Encounter.synced, harrival, Account.ref] using hown
      have hproperties : new.properties = (e.synced good).properties := by
        simp only [new, Encounter.synced, harrival]
      rw [step_handler hstep]
      exact h.synced rfl haccounts htransactions href hproperties
  | ready a => exact h.paired hmeets rfl
  | paired a other => exact h.posts rfl
  | posted a tx => exact h.checks rfl
  | finished tx needsRebuild => exact h
  | threw exception => exact h

/-- The invariant holds along every schedule. -/
theorem Inv.interleave (h : Inv P e s good c) (hmeets : Meets e s.inventoryBook good)
    (schedule : List Party) : Inv P e s good (interleave P e schedule c) := by
  induction schedule generalizing c with
  | nil => exact h
  | cons party schedule ih =>
    rw [interleave_cons]
    cases party with
    | run => exact ih (h.run hmeets)
    | handler => exact ih (h.handler hmeets)

end Steps

end InventoryBot.System
