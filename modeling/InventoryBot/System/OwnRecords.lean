import InventoryBot.Menu.Bot
import InventoryBot.System.ManualChanges

/-!
# The records of the bot

The bot keeps records in all books of the collection: the copies and the splits in the inventory
book and the cost of sales transactions in the financial books. Checking one of them sends an event
like any other, and the event of an inventory transaction passes the interceptor and reaches the
replication. None of the places that create a record writes a `quantity`, and nothing adds one
later, so the replication stops.

* `BotStep`: what happens in the books of a collection.
* `ownRecords_of_steps`: no record of the bot has a quantity in a reached state.
* `ownRecord_not_replicated`: a check of a record of the bot creates no transaction.
-/

namespace InventoryBot.System

open Lib Menu Events CostOfSalesService

/-- An event, handled on the inventory book and the book of the event. -/
def onEvent (P : Platform) (collection : Option (List BookInfo)) (env : EventEnv) (w : Books)
    (event : Event) : Books :=
  let s := handleEvent P collection env ⟨w.inventoryBook, w.financialBook event.book.id⟩ event
  { w with
    inventoryBook := s.inventoryBook
    financialBook := Function.update w.financialBook event.book.id s.financialBook }

/-- What happens in the books of a collection: the webhook handles a check in any book, the menu
    calculates or resets an account, and users change the financial books, except for what the bot
    records there. -/
inductive BotStep (P : Platform) (collection : Option (List BookInfo)) : Books → Books → Prop
  | check {w : Books} {env : EventEnv} {event : Event} (htype : event.type = .checked)
      (hfresh : EventFresh env w.inventoryBook) :
      BotStep P collection w (onEvent P collection env w event)
  | calculate {w : Books} {env : RunEnv} {goodAccountId : String} {toDate : Option Date}
      (hfresh : ∀ id, env.Fresh ⟨w.inventoryBook, w.financialBook id⟩) :
      BotStep P collection w (w.onAccount collection (fun s goodAccountId =>
        calculateCostOfSalesForAccount P collection env s goodAccountId toDate) goodAccountId).1
  | reset {w : Books} {goodAccountId : String} :
      BotStep P collection w
        (w.onAccount collection (resetCostOfSalesForAccount P collection) goodAccountId).1
  | record {w : Books} {financialBook : String → Book}
      (hkept : ∀ id, ∀ t ∈ (financialBook id).transactions, ofBot t = true →
        t ∈ (w.financialBook id).transactions) :
      BotStep P collection w { w with financialBook := financialBook }

/-- The books before the bot has recorded anything. -/
structure BeforeBot (w : Books) : Prop where
  complete : Complete w.inventoryBook
  inventory : ∀ t ∈ w.inventoryBook.transactions, ofBot t = false
  financial : ∀ id, ∀ t ∈ (w.financialBook id).transactions, ofBot t = false

/-- The records of the bot in the books have no quantity. -/
structure OwnRecords (w : Books) : Prop where
  inventory : ManagedBook w.inventoryBook
  financial : ∀ id, ∀ t ∈ (w.financialBook id).transactions, ofBot t = true → t.quantity = none

/-! ## A check -/

section Check

variable {P : Platform} {env : EventEnv} {b : Book} {event : Event}

/-- The interceptor lets an event pass or flags an account of the book. -/
theorem intercept_cases (b : Book) (event : Event) :
    InterceptorFlagRebuild.intercept b event = (b, .silent) ∨ ∃ a ∈ b.accounts,
      InterceptorFlagRebuild.intercept b event =
        (b.updateAccount (Events.BotService.setNeedsRebuild a), .flagged a.name) := by
  unfold InterceptorFlagRebuild.intercept
  split
  · split
    · exact Or.inl rfl
    · dsimp only
      split
      · rename_i a hgood
        split
        · obtain ⟨t, -, hgood⟩ := Option.bind_eq_some_iff.1 hgood
          rw [getGoodAccount_eq] at hgood
          obtain ⟨r, -, hfound⟩ := Option.bind_eq_some_iff.1 hgood
          exact Or.inr ⟨a, Book.mem_of_getAccount hfound, rfl⟩
        · exact Or.inl rfl
      · exact Or.inl rfl
  · exact Or.inl rfl

/-- A check is handled by flagging an account, by the replication, or not at all. -/
inductive CheckHandled (P : Platform) (env : EventEnv) (b : Book) (event : Event) (b' : Book) : Prop
  | flagged (a : Account) (ha : a ∈ b.accounts)
      (hbook : b' = b.updateAccount (Events.BotService.setNeedsRebuild a))
  | processed (eventBook : Book) (response : Response)
      (hhandled : processObject P env eventBook b event = .ok (b', response))
  | unhandled (hbook : b' = b)

theorem handleEvent_checked (P : Platform) (collection : Option (List BookInfo)) (env : EventEnv)
    (s : State) (htype : event.type = .checked) :
    CheckHandled P env s.inventoryBook event
        (handleEvent P collection env s event).inventoryBook ∧
      (handleEvent P collection env s event).financialBook = s.financialBook := by
  unfold handleEvent EventHandlerTransactionChecked.handleEvent
  rw [htype]
  dsimp only
  refine ⟨?_, rfl⟩
  rcases intercept_cases s.inventoryBook event with hpass | ⟨a, ha, hflag⟩
  · rw [hpass]
    dsimp only
    split
    · exact .unhandled rfl
    · generalize hhandled : processObject P env _ s.inventoryBook event = result
      cases result with
      | error e => exact .unhandled rfl
      | ok result => exact .processed _ _ hhandled
  · rw [hflag]
    exact .flagged a ha rfl

theorem ManagedBook.updateAccount (hb : ManagedBook b) {a : Account} (ha : a.ref ∈ accountRefs b) :
    ManagedBook (b.updateAccount a) :=
  ⟨hb.complete.of_refs (accountRefs_updateAccount hb.complete.accountIds ha) hb.complete.ids
    fun u hu => ⟨u, hu, rfl, rfl⟩, hb.rows⟩

/-- A check adds to the records only copies without a quantity. -/
theorem CheckHandled.managedBook {b' : Book} (h : CheckHandled P env b event b')
    (hb : ManagedBook b) (hfresh : EventFresh env b) : ManagedBook b' := by
  cases h with
  | flagged a ha hbook =>
    rw [hbook]
    exact hb.updateAccount (List.mem_map_of_mem ha : a.ref ∈ accountRefs b)
  | processed eventBook response hhandled =>
    have hstep : SystemStep P none ⟨b, b⟩ ⟨b', b⟩ := .check (s := ⟨b, b⟩) hfresh hhandled
    exact hstep.managedBook hb
  | unhandled hbook => rwa [hbook]

/-- A check of a transaction without quantity changes no transaction. -/
theorem CheckHandled.transactions {b' : Book} {payload : Payload} (h : CheckHandled P env b event b')
    (hevent : event.transaction = some payload)
    (hquantity : payload.transaction.quantity = none) : b'.transactions = b.transactions := by
  cases h with
  | flagged a ha hbook =>
    rw [hbook]
    rfl
  | processed eventBook response hhandled =>
    have hsilent : ∃ answer, processObject P env eventBook b event = .ok (b, answer) :=
      processObject_noQuantity hevent hquantity
    obtain ⟨answer, hsilent⟩ := hsilent
    rw [hsilent] at hhandled
    cases hhandled
    rfl
  | unhandled hbook => rw [hbook]

end Check

/-! ## A run of the menu -/

section Menu

variable {P : Platform} {collection : Option (List BookInfo)} {env : RunEnv} {s : State}
  {goodAccountId : String}

/-- A cost of sales transaction is posted without a quantity. -/
theorem Moves.posted_quantity {fb : Book} {digits : ℕ} {account : String} {before : Date}
    {closes : ℚ → Prop} {d d' : Desk} (h : Moves P env fb digits account before closes d d')
    (hd : ∀ t ∈ d.posted, t.quantity = none) : ∀ t ∈ d'.posted, t.quantity = none := by
  refine h.preserves (I := fun d => ∀ t ∈ d.posted, t.quantity = none) ?_ hd
  intro d d' hmove hd
  cases hmove with
  | closeSale =>
    intro t ht
    rcases List.mem_append.1 ht with ht | ht
    · exact hd t ht
    · rw [List.mem_singleton.1 ht]
      rfl
  | _ => exact hd

/-- A reset posts nothing in the financial book. -/
theorem financial_of_reset (hs : Complete s.inventoryBook) {t : Transaction}
    (ht : t ∈ (resetCostOfSalesForAccount P collection s goodAccountId).1.financialBook.transactions) :
    t ∈ s.financialBook.transactions := by
  rcases reset_cases (P := P) collection goodAccountId hs.ids with
    ⟨hsame, -⟩ | ⟨-, goodAccount, hdone⟩
  · rwa [hsame] at ht
  · obtain ⟨processor, -, hfinancial⟩ := hdone.loop
    rw [hfinancial] at ht
    exact List.mem_of_mem_filter ht

/-- What a calculation posts in the financial book has no quantity. -/
theorem financial_of_calculate (hs : Complete s.inventoryBook) (hfresh : env.Fresh s)
    (toDate : Option Date) {t : Transaction}
    (ht : t ∈ (calculateCostOfSalesForAccount P collection env s goodAccountId
      toDate).1.financialBook.transactions) :
    t ∈ s.financialBook.transactions ∨ t.quantity = none := by
  rcases calculate_cases P collection env s goodAccountId toDate with
    hsame | hsame | ⟨-, hsame⟩ | ⟨goodAccount, sales, processor, hplan, -⟩
  · rw [hsame] at ht
    exact Or.inl ht
  · rw [hsame] at ht
    exact Or.inl ht
  · rw [hsame] at ht
    exact Or.inl (financial_of_reset hs ht)
  · obtain ⟨d, hfires⟩ := calculation_fires (fun _ => True) hs.wellFormed hfresh hplan
      fun _ _ _ => Or.inl fun _ => trivial
    rw [hfires.financial, List.mem_append] at ht
    refine ht.imp id fun hposted => ?_
    obtain ⟨k, u, hu, rfl⟩ := Book.mem_postAll hposted
    exact Moves.posted_quantity hfires.moves (by simp [Desk.start]) u hu

end Menu

/-! ## Every step -/

section Steps

variable {P : Platform} {collection : Option (List BookInfo)} {w w' : Books}

/-- A check writes in the inventory book only. -/
theorem onEvent_financialBook {env : EventEnv} {event : Event} (htype : event.type = .checked)
    (w : Books) : (onEvent P collection env w event).financialBook = w.financialBook := by
  have hfinancial := (handleEvent_checked P collection env
    ⟨w.inventoryBook, w.financialBook event.book.id⟩ htype).2
  simp only [onEvent, hfinancial, Function.update_eq_self]

theorem OwnRecords.of_beforeBot (h : BeforeBot w) : OwnRecords w := by
  refine ⟨⟨h.complete, fun t ht hbot => ?_⟩, fun id t ht hbot => ?_⟩
  · rw [h.inventory t ht] at hbot
    cases hbot
  · rw [h.financial id t ht] at hbot
    cases hbot

/-- A call for an account keeps the records without a quantity if it does so on the two books that
    it opens. -/
theorem OwnRecords.onAccount {call : State → String → State × Outcome} {goodAccountId : String}
    (hw : OwnRecords w)
    (hcall : ∀ id, let s : State := ⟨w.inventoryBook, w.financialBook id⟩
      ManagedBook (call s goodAccountId).1.inventoryBook ∧
        ∀ t ∈ (call s goodAccountId).1.financialBook.transactions,
          t ∈ s.financialBook.transactions ∨ t.quantity = none) :
    OwnRecords (w.onAccount collection call goodAccountId).1 := by
  unfold Books.onAccount
  cases w.financialBookOf collection goodAccountId with
  | none => exact hw
  | some info =>
    obtain ⟨hinventory, hfinancial⟩ := hcall info.id
    refine ⟨hinventory, fun id t ht hbot => ?_⟩
    dsimp only at ht
    rw [Function.update_apply] at ht
    split at ht
    · rcases hfinancial t ht with hold | hnone
      · exact hw.financial info.id t hold hbot
      · exact hnone
    · exact hw.financial id t ht hbot

/-- Every step keeps the records of the bot without a quantity. -/
theorem BotStep.ownRecords (hstep : BotStep P collection w w') (hw : OwnRecords w) :
    OwnRecords w' := by
  cases hstep with
  | @check env event htype hfresh =>
    have hhandled := (handleEvent_checked P collection env
      ⟨w.inventoryBook, w.financialBook event.book.id⟩ htype).1
    refine ⟨hhandled.managedBook hw.inventory hfresh, fun id t ht hbot => ?_⟩
    rw [onEvent_financialBook htype] at ht
    exact hw.financial id t ht hbot
  | @calculate env goodAccountId toDate hfresh =>
    refine hw.onAccount fun id => ⟨?_, fun t ht => ?_⟩
    · exact ManagedBook.calculate (s := ⟨w.inventoryBook, w.financialBook id⟩) hw.inventory
        (hfresh id) goodAccountId toDate
    · exact financial_of_calculate hw.inventory.complete (hfresh id) toDate ht
  | @reset goodAccountId =>
    refine hw.onAccount fun id => ⟨?_, fun t ht => ?_⟩
    · exact ManagedBook.reset (s := ⟨w.inventoryBook, w.financialBook id⟩) hw.inventory
        goodAccountId
    · exact Or.inl (financial_of_reset hw.inventory.complete ht)
  | record hkept =>
    exact ⟨hw.inventory, fun id t ht hbot => hw.financial id t (hkept id t ht hbot) hbot⟩

/-- No record of the bot has a quantity in a reached state. -/
theorem ownRecords_of_steps (hw : OwnRecords w)
    (hsteps : Relation.ReflTransGen (BotStep P collection) w w') : OwnRecords w' := by
  induction hsteps with
  | refl => exact hw
  | tail _ hstep ih => exact hstep.ownRecords ih

/-- A record of the bot: a transaction of the inventory book or of a financial book that the bot
    has created. -/
def IsOwnRecord (w : Books) (t : Transaction) : Prop :=
  ofBot t = true ∧ (t ∈ w.inventoryBook.transactions ∨ ∃ id, t ∈ (w.financialBook id).transactions)

theorem OwnRecords.quantity (hw : OwnRecords w) {t : Transaction} (ht : IsOwnRecord w t) :
    t.quantity = none := by
  obtain ⟨hbot, ht | ⟨id, ht⟩⟩ := ht
  · exact (hw.inventory.rows t ht hbot).quantity
  · exact hw.financial id t ht hbot

/-- A check of a record of the bot in a reached state creates no transaction, and changes none, in
    any book of the collection, whatever the books are by the time it is handled. -/
theorem ownRecord_not_replicated {w₀ : Books} (hstart : BeforeBot w₀)
    (hsteps : Relation.ReflTransGen (BotStep P collection) w₀ w) {t : Transaction}
    (ht : IsOwnRecord w t) {event : Event} {payload : Payload} {checked : Bool}
    (htype : event.type = .checked) (hevent : event.transaction = some payload)
    (hshows : payload.transaction = { t with checked := checked }) (env : EventEnv) (w' : Books) :
    (onEvent P collection env w' event).inventoryBook.transactions = w'.inventoryBook.transactions ∧
      (onEvent P collection env w' event).financialBook = w'.financialBook := by
  have hquantity : payload.transaction.quantity = none := by
    rw [hshows]
    show t.quantity = none
    exact (ownRecords_of_steps (.of_beforeBot hstart) hsteps).quantity ht
  have hhandled := (handleEvent_checked P collection env
    ⟨w'.inventoryBook, w'.financialBook event.book.id⟩ htype).1
  exact ⟨hhandled.transactions hevent hquantity, onEvent_financialBook htype w'⟩

end Steps

namespace Sample

/-- The checked purchase and the checked sale, before the bot has seen them. -/
def userBooks : Menu.Books where
  inventoryBook := emptyBook
  financialBook := fun _ =>
    { dollarBook "USD" with
      transactions := [(purchase "USD").transaction, (sale "4").transaction] }

/-- The event of a check in the dollar book. -/
def checkedInDollars (t : Payload) : Event :=
  { type := .checked, book := dollars, transaction := some t }

def booksPurchased : Menu.Books :=
  onEvent decimalPlatform books eventEnv userBooks (checkedInDollars (purchase "USD"))

def booksSold : Menu.Books :=
  onEvent decimalPlatform books saleEnv booksPurchased (checkedInDollars (sale "4"))

/-- The books after both are replicated and the cost of sales is calculated. -/
def booksCalculated : Menu.Books :=
  (booksSold.onAccount books (fun s goodAccountId =>
    calculateCostOfSalesForAccount decimalPlatform books runEnv s goodAccountId (some 9))
      "a-widgets").1

theorem beforeBot_userBooks : BeforeBot userBooks := by
  refine ⟨emptyBook_complete, by simp [userBooks, emptyBook], fun id t ht => ?_⟩
  have hall : ∀ t ∈ [(purchase "USD").transaction, (sale "4").transaction], ofBot t = false := by
    decide
  exact hall t ht

theorem financialBook_booksSold : booksSold.financialBook = userBooks.financialBook := by
  rw [booksSold, onEvent_financialBook rfl, booksPurchased, onEvent_financialBook rfl]

theorem booksCalculated_steps :
    Relation.ReflTransGen (BotStep decimalPlatform books) userBooks booksCalculated := by
  have hstart : EventFresh eventEnv userBooks.inventoryBook :=
    ⟨by decide, by decide, by decide, by decide⟩
  have hbought : EventFresh saleEnv booksPurchased.inventoryBook :=
    ⟨by decide +kernel, by decide, by decide +kernel, by decide +kernel⟩
  have hrun : ∀ id, runEnv.Fresh ⟨booksSold.inventoryBook, booksSold.financialBook id⟩ := by
    intro id
    have hsame : userBooks.financialBook id = userBooks.financialBook dollars.id := rfl
    rw [financialBook_booksSold, hsame]
    exact ⟨Book.freshIds_unaryId (by decide +kernel), Book.freshIds_unaryId (by decide +kernel),
      Book.freshIds_unaryId (by decide +kernel)⟩
  have h₁ : BotStep decimalPlatform books userBooks booksPurchased := .check rfl hstart
  have h₂ : BotStep decimalPlatform books booksPurchased booksSold := .check rfl hbought
  have h₃ : BotStep decimalPlatform books booksSold booksCalculated := .calculate hrun
  exact .tail (.tail (.single h₁) h₂) h₃

/-- The cost of sales of the four widgets is checked in the dollar book, with the accounts between
    which it is posted, and stays the only one. -/
theorem cogs_not_replicated : ∃ w t event credit debit, IsOwnRecord w t ∧
    t.quantitySold = some 4 ∧
    event.transaction = some ⟨{ t with checked := true }, some credit, some debit⟩ ∧
    t.creditAccount = some credit.ref ∧ t.debitAccount = some debit.ref ∧
      (onEvent decimalPlatform books laterEnv w event).inventoryBook.transactions =
        w.inventoryBook.transactions ∧
      (onEvent decimalPlatform books laterEnv w event).financialBook = w.financialBook := by
  have hcogs : ∃ t ∈ (booksCalculated.financialBook dollars.id).transactions,
      ofBot t = true ∧ t.quantitySold = some 4 ∧
        ∃ credit ∈ (booksCalculated.financialBook dollars.id).accounts,
          ∃ debit ∈ (booksCalculated.financialBook dollars.id).accounts,
            t.creditAccount = some credit.ref ∧ t.debitAccount = some debit.ref := by
    decide +kernel
  obtain ⟨t, ht, hbot, hsold, credit, -, debit, -, hcredit, hdebit⟩ := hcogs
  have hrecord : IsOwnRecord booksCalculated t := ⟨hbot, Or.inr ⟨dollars.id, ht⟩⟩
  exact ⟨booksCalculated, t,
    checkedInDollars ⟨{ t with checked := true }, some credit, some debit⟩, credit, debit, hrecord,
    hsold, rfl, hcredit, hdebit, ownRecord_not_replicated beforeBot_userBooks
      booksCalculated_steps hrecord rfl rfl rfl laterEnv booksCalculated⟩

end Sample

end InventoryBot.System
