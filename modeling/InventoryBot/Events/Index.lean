import InventoryBot.Events.InterceptorOrderProcessorDelete

/-!
# Handling an event

Models of `events/src/EventHandler.ts`, `EventHandlerTransactionPosted.ts`,
`EventHandlerTransactionUnchecked.ts` and of the dispatch in `index.ts`. The state shows the
inventory book and one financial book: that of the event, or for an event of the inventory book
the one that the exchange code of the good resolves to.

* `handleEvent`: one event of a book of the collection, handled to its end.
-/

namespace InventoryBot.Events

open Lib Menu

/-- `EventHandlerTransactionPosted.handleEvent` (lines 15–37). -/
def EventHandlerTransactionPosted.handleEvent (inventoryBook : Book) (event : Event) :
    Book × Response :=
  if BotService.isInventoryBook event.book then
    match event.transaction with
    | none => (inventoryBook, .silent)
    | some transactionPayload =>
      match (inventoryBook.getTransactions (.id transactionPayload.transaction.id)).head? with
      | some transaction =>
        (BotService.uncheckAndTrash inventoryBook transaction, .postedInInventoryBook)
      | none => (inventoryBook, .postedInInventoryBook)
  else (inventoryBook, .silent)

/-- `EventHandlerTransactionChecked.handleEvent` (`EventHandler.ts`, lines 22–68). -/
def EventHandlerTransactionChecked.handleEvent (P : Platform) (collection : Option (List BookInfo))
    (env : EventEnv) (eventBook inventoryBook : Book) (event : Event) : Book × Response :=
  match InterceptorFlagRebuild.intercept inventoryBook event with
  | (inventoryBook, .flagged accountName) => (inventoryBook, .flagged accountName)
  | (inventoryBook, _) =>
    match BotService.getInventoryBook collection with
    | none => (inventoryBook, .inventoryBookNotFound)
    | some _ =>
      match processObject P env eventBook inventoryBook event with
      | .ok result => result
      | .error e => (inventoryBook, .error e)

/-- `EventHandlerTransactionUnchecked.handleEvent` (lines 17–24). -/
def EventHandlerTransactionUnchecked.handleEvent (inventoryBook : Book) (event : Event) :
    Book × Response :=
  InterceptorFlagRebuild.intercept inventoryBook event

/-- `handleEvent` (`index.ts`, lines 52–83): the books after an event. -/
def handleEvent (P : Platform) (collection : Option (List BookInfo)) (env : EventEnv) (s : State)
    (event : Event) : State :=
  match event.type with
  | .posted =>
    { s with inventoryBook := (EventHandlerTransactionPosted.handleEvent s.inventoryBook event).1 }
  | .checked =>
    let eventBook :=
      if BotService.isInventoryBook event.book then s.inventoryBook else s.financialBook
    { s with
      inventoryBook := (EventHandlerTransactionChecked.handleEvent P collection env eventBook
        s.inventoryBook event).1 }
  | .unchecked =>
    { s with
      inventoryBook := (EventHandlerTransactionUnchecked.handleEvent s.inventoryBook event).1 }
  | .deleted => (EventHandlerTransactionDeleted.intercept P collection s event).1

/-! ## Events of a financial book -/

section Financial

variable {P : Platform} {collection : Option (List BookInfo)} {env : EventEnv} {s : State}
  {event : Event}

/-- The interceptor for changes in the inventory book lets other books pass. -/
theorem intercept_of_financial (b : Book) (h : BotService.isInventoryBook event.book = false) :
    InterceptorFlagRebuild.intercept b event = (b, .silent) := by
  simp [InterceptorFlagRebuild.intercept, h]

/-- Posting or unchecking a financial transaction changes nothing. -/
theorem handleEvent_posted_financial (h : BotService.isInventoryBook event.book = false)
    (htype : event.type = .posted) : handleEvent P collection env s event = s := by
  simp [handleEvent, htype, EventHandlerTransactionPosted.handleEvent, h]

theorem handleEvent_unchecked_financial (h : BotService.isInventoryBook event.book = false)
    (htype : event.type = .unchecked) : handleEvent P collection env s event = s := by
  simp [handleEvent, htype, EventHandlerTransactionUnchecked.handleEvent,
    intercept_of_financial _ h]

/-- Checking a financial transaction replicates it, if that does not throw. -/
theorem handleEvent_checked_financial (h : BotService.isInventoryBook event.book = false)
    (htype : event.type = .checked) (hcollection : BotService.getInventoryBook collection ≠ none) :
    handleEvent P collection env s event =
      match processObject P env s.financialBook s.inventoryBook event with
      | .ok (b, _) => { s with inventoryBook := b }
      | .error _ => s := by
  obtain ⟨info, hinfo⟩ := Option.ne_none_iff_exists'.1 hcollection
  simp only [handleEvent, htype, EventHandlerTransactionChecked.handleEvent,
    intercept_of_financial _ h, hinfo, h, Bool.false_eq_true, if_false]
  cases processObject P env s.financialBook s.inventoryBook event <;> rfl

end Financial

end InventoryBot.Events
