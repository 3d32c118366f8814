import InventoryBot.Events.EventHandler
import InventoryBot.Events.Index

/-!
# The answer to an event

Models of the texts of `events/src/InterceptorOrderProcessorDelete.ts` and of what `handleEvent` in
`index.ts` answers. The checks share their texts with `EventHandler`.

* `deleteResults`: the lines of the answer to a deletion.
* `answer`: the books after an event and what the webhook answers to it.
-/

namespace InventoryBot.Events

open Lib Menu

/-- How the client library writes the date of a transaction in the pattern of its book, too. -/
structure AnswerTexts extends Texts where
  dateFormatted : Date → String

/-! ## Deletions -/

/-- `buildDeleteResponse` (lines 66–68). -/
def buildDeleteResponse (T : AnswerTexts) (tx : Transaction) : String :=
  "DELETED: " ++ T.dateFormatted tx.date ++ " " ++ T.amount tx.amount ++ " " ++
    accountName tx.creditAccount ++ " " ++ accountName tx.debitAccount ++ " " ++ tx.description

/-- `buildDeleteResults` (lines 57–64), for one transaction. -/
def buildDeleteResult (T : AnswerTexts) (book : Option BookInfo) (response : Transaction) :
    String :=
  match book with
  | some book => BotService.buildBookAnchor book ++ ": " ++ buildDeleteResponse T response
  | none => buildDeleteResponse T response

/-- The text of a flag: with the name of the account (`InterceptorOrderProcessorDeleteGoods.ts`,
    line 38, and `InterceptorOrderProcessorDeleteFinancial.ts`, line 59), or with an anchor
    (`BotService.ts`, lines 141 and 152). -/
def flagText (inventoryBook : Option BookInfo) : Option String → String
  | some accountName => "Flagging account " ++ accountName ++ " for rebuild"
  | none => match inventoryBook with
    | some inventoryBook =>
      BotService.buildBookAnchor inventoryBook ++ ": Flagging account for rebuild"
    | none => "Flagging account for rebuild"

/-- The line of a note, when deleted transactions are shown in `book`. -/
def noteText (T : AnswerTexts) (inventoryBook book : Option BookInfo) : DeleteNote → String
  | .deleted transaction => buildDeleteResult T book transaction
  | .flagged account => flagText inventoryBook account

/-- The book that the deleted transactions are shown in: none for the splits of a purchase, the
    financial book for the cost of a sale, and the book of a financial event. -/
def deleteAnchor (collection : Option (List BookInfo)) (inventoryBook : Book) (event : Event) :
    Option BookInfo :=
  if BotService.isInventoryBook event.book then
    event.transaction.bind fun transactionPayload =>
      if transactionPayload.transaction.originalQuantity.isSome then none
      else (InterceptorOrderProcessorDeleteGoods.getGoodAccount inventoryBook
        transactionPayload).bind fun goodAccount =>
          BotService.getFinancialBook collection (Menu.BotService.getExchangeCode goodAccount)
  else some event.book

/-- The lines of the answer to a deletion. -/
def deleteResults (T : AnswerTexts) (collection : Option (List BookInfo)) (inventoryBook : Book)
    (event : Event) (notes : List DeleteNote) : List String :=
  notes.map (noteText T (BotService.getInventoryBook collection)
    (deleteAnchor collection inventoryBook event))

/-- `EventHandlerTransactionDeleted.handleEvent` (`EventHandler.ts`, lines 22–68). Without a result
    of the interceptor it goes on to `processObject`, which says nothing about a deletion. -/
def EventHandlerTransactionDeleted.handleEvent (P : Platform) (T : AnswerTexts)
    (collection : Option (List BookInfo)) (s : State) (event : Event) : State × Result :=
  match EventHandlerTransactionDeleted.intercept P collection s event with
  | (s', []) =>
    match BotService.getInventoryBook collection with
    | some _ => (s', {})
    | none => (s', handlerResult P T.toTexts s.inventoryBook.info .inventoryBookNotFound)
  | (s', notes) =>
    (s', { result := deleteResults T collection s.inventoryBook event notes })

/-! ## `index.ts` -/

/-- `handleEvent` (lines 52–83): the books after an event, and the result that is sent. -/
def answer (P : Platform) (T : AnswerTexts) (collection : Option (List BookInfo)) (env : EventEnv)
    (s : State) (event : Event) : State × Result :=
  match event.type with
  | .posted =>
    let (inventoryBook, response) :=
      EventHandlerTransactionPosted.handleEvent s.inventoryBook event
    ({ s with inventoryBook := inventoryBook },
      handlerResult P T.toTexts s.inventoryBook.info response)
  | .checked =>
    let eventBook :=
      if BotService.isInventoryBook event.book then s.inventoryBook else s.financialBook
    let (inventoryBook, response) :=
      EventHandlerTransactionChecked.handleEvent P collection env eventBook s.inventoryBook event
    ({ s with inventoryBook := inventoryBook },
      handlerResult P T.toTexts s.inventoryBook.info response)
  | .unchecked =>
    let (inventoryBook, response) :=
      EventHandlerTransactionUnchecked.handleEvent s.inventoryBook event
    ({ s with inventoryBook := inventoryBook },
      handlerResult P T.toTexts s.inventoryBook.info response)
  | .deleted => EventHandlerTransactionDeleted.handleEvent P T collection s event

section Answer

variable {P : Platform} {T : AnswerTexts} {collection : Option (List BookInfo)} {env : EventEnv}
  {s : State} {event : Event}

/-- The books after a deletion are those that the interceptor leaves. -/
theorem deleted_handleEvent_fst :
    (EventHandlerTransactionDeleted.handleEvent P T collection s event).1 =
      (EventHandlerTransactionDeleted.intercept P collection s event).1 := by
  unfold EventHandlerTransactionDeleted.handleEvent
  generalize EventHandlerTransactionDeleted.intercept P collection s event = intercepted
  obtain ⟨s', notes⟩ := intercepted
  cases notes with
  | nil => cases BotService.getInventoryBook collection <;> rfl
  | cons note notes => rfl

/-- The books after an event are those of `handleEvent`. -/
theorem answer_fst : (answer P T collection env s event).1 =
    handleEvent P collection env s event := by
  unfold answer handleEvent
  cases event.type with
  | posted | checked | unchecked => rfl
  | deleted => exact deleted_handleEvent_fst

/-- What the handler reads from a text is never the answer whose result is `false`. -/
theorem handleResponse_ne {text : String} (h : text ≠ "") : handleResponse text ≠ {} := by
  unfold handleResponse
  rw [if_neg h]
  generalize (if includes text "WARNING" then ((splitText text)[1]?, (splitText text).headD "")
    else (none, text)) = parts
  obtain ⟨warningMsg, response⟩ := parts
  dsimp only
  split <;> simp

/-- The handlers of checks are silent only with nothing to say. -/
theorem handlerResult_eq_empty {inventoryBook : BookInfo} {response : Response}
    (h : handlerResult P T.toTexts inventoryBook response = {}) : response = .silent := by
  cases response with
  | silent => rfl
  | flagged | inventoryBookNotFound | postedInInventoryBook | error => simp [handlerResult] at h
  | found tx =>
    refine absurd h (handleResponse_ne ?_)
    simp [connectedTransactionText, needsRebuild, recordLine]
  | sell tx flag | buy tx flag | credit tx flag =>
    refine absurd h (handleResponse_ne ?_)
    unfold connectedTransactionText
    split <;> simp [recordLine]

end Answer

end InventoryBot.Events
