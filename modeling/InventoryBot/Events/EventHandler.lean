import InventoryBot.Events.Index
import InventoryBot.Lib.Split

/-!
# The reported outcome

Models of the texts of `EventHandlerTransactionChecked.ts` and of `EventHandler.ts`, lines 22–68.
The handler of a check packs the record of what it posted and a warning into one text, and
`handleEvent` takes them apart again.

* `connectedTransactionText`: the text of what the handler has posted or found.
* `handleResponse`: the outcome that is read from a text.
* `reported_iff`: when the outcome that is read is the one that was written.
-/

namespace InventoryBot.Events

open Lib Menu

/-! ## `index.ts` -/

/-- `Result` (lines 28–32). No text is `false` or a missing one, and a single one stands for
    itself. -/
structure Result where
  result : List String := []
  error : Option String := none
  warning : Option String := none
  deriving DecidableEq

/-! ## The texts of a check -/

/-- How the client library and the runtime write amounts and exceptions. -/
structure Texts where
  amount : ℚ → String
  exception : Exception → String

/-- `BotService.buildBookAnchor` (lines 114–116). -/
def BotService.buildBookAnchor (book : BookInfo) : String :=
  "<a href='https://app.bkper.com/b/#transactions:bookId=" ++ book.id ++ "'>" ++ book.name ++ "</a>"

/-- `Account.getName`, of an account that a transaction shows. -/
def accountName (account : Option AccountRef) : String :=
  (account.map AccountRef.name).getD "undefined"

/-- `record`: date, amount, two accounts and the description of a transaction. -/
def record (P : Platform) (T : Texts) (account₁ account₂ : Option AccountRef) (tx : Transaction) :
    String :=
  P.dateText tx.date ++ " " ++ T.amount tx.amount ++ " " ++ accountName account₁ ++ " " ++
    accountName account₂ ++ " " ++ tx.description

/-- The text before a warning. A sale and a credit note show their good account twice (lines 67–68
    and 145–146), a purchase shows its two accounts (lines 109–110). -/
def recordLine (P : Platform) (T : Texts) (inventoryBook : BookInfo) : Response → String
  | .sell tx _ => "SELL: " ++ BotService.buildBookAnchor inventoryBook ++ ": " ++
      record P T tx.creditAccount tx.creditAccount tx
  | .buy tx _ => "BUY: " ++ BotService.buildBookAnchor inventoryBook ++ ": " ++
      record P T tx.creditAccount tx.debitAccount tx
  | .credit tx _ => "CREDIT: " ++ BotService.buildBookAnchor inventoryBook ++ ": " ++
      record P T tx.creditAccount tx.creditAccount tx
  | .found tx => "FOUND: " ++ BotService.buildBookAnchor inventoryBook ++ " " ++
      record P T tx.creditAccount tx.debitAccount tx
  | _ => ""

/-- The good account that was checked for its calculation date. -/
def goodAccountName : Response → String
  | .sell tx _ | .credit tx _ => accountName tx.creditAccount
  | .buy tx _ => accountName tx.debitAccount
  | _ => "undefined"

/-- The warning (lines 72, 114 and 150). -/
def rebuildWarning (response : Response) : String :=
  "WARNING: Transaction date is before the last COGS calculation date. Flagging account " ++
    goodAccountName response ++ " for rebuild"

/-- A copy was posted; the good account needs a rebuild or not. -/
def needsRebuild : Response → Option Bool
  | .sell _ needsRebuild | .buy _ needsRebuild | .credit _ needsRebuild => some needsRebuild
  | _ => none

/-- What stands between a record and a warning. -/
def separator : String := " / "

/-- What `processObject` returns of a check (lines 19–24, 67–75, 109–117 and 145–153). -/
def connectedTransactionText (P : Platform) (T : Texts) (inventoryBook : BookInfo)
    (response : Response) : String :=
  if needsRebuild response = some true then
    recordLine P T inventoryBook response ++ separator ++ rebuildWarning response
  else recordLine P T inventoryBook response

/-! ## `EventHandler` -/

/-- `text.split(' / ')`. -/
def splitText (text : String) : List String :=
  (split separator.toList text.toList).map String.ofList

/-- How `handleEvent` reads a response (lines 44–68). -/
def handleResponse (response : String) : Result :=
  if response = "" then {}
  else
    let (warningMsg, response) :=
      if includes response "WARNING" then
        ((splitText response)[1]?, (splitText response).headD "")
      else (none, response)
    if includes response "ERROR" then { error := some response }
    else { result := [response], warning := warningMsg }

/-- What `handleEvent` returns (lines 22–68), and the two other handlers of transactions. -/
def handlerResult (P : Platform) (T : Texts) (inventoryBook : BookInfo) : Response → Result
  | .silent => {}
  | .flagged accountName =>
    let msg := "Flagging account " ++ accountName ++ " for rebuild"
    { result := [msg], warning := some msg }
  | .inventoryBookNotFound =>
    { result :=
        ["Inventory book not found in the collection (property inventory_book = true)"] }
  | .postedInInventoryBook =>
    { warning := some "You can't post directly in the Inventory book. Transaction deleted." }
  | .error exception => { error := some (T.exception exception) }
  | response => handleResponse (connectedTransactionText P T inventoryBook response)

/-- What the webhook answers to a check. -/
def checkedResult (P : Platform) (T : Texts) (collection : Option (List BookInfo)) (env : EventEnv)
    (eventBook inventoryBook : Book) (event : Event) : Result :=
  handlerResult P T inventoryBook.info
    (EventHandlerTransactionChecked.handleEvent P collection env eventBook inventoryBook event).2

/-! ## What is read is what was written -/

/-- The outcome of a replication as it should be reported. -/
def replicationResult (P : Platform) (T : Texts) (inventoryBook : BookInfo) (response : Response) :
    Result where
  result := [recordLine P T inventoryBook response]
  warning := if needsRebuild response = some true then some (rebuildWarning response) else none

/-- The texts of users leave the record and the warning readable. -/
structure Readable (line warning : String) (flagged : Bool) : Prop where
  noError : includes line "ERROR" = false
  plain : flagged = false → includes line "WARNING" = true → includes line separator = false
  warned : flagged = true →
    Unseparated separator.toList line.toList ∧ includes warning separator = false

theorem separator_ne_nil : separator.toList ≠ [] := by decide

theorem includes_eq_false {text part : String} :
    includes text part = false ↔ ¬part.toList <:+: text.toList := by
  simp [includes]

theorem splitText_of_not_includes {text : String} (h : includes text separator = false) :
    splitText text = [text] := by
  rw [splitText, split_absent (includes_eq_false.1 h)]
  simp

theorem head_splitText (text : String) :
    (splitText text).headD "" = String.ofList ((split separator.toList text.toList).headD []) := by
  unfold splitText
  cases split separator.toList text.toList <;> simp

theorem head_splitText_iff {text : String} :
    (splitText text).headD "" = text ↔ includes text separator = false := by
  rw [head_splitText, ← String.toList_inj, String.toList_ofList, head_split_iff separator_ne_nil,
    includes_eq_false]

theorem head_splitText_append_iff {line warning : String} :
    (splitText (line ++ separator ++ warning)).headD "" = line ↔
      Unseparated separator.toList line.toList := by
  rw [head_splitText, ← String.toList_inj, String.toList_ofList, String.toList_append,
    String.toList_append, head_split_append_iff separator_ne_nil]

theorem splitText_append {line : String} (warning : String)
    (h : Unseparated separator.toList line.toList) :
    splitText (line ++ separator ++ warning) = line :: splitText warning := by
  rw [splitText, String.toList_append, String.toList_append, split_append separator_ne_nil _ h]
  simp [splitText]

/-- A text without a warning. -/
theorem handleResponse_plain_iff {line : String} (hline : line ≠ "") :
    handleResponse line = { result := [line] } ↔ includes line "ERROR" = false ∧
      (includes line "WARNING" = true → includes line separator = false) := by
  unfold handleResponse
  rw [if_neg hline]
  cases hwarning : includes line "WARNING" with
  | false =>
    cases herror : includes line "ERROR" <;> simp [herror]
  | true =>
    cases hseparated : includes line separator with
    | false =>
      rw [splitText_of_not_includes hseparated]
      cases herror : includes line "ERROR" <;> simp [herror]
    | true =>
      have hcut : (splitText line).headD "" ≠ line := by
        rw [Ne, head_splitText_iff, hseparated]
        simp
      simp only [if_true]
      generalize (splitText line).headD "" = head at hcut
      cases includes head "ERROR" <;> simp [hcut]

/-- A text with a warning. -/
theorem handleResponse_warned_iff {line warning : String} (hline : line ≠ "")
    (hwarning : includes (line ++ separator ++ warning) "WARNING" = true) :
    handleResponse (line ++ separator ++ warning) =
        { result := [line], warning := some warning } ↔
      includes line "ERROR" = false ∧ Unseparated separator.toList line.toList ∧
        includes warning separator = false := by
  have htext : line ++ separator ++ warning ≠ "" := by simp [hline]
  unfold handleResponse
  rw [if_neg htext, hwarning]
  simp only [if_true]
  by_cases hcut : Unseparated separator.toList line.toList
  · rw [splitText_append warning hcut, ← head_splitText_iff]
    have hsecond : (line :: splitText warning)[1]? = some ((splitText warning).headD "") := by
      unfold splitText
      cases hparts : split separator.toList warning.toList with
      | nil => exact absurd hparts (split_ne_nil _ _)
      | cons part parts => rfl
    rw [hsecond, List.headD_cons]
    generalize (splitText warning).headD "" = message
    cases includes line "ERROR" <;> simp [hcut]
  · have hhead : (splitText (line ++ separator ++ warning)).headD "" ≠ line :=
      fun h => hcut (head_splitText_append_iff.1 h)
    generalize (splitText (line ++ separator ++ warning)).headD "" = head at hhead
    cases includes head "ERROR" <;> simp [hcut, hhead]

theorem recordLine_ne_empty {response : Response} {flagged : Bool} (P : Platform) (T : Texts)
    (inventoryBook : BookInfo) (h : needsRebuild response = some flagged) :
    recordLine P T inventoryBook response ≠ "" := by
  cases response with
  | sell | buy | credit => simp [recordLine]
  | _ => cases h

theorem includes_append_right {text part : String} (before : String)
    (h : includes text part = true) : includes (before ++ text) part = true := by
  simp only [includes, decide_eq_true_eq, String.toList_append] at h ⊢
  exact h.trans (List.suffix_append _ _).isInfix

theorem includes_append_left {text part : String} (after : String)
    (h : includes text part = true) : includes (text ++ after) part = true := by
  simp only [includes, decide_eq_true_eq, String.toList_append] at h ⊢
  exact h.trans (List.prefix_append _ _).isInfix

theorem includes_rebuildWarning (response : Response) :
    includes (rebuildWarning response) "WARNING" = true := by
  unfold rebuildWarning
  refine includes_append_left _ (includes_append_left _ ?_)
  decide +kernel

theorem handlerResult_of_needsRebuild {response : Response} {flagged : Bool} (P : Platform)
    (T : Texts) (inventoryBook : BookInfo) (h : needsRebuild response = some flagged) :
    handlerResult P T inventoryBook response =
      handleResponse (connectedTransactionText P T inventoryBook response) := by
  cases response with
  | sell | buy | credit => rfl
  | _ => cases h

/-- The outcome that is read is the one that was written exactly if the texts are readable. -/
theorem reported_iff {response : Response} {flagged : Bool} (P : Platform) (T : Texts)
    (inventoryBook : BookInfo) (h : needsRebuild response = some flagged) :
    handlerResult P T inventoryBook response = replicationResult P T inventoryBook response ↔
      Readable (recordLine P T inventoryBook response) (rebuildWarning response) flagged := by
  have hline := recordLine_ne_empty P T inventoryBook h
  rw [handlerResult_of_needsRebuild P T inventoryBook h]
  unfold connectedTransactionText replicationResult
  rw [h]
  cases flagged with
  | false =>
    rw [if_neg (by simp), if_neg (by simp), handleResponse_plain_iff hline]
    exact ⟨fun h => ⟨h.1, fun _ => h.2, by simp⟩, fun h => ⟨h.noError, h.plain rfl⟩⟩
  | true =>
    have hwarning := includes_append_right (recordLine P T inventoryBook response ++ separator)
      (includes_rebuildWarning response)
    rw [if_pos rfl, if_pos rfl, handleResponse_warned_iff hline hwarning]
    exact ⟨fun h => ⟨h.1, by simp, fun _ => h.2⟩, fun h => ⟨h.noError, h.warned rfl⟩⟩

end InventoryBot.Events
