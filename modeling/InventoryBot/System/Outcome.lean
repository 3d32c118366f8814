import InventoryBot.Events.EventHandler
import InventoryBot.System.GoodsDeletion

/-!
# What the webhook answers to a replication

The answer to a check is read from one text, which holds the names of accounts and the description
of a transaction.

* `processObject_shown`: what the copy of a transaction shows in that text.
* `outcome_reported_iff`: when the answer is that of the replication.
-/

namespace InventoryBot.System

open Lib Menu Events

/-- What the record shows of a financial transaction and its quantity. -/
structure Shown (t : Transaction) (quantity : ℚ) (c : Transaction) : Prop where
  date : c.date = t.date
  amount : c.amount = quantity
  description : c.description = t.description

section Outcome

variable {P : Platform} {env : EventEnv} {fb b b' : Book} {event : Event} {response : Response}
  {t : Payload} {quantity : ℚ} {flag : Bool}

theorem branch_shown {goodExcCode : Option String}
    (h : Branch P env b t quantity goodExcCode b' response) :
    ∃ c, copyOf response = some c ∧ Shown t.transaction quantity c := by
  cases h with
  | sale hkind h =>
    unfold sell at h
    dsimp only at h
    split at h
    · cases h
      exact ⟨_, rfl, rfl, rfl, rfl⟩
    · obtain ⟨found, -, h⟩ := bind_eq_ok.1 h
      cases h
      exact ⟨_, rfl, rfl, rfl, rfl⟩
  | purchase hsale hkind hdebit h =>
    cases h
    exact ⟨_, rfl, rfl, rfl, rfl⟩
  | creditNote hsale hpurchase hkind h =>
    cases h
    exact ⟨_, rfl, rfl, rfl, rfl⟩

/-- A replication shows date, quantity and description of its transaction. -/
theorem processObject_shown (h : processObject P env fb b event = .ok (b', response))
    (hreplicates : needsRebuild response = some flag) :
    ∃ t quantity c, event.transaction = some t ∧
      Events.BotService.getQuantity P t.transaction = .ok (some quantity) ∧
      copyOf response = some c ∧ Shown t.transaction quantity c := by
  rcases processObject_branches h with ⟨-, hsilent⟩ | ⟨t, quantity, hreaches, hbranch⟩
  · cases response with
    | sell | buy | credit => cases hsilent
    | _ => cases hreplicates
  · obtain ⟨c, hcopy, hshown⟩ := branch_shown hbranch
    exact ⟨t, quantity, c, hreaches.transaction, hreaches.replicable.parses, hcopy, hshown⟩

/-- A check that makes the handler post a copy has passed the interceptor. -/
theorem processObject_of_replicates {collection : Option (List BookInfo)}
    (h : needsRebuild (EventHandlerTransactionChecked.handleEvent P collection env fb b event).2 =
      some flag) : ∃ b₁ b', processObject P env fb b₁ event =
        .ok (b', (EventHandlerTransactionChecked.handleEvent P collection env fb b event).2) := by
  unfold EventHandlerTransactionChecked.handleEvent at h ⊢
  split at h
  · cases h
  · rename_i b₁ _ _ _
    split at h
    · cases h
    · cases hhandled : processObject P env fb b₁ event with
      | ok result =>
        refine ⟨b₁, result.1, ?_⟩
        simp only [hhandled]
      | error e =>
        rw [hhandled] at h
        cases h

/-- The answer to a check that posts a copy reports no error, the whole record, and the warning if
    and only if the good account was flagged, exactly if the texts of users leave the record and
    the warning readable. The record shows date, quantity and description of the transaction and
    the names of its two accounts in the inventory book. -/
theorem outcome_reported_iff (T : Texts) {collection : Option (List BookInfo)}
    (hreplicates : needsRebuild
      (EventHandlerTransactionChecked.handleEvent P collection env fb b event).2 = some flag) :
    let response := (EventHandlerTransactionChecked.handleEvent P collection env fb b event).2
    (∃ t quantity c, event.transaction = some t ∧
      Events.BotService.getQuantity P t.transaction = .ok (some quantity) ∧
      copyOf response = some c ∧ Shown t.transaction quantity c) ∧
    (checkedResult P T collection env fb b event = replicationResult P T b.info response ↔
      Readable (recordLine P T b.info response) (rebuildWarning response) flag) := by
  obtain ⟨b₁, b', hhandled⟩ := processObject_of_replicates hreplicates
  exact ⟨processObject_shown hhandled hreplicates, reported_iff P T b.info hreplicates⟩

end Outcome

namespace Sample

/-- How the amounts of the sample are written. -/
def texts : Texts where
  amount := fun amount => toString amount.num
  exception := fun _ => "Error"

/-- The check of the sample sale with a description. -/
def describedCheck (description : String) : Event where
  type := .checked
  book := dollars
  transaction := some
    { sale "4" with transaction := { (sale "4").transaction with description := description } }

/-- What the webhook answers to that check. -/
def answer (description : String) : Result :=
  checkedResult decimalPlatform texts books saleEnv (dollarBook "USD") purchased
    (describedCheck description)

/-- How the handler ends. -/
def response (description : String) : Response :=
  (EventHandlerTransactionChecked.handleEvent decimalPlatform books saleEnv (dollarBook "USD")
    purchased (describedCheck description)).2

end Sample

/-- A sale whose description names an error is replicated and reported as an error, and one whose
    description names a warning is reported with a warning of its user. -/
theorem user_text_reported :
    (needsRebuild (Sample.response "ERROR in the first delivery") = some false ∧
      Sample.answer "ERROR in the first delivery" ≠ replicationResult decimalPlatform Sample.texts
        Sample.purchased.info (Sample.response "ERROR in the first delivery") ∧
      (Sample.answer "ERROR in the first delivery").error ≠ none) ∧
    (needsRebuild (Sample.response "WARNING: fragile / glass") = some false ∧
      (Sample.answer "WARNING: fragile / glass").warning = some "glass") := by
  decide +kernel

/-- The sample sale is reported as it was replicated. -/
theorem outcome_reported_iff_sample :
    Sample.answer "Four widgets" = replicationResult decimalPlatform Sample.texts
      Sample.purchased.info (Sample.response "Four widgets") := by
  have hreplicates : needsRebuild (Sample.response "Four widgets") = some false := by
    decide +kernel
  refine (outcome_reported_iff Sample.texts hreplicates).2.2 ⟨by decide +kernel, ?_, by simp⟩
  exact fun _ _ => by decide +kernel

end InventoryBot.System
