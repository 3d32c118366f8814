import InventoryBot.System.Outcome
import InventoryBot.System.Turnover

/-!
# The answers of the webhook account for the books

The webhook tells its user in one answer for each event what it did.

* `Told`: an answer tells of what was trashed.
* `answer_silent`: an answer without a result leaves the books as they are.
* `Answered`: a history of events, with what users do in between.
* `answers_account_for_books`: the answers over every history.
-/

namespace InventoryBot.System

open Lib Menu Events InterceptorOrderProcessorDelete InterceptorOrderProcessorDeleteFinancial

/-! ## What the answer tells -/

/-- An answer tells of what was trashed, in one line each, and is not empty when something was
    posted or trashed. -/
structure Told (T : AnswerTexts) (moved : Turnover) (result : Result) : Prop where
  silent : result = {} → moved.posted = [] ∧ moved.trashed = []
  lines : result.warning =
      some "You can't post directly in the Inventory book. Transaction deleted." ∨
    ∃ lines, lines.Sublist result.result ∧
      List.Forall₂ (fun tx line => (buildDeleteResponse T tx).toList <:+ line.toList)
        moved.trashed lines

section Told

variable {P : Platform} {T : AnswerTexts} {collection : Option (List BookInfo)} {env : EventEnv}
  {s : State} {event : Event}

/-- Every deleted transaction has its line among those of the notes. -/
theorem noteText_lines (T : AnswerTexts) (inventoryBook book : Option BookInfo)
    (notes : List DeleteNote) :
    ∃ lines, lines.Sublist (notes.map (noteText T inventoryBook book)) ∧
      List.Forall₂ (fun tx line => (buildDeleteResponse T tx).toList <:+ line.toList)
        (notes.filterMap trashedOf) lines := by
  induction notes with
  | nil => exact ⟨[], .slnil, .nil⟩
  | cons note notes ih =>
    obtain ⟨lines, hsublist, hlines⟩ := ih
    cases note with
    | flagged account => exact ⟨lines, hsublist.cons _, hlines⟩
    | deleted tx =>
      refine ⟨buildDeleteResult T book tx :: lines, hsublist.cons_cons _, .cons ?_ hlines⟩
      unfold buildDeleteResult
      cases book with
      | none => exact List.suffix_refl _
      | some book =>
        dsimp only
        rw [String.toList_append]
        exact List.suffix_append _ _

theorem deleteOnInventoryBook_silent {id : String}
    (h : (deleteOnInventoryBook collection s id).2 = []) :
    (deleteOnInventoryBook collection s id).1 = s := by
  unfold deleteOnInventoryBook at h ⊢
  split at h
  · rfl
  · dsimp only at h ⊢
    split at h
    · rfl
    · cases h

theorem deleteAndFlag_silent {id : String} (h : (deleteAndFlag P collection s id).2 = []) :
    (deleteAndFlag P collection s id).1 = s := by
  have hdeleted (h : (deleteOnInventoryBook collection s id).2 = []) :
      (deleteOnInventoryBook collection s id).1 = s := deleteOnInventoryBook_silent h
  unfold deleteAndFlag at h ⊢
  generalize deleteOnInventoryBook collection s id = deleted at h hdeleted
  obtain ⟨s₁, responses⟩ := deleted
  cases responses with
  | nil => exact hdeleted rfl
  | cons r responses => cases h

theorem deleteCOGS_silent {t : Transaction} (h : (deleteCOGS collection s t).2 = []) :
    (deleteCOGS collection s t).1 = s := by
  unfold deleteCOGS at h ⊢
  split at h
  · cases hsale : linkedSale s.inventoryBook t with
    | none => simp
    | some sale =>
      rw [hsale] at h
      dsimp only at h
      cases hgood : Events.BotService.getGoodAccount s.inventoryBook sale with
      | none => simp [Events.BotService.flagInventoryAccountForRebuild, hgood]
      | some a => simp [hgood] at h
  · rename_i hcogs
    rw [if_neg hcogs]

theorem deleteAdjustment_silent {creditAccount : Account} {t : Transaction}
    (h : (deleteAdjustment P collection s creditAccount t).2 = []) :
    (deleteAdjustment P collection s creditAccount t).1 = s := by
  unfold deleteAdjustment at h ⊢
  split at h
  · rename_i hkind
    rw [if_pos hkind]
    split at h
    · cases h
    · rfl
  · rename_i hkind
    rw [if_neg hkind]

theorem interceptGoods_silent {payload : Payload}
    (h : (InterceptorOrderProcessorDeleteGoods.intercept P collection s payload).2 = []) :
    (InterceptorOrderProcessorDeleteGoods.intercept P collection s payload).1 = s := by
  unfold InterceptorOrderProcessorDeleteGoods.intercept at h ⊢
  dsimp only at h ⊢
  by_cases hposted : (!payload.transaction.posted) = true
  · rw [if_pos hposted]
  · rw [if_neg hposted] at h ⊢
    cases hgood : InterceptorOrderProcessorDeleteGoods.getGoodAccount s.inventoryBook payload with
    | none => rfl
    | some goodAccount =>
      rw [hgood] at h
      dsimp only at h ⊢
      cases hquantity : payload.transaction.originalQuantity with
      | some originalQuantity =>
        rw [hquantity] at h
        dsimp only at h ⊢
        split at h
        · cases h
        · rename_i hsame
          rw [if_neg hsame]
      | none =>
        rw [hquantity] at h
        dsimp only at h ⊢
        split at h
        · rfl
        · unfold cascadeDeleteFinancialTransactions at h ⊢
          split at h
          · cases h
          · rfl

theorem interceptFinancial_silent {payload : Payload}
    (h : (InterceptorOrderProcessorDeleteFinancial.intercept P collection s payload).2 = []) :
    (InterceptorOrderProcessorDeleteFinancial.intercept P collection s payload).1 = s := by
  unfold InterceptorOrderProcessorDeleteFinancial.intercept at h ⊢
  dsimp only at h ⊢
  by_cases hposted : (!payload.transaction.posted) = true
  · rw [if_pos hposted]
  · rw [if_neg hposted] at h ⊢
    cases hdebit : payload.debitAccount with
    | none => rfl
    | some debitAccount =>
      cases hcredit : payload.creditAccount with
      | none => rfl
      | some creditAccount =>
        rw [hdebit, hcredit] at h
        dsimp only at h ⊢
        by_cases hid : payload.transaction.id = ""
        · rw [if_pos hid]
        · rw [if_neg hid] at h ⊢
          obtain ⟨hthree, hcogs⟩ := List.append_eq_nil_iff.1 h
          obtain ⟨htwo, hsale⟩ := List.append_eq_nil_iff.1 hthree
          obtain ⟨hpurchase, hadjustment⟩ := List.append_eq_nil_iff.1 htwo
          -- each branch has left the books as they were
          have hfirst : (deletePurchase P collection s payload.transaction).1 = s := by
            unfold deletePurchase at hpurchase ⊢
            split at hpurchase
            · rename_i hkind
              rw [if_pos hkind]
              exact deleteAndFlag_silent hpurchase
            · rename_i hkind
              rw [if_neg hkind]
          rw [hfirst] at hadjustment hsale hcogs ⊢
          have hsecond := deleteAdjustment_silent hadjustment
          rw [hsecond] at hsale hcogs ⊢
          have hthird : (deleteSale P collection s payload).1 = s := by
            unfold deleteSale at hsale ⊢
            split at hsale
            · rename_i hkind
              rw [if_pos hkind]
              exact deleteAndFlag_silent hsale
            · rename_i hkind
              rw [if_neg hkind]
          rw [hthird] at hcogs ⊢
          exact deleteCOGS_silent hcogs

/-- A deletion without notes leaves the books as they are. -/
theorem intercept_silent
    (h : (EventHandlerTransactionDeleted.intercept P collection s event).2 = []) :
    (EventHandlerTransactionDeleted.intercept P collection s event).1 = s := by
  unfold EventHandlerTransactionDeleted.intercept at h ⊢
  cases hevent : event.transaction with
  | none => rfl
  | some payload =>
    rw [hevent] at h
    dsimp only at h ⊢
    split at h
    · rename_i hbook
      rw [if_pos hbook]
      exact interceptGoods_silent h
    · rename_i hbook
      rw [if_neg hbook]
      exact interceptFinancial_silent h

/-- An answer without a result leaves the books as they are. -/
theorem answer_silent (h : (answer P T collection env s event).2 = {}) :
    (answer P T collection env s event).1 = s ∧ (turnover P collection env s event).posted = [] ∧
      (turnover P collection env s event).trashed = [] := by
  unfold answer turnover at *
  cases htype : event.type with
  | posted =>
    rw [htype] at h
    have hsilent := handlerResult_eq_empty h
    unfold EventHandlerTransactionPosted.handleEvent at hsilent ⊢
    split at hsilent
    · rename_i hbook
      cases hevent : event.transaction with
      | none => simp [hbook]
      | some payload =>
        rw [hevent] at hsilent
        dsimp only at hsilent
        split at hsilent <;> cases hsilent
    · rename_i hbook
      simp [hbook]
  | unchecked =>
    rw [htype] at h
    have hsilent := handlerResult_eq_empty h
    unfold EventHandlerTransactionUnchecked.handleEvent at hsilent ⊢
    rcases intercept_cases s.inventoryBook event with hpass | ⟨a, -, hflag⟩
    · rw [hpass]
      exact ⟨rfl, rfl, rfl⟩
    · rw [hflag] at hsilent
      cases hsilent
  | deleted =>
    rw [htype] at h
    dsimp only at h ⊢
    have hnotes : (EventHandlerTransactionDeleted.intercept P collection s event).2 = [] := by
      unfold EventHandlerTransactionDeleted.handleEvent at h
      generalize EventHandlerTransactionDeleted.intercept P collection s event = intercepted at h
      obtain ⟨s', notes⟩ := intercepted
      cases notes with
      | nil => rfl
      | cons note notes => simp [deleteResults] at h
    rw [deleted_handleEvent_fst, hnotes]
    exact ⟨intercept_silent hnotes, rfl, rfl⟩
  | checked =>
    rw [htype] at h
    dsimp only at h ⊢
    generalize (if Events.BotService.isInventoryBook event.book = true then s.inventoryBook
      else s.financialBook) = eventBook at h ⊢
    have hsilent := handlerResult_eq_empty h
    unfold EventHandlerTransactionChecked.handleEvent at hsilent ⊢
    rcases intercept_cases s.inventoryBook event with hpass | ⟨a, -, hflag⟩
    · rw [hpass] at hsilent ⊢
      dsimp only at hsilent ⊢
      split at hsilent
      · cases hsilent
      · cases hhandled : processObject P env eventBook s.inventoryBook event with
        | error e =>
          rw [hhandled] at hsilent
          cases hsilent
        | ok result =>
          obtain ⟨b', response⟩ := result
          rw [hhandled] at hsilent
          obtain rfl : response = .silent := hsilent
          rcases processObject_branches hhandled with ⟨rfl, -⟩ | ⟨t, quantity, -, hbranch⟩
          · exact ⟨rfl, rfl, rfl⟩
          · obtain ⟨c, hcopy, -⟩ := branch_transactions hbranch
            cases hcopy
    · rw [hflag] at hsilent
      cases hsilent

/-- Every answer tells of the turnover of its event. -/
theorem answer_told : Told T (turnover P collection env s event)
    (answer P T collection env s event).2 := by
  refine ⟨fun h => (answer_silent h).2, ?_⟩
  have hnothing : ∀ result : Result, ∃ lines : List String, lines.Sublist result.result ∧
      List.Forall₂ (fun tx line => (buildDeleteResponse T tx).toList <:+ line.toList)
        ([] : List Transaction) lines :=
    fun result => ⟨[], List.nil_sublist _, .nil⟩
  unfold answer turnover
  cases event.type with
  | posted =>
    dsimp only
    unfold EventHandlerTransactionPosted.handleEvent
    by_cases hbook : Events.BotService.isInventoryBook event.book = true
    · rw [if_pos hbook, if_pos hbook]
      cases event.transaction with
      | none => exact Or.inr (hnothing _)
      | some payload =>
        left
        dsimp only
        split <;> rfl
    · rw [if_neg hbook, if_neg hbook]
      exact Or.inr (hnothing _)
  | checked => exact Or.inr (hnothing _)
  | unchecked => exact Or.inr (hnothing _)
  | deleted =>
    right
    dsimp only
    unfold EventHandlerTransactionDeleted.handleEvent
    generalize EventHandlerTransactionDeleted.intercept P collection s event = intercepted
    obtain ⟨s', notes⟩ := intercepted
    cases notes with
    | nil => exact hnothing _
    | cons note notes => exact noteText_lines T _ _ (note :: notes)

end Told

/-! ## Histories -/

/-- What happens next in the books of a collection. -/
structure Delivery where
  /-- the financial book that the event is handled on -/
  bookId : String
  env : EventEnv
  event : Event

section Histories

variable {P : Platform} {T : AnswerTexts} {collection : Option (List BookInfo)}
  {ids : List String} {w w' w₀ : Books}

/-- The inventory book and one of the financial books. -/
def stateAt (w : Books) (bookId : String) : State := ⟨w.inventoryBook, w.financialBook bookId⟩

/-- The books with the two books of a state. -/
def storeAt (w : Books) (bookId : String) (s : State) : Books :=
  { w with
    inventoryBook := s.inventoryBook
    financialBook := Function.update w.financialBook bookId s.financialBook }

/-- The transactions of the inventory book and of some financial books. -/
def bookRows (ids : List String) (w : Books) : List Transaction :=
  w.inventoryBook.transactions ++ ids.flatMap fun id => (w.financialBook id).transactions

/-- In every book the ids of the transactions differ. -/
structure BooksDiffer (w : Books) : Prop where
  inventory : IdsDiffer w.inventoryBook
  financial : ∀ id, IdsDiffer (w.financialBook id)

/-- A history of the books: the webhook answers events on the inventory book and any of the
    financial books, and in between users change what they like. Every entry says what was posted
    and trashed, and what the webhook answered. -/
inductive Answered (P : Platform) (T : AnswerTexts) (collection : Option (List BookInfo))
    (ids : List String) (w₀ : Books) : List (Turnover × Option Result) → Books → Prop
  | start : Answered P T collection ids w₀ [] w₀
  | event {entries : List (Turnover × Option Result)} {w : Books}
      (h : Answered P T collection ids w₀ entries w) (e : Delivery) (hid : e.bookId ∈ ids)
      (hnew : e.env.transactionId ∉ w.inventoryBook.transactions.map Transaction.id) :
      Answered P T collection ids w₀
        (entries ++ [(turnover P collection e.env (stateAt w e.bookId) e.event,
          some (answer P T collection e.env (stateAt w e.bookId) e.event).2)])
        (storeAt w e.bookId (answer P T collection e.env (stateAt w e.bookId) e.event).1)
  | users {entries : List (Turnover × Option Result)} {w w' : Books} {changed : Turnover}
      (h : Answered P T collection ids w₀ entries w)
      (hrows : (bookRows ids w ++ changed.posted).Perm (bookRows ids w' ++ changed.trashed))
      (hids : BooksDiffer w') : Answered P T collection ids w₀ (entries ++ [(changed, none)]) w'

/-- The rows of one of the books among all of them. -/
theorem bookRows_storeAt (hnodup : ids.Nodup) {bookId : String} (hid : bookId ∈ ids) (w : Books) :
    ∃ others, ∀ s, (bookRows ids (storeAt w bookId s)).Perm (State.rows s ++ others) := by
  obtain ⟨before, after, rfl⟩ := List.append_of_mem hid
  have hothers : bookId ∉ before ∧ bookId ∉ after := by
    rw [List.nodup_middle, List.nodup_cons, List.mem_append, not_or] at hnodup
    exact hnodup.1
  refine ⟨(before ++ after).flatMap fun id => (w.financialBook id).transactions, fun s => ?_⟩
  have hrest : ∀ {l : List String}, bookId ∉ l →
      (l.flatMap fun id => ((storeAt w bookId s).financialBook id).transactions) =
        l.flatMap fun id => (w.financialBook id).transactions := by
    intro l hl
    refine List.flatMap_congr fun id hmem => ?_
    have hne : id ≠ bookId := fun he => hl (he ▸ hmem)
    simp [storeAt, Function.update_of_ne hne]
  unfold bookRows State.rows
  rw [List.flatMap_append, List.flatMap_cons, hrest hothers.1, hrest hothers.2,
    List.flatMap_append, List.append_assoc]
  refine List.Perm.append_left _ ?_
  have hself : ((storeAt w bookId s).financialBook bookId).transactions =
      s.financialBook.transactions := by
    simp [storeAt]
  rw [hself, ← List.append_assoc, ← List.append_assoc]
  exact List.perm_append_comm.append_right _

theorem perm_swap_last {α : Type} (a b c : List α) : (a ++ b ++ c).Perm (a ++ c ++ b) := by
  rw [List.append_assoc, List.append_assoc]
  exact List.perm_append_comm.append_left a

/-- Two turnovers, one after the other. -/
theorem perm_turnover {α : Type} {a b c p p' t t' : List α} (h : (a ++ p).Perm (b ++ t))
    (h' : (b ++ p').Perm (c ++ t')) : (a ++ (p ++ p')).Perm (c ++ (t ++ t')) := by
  have hfirst : (a ++ p ++ p').Perm (b ++ t ++ p') := h.append_right p'
  have hsecond : (b ++ p' ++ t).Perm (c ++ t' ++ t) := h'.append_right t
  rw [← List.append_assoc, ← List.append_assoc]
  exact ((hfirst.trans (perm_swap_last b t p')).trans hsecond).trans (perm_swap_last c t' t)

theorem storeAt_stateAt (w : Books) (bookId : String) : storeAt w bookId (stateAt w bookId) = w := by
  simp [storeAt, stateAt]

/-- Over every history, what was there at first and was posted since is what was trashed since and
    is there now. -/
theorem Answered.rows (h : Answered P T collection ids w₀ entries w) (hnodup : ids.Nodup)
    (hids : BooksDiffer w₀) :
    (bookRows ids w₀ ++ entries.flatMap (·.1.posted)).Perm
        (bookRows ids w ++ entries.flatMap (·.1.trashed)) ∧ BooksDiffer w := by
  induction h with
  | start => exact ⟨by simp, hids⟩
  | @event entries w h e hid hnew ih =>
    obtain ⟨hperm, hdiffer⟩ := ih
    obtain ⟨hrows, hinventory, hfinancial⟩ := answer_rows (s := stateAt w e.bookId) P T collection
      hdiffer.inventory (hdiffer.financial e.bookId) hnew e.event
    obtain ⟨others, hothers⟩ := bookRows_storeAt hnodup hid w
    refine ⟨?_, hinventory, fun id => ?_⟩
    · have hbefore := hothers (stateAt w e.bookId)
      rw [storeAt_stateAt] at hbefore
      generalize turnover P collection e.env (stateAt w e.bookId) e.event = moved at hrows
      generalize (answer P T collection e.env (stateAt w e.bookId) e.event).1 = s' at hrows
      rw [List.flatMap_append, List.flatMap_append, List.flatMap_singleton,
        List.flatMap_singleton]
      refine perm_turnover hperm ?_
      have hmoved : (bookRows ids w ++ moved.posted).Perm
          (State.rows s' ++ others ++ moved.trashed) :=
        (((hbefore.append_right moved.posted).trans (perm_swap_last _ _ _)).trans
          (hrows.append_right others)).trans (perm_swap_last _ _ _)
      exact hmoved.trans ((hothers s').symm.append_right _)
    · by_cases hsame : id = e.bookId
      · subst hsame
        simpa [storeAt] using hfinancial
      · simpa [storeAt, Function.update_of_ne hsame] using hdiffer.financial id
  | @users entries w w' changed h hrows hids ih =>
    obtain ⟨hperm, -⟩ := ih
    refine ⟨?_, hids⟩
    rw [List.flatMap_append, List.flatMap_append, List.flatMap_singleton, List.flatMap_singleton]
    exact perm_turnover hperm hrows

theorem Answered.told (h : Answered P T collection ids w₀ entries w) :
    ∀ entry ∈ entries, ∀ result, entry.2 = some result → Told T entry.1 result := by
  induction h with
  | start => simp
  | event h e hid hnew ih =>
    intro entry hentry result hresult
    rcases List.mem_append.1 hentry with hentry | hentry
    · exact ih entry hentry result hresult
    · obtain rfl := List.mem_singleton.1 hentry
      obtain rfl := Option.some.inj hresult
      exact answer_told
  | users h hrows hids ih =>
    intro entry hentry result hresult
    rcases List.mem_append.1 hentry with hentry | hentry
    · exact ih entry hentry result hresult
    · obtain rfl := List.mem_singleton.1 hentry
      cases hresult

/-- Over every history of events of any books, with what users change in between, the transactions
    that were there at first or have been posted since are those that have been trashed since or
    are still there; and every answer of the webhook tells of what it trashed in one line each, and
    is no answer only if it has changed nothing at all. -/
theorem answers_account_for_books (hnodup : ids.Nodup) (hids : BooksDiffer w₀)
    {entries : List (Turnover × Option Result)}
    (h : Answered P T collection ids w₀ entries w) :
    (bookRows ids w₀ ++ entries.flatMap (·.1.posted)).Perm
        (bookRows ids w ++ entries.flatMap (·.1.trashed)) ∧
      (∀ entry ∈ entries, ∀ result, entry.2 = some result → Told T entry.1 result) ∧
      ∀ env s event, (answer P T collection env s event).2 = {} →
        handleEvent P collection env s event = s :=
  ⟨(h.rows hnodup hids).1, h.told, fun _ _ _ hsilent => answer_fst ▸ (answer_silent hsilent).1⟩

end Histories

namespace Sample

/-- How the dates of the sample are written. -/
def answerTexts : AnswerTexts := { texts with dateFormatted := fun date => toString date }

/-- The dollar book with the sample purchase, and no other book. -/
def purchaseBooks : Menu.Books where
  inventoryBook := emptyBook
  financialBook := fun _ => { dollarBook "USD" with transactions := [(purchase "USD").transaction] }

/-- The check of the purchase. -/
def checkOfPurchase : Delivery where
  bookId := "b-dollars"
  env := eventEnv
  event := { type := .checked, book := dollars, transaction := some (purchase "USD") }

/-- Its deletion. -/
def deletionOfPurchase : Delivery where
  bookId := "b-dollars"
  env := saleEnv
  event := deletion (purchase "USD")

/-- The books after an event and what the webhook answers. -/
def delivered (w : Menu.Books) (e : Delivery) : Menu.Books × Turnover × Result :=
  let s := stateAt w e.bookId
  (storeAt w e.bookId (Events.answer decimalPlatform answerTexts books e.env s e.event).1,
    turnover decimalPlatform books e.env s e.event,
    (Events.answer decimalPlatform answerTexts books e.env s e.event).2)

end Sample

/-- The copy of the purchase is posted and trashed, and the answer names it. -/
theorem answers_account_for_books_sample :
    let first := Sample.delivered Sample.purchaseBooks Sample.checkOfPurchase
    let second := Sample.delivered first.1 Sample.deletionOfPurchase
    (bookRows ["b-dollars"] Sample.purchaseBooks ++ (first.2.1.posted ++ second.2.1.posted)).Perm
        (bookRows ["b-dollars"] second.1 ++ (first.2.1.trashed ++ second.2.1.trashed)) ∧
      first.2.1.posted.map Transaction.id = ["i-1"] ∧
      second.2.1.trashed.map Transaction.id = ["i-1"] ∧
      second.2.2.result = ["<a href='https://app.bkper.com/b/#transactions:bookId=b-dollars'>" ++
        "Dollars</a>: DELETED: 3 10 Buy Widgets "] := by
  intro first second
  have hhistory : Answered decimalPlatform Sample.answerTexts Sample.books ["b-dollars"]
      Sample.purchaseBooks _ second.1 :=
    (Answered.start.event Sample.checkOfPurchase (by decide) (by decide)).event
      Sample.deletionOfPurchase (by decide) (by decide +kernel)
  have hids : BooksDiffer Sample.purchaseBooks := by
    refine ⟨?_, fun id => ?_⟩
    · show List.Nodup []
      decide
    · show List.Nodup ["t-1"]
      decide
  obtain ⟨hrows, -⟩ := answers_account_for_books (by decide) hids hhistory
  simp only [List.nil_append, List.flatMap_append, List.flatMap_singleton] at hrows
  exact ⟨hrows, by decide +kernel, by decide +kernel, by decide +kernel⟩

end InventoryBot.System
