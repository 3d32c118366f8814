import InventoryBot.Events.Answer
import InventoryBot.System.FinancialDeletion
import InventoryBot.System.OwnRecords

/-!
# What an event turns over

The webhook posts and trashes transactions of two books: a check posts one copy, a deletion trashes
a copy with its splits and its cost of sales, and a posting in the inventory book is undone.

* `turnover`: what an event makes the webhook post and trash.
* `Sheds`: a state that lost some transactions, and nothing else of its rows.
* `answer_rows`: the turnover of an event is the difference of the books.
-/

namespace InventoryBot.System

open Lib Menu Events InterceptorOrderProcessorDelete InterceptorOrderProcessorDeleteFinancial

/-- The transactions that were posted and trashed. -/
structure Turnover where
  posted : List Transaction := []
  trashed : List Transaction := []

/-- The transaction that a note names as trashed. -/
def trashedOf : DeleteNote → Option Transaction
  | .deleted transaction => some transaction
  | .flagged _ => none

/-- What an event makes the webhook post and trash. -/
def turnover (P : Platform) (collection : Option (List BookInfo)) (env : EventEnv) (s : State)
    (event : Event) : Turnover :=
  match event.type with
  | .posted =>
    { trashed :=
        if Events.BotService.isInventoryBook event.book then
          (event.transaction.bind fun transactionPayload =>
            (s.inventoryBook.getTransactions (.id transactionPayload.transaction.id)).head?).toList
        else [] }
  | .checked =>
    let eventBook :=
      if Events.BotService.isInventoryBook event.book then s.inventoryBook else s.financialBook
    { posted := (copyOf (EventHandlerTransactionChecked.handleEvent P collection env eventBook
        s.inventoryBook event).2).toList }
  | .unchecked => {}
  | .deleted =>
    { trashed := (EventHandlerTransactionDeleted.intercept P collection s event).2.filterMap
        trashedOf }

/-! ## Trashing -/

/-- The transactions of the two books of a state. -/
def State.rows (s : State) : List Transaction :=
  s.inventoryBook.transactions ++ s.financialBook.transactions

/-- The ids of the transactions of a book differ. -/
def IdsDiffer (b : Book) : Prop := (b.transactions.map Transaction.id).Nodup

/-- A state lost some transactions and nothing else of its rows. -/
structure Sheds (s s' : State) (l : List Transaction) : Prop where
  rows : (State.rows s).Perm (l ++ State.rows s')
  inventory : s'.inventoryBook.transactions.Sublist s.inventoryBook.transactions
  financial : s'.financialBook.transactions.Sublist s.financialBook.transactions

theorem IdsDiffer.sublist {b b' : Book} (h : IdsDiffer b)
    (hsublist : b'.transactions.Sublist b.transactions) : IdsDiffer b' :=
  List.Nodup.sublist (hsublist.map _) h

section Sheds

variable {s s' s'' : State} {l l' : List Transaction}

theorem Sheds.refl (s : State) : Sheds s s [] := ⟨.refl _, .refl _, .refl _⟩

/-- Nothing is lost where the rows stay. -/
theorem Sheds.of_rows (hinventory : s'.inventoryBook.transactions = s.inventoryBook.transactions)
    (hfinancial : s'.financialBook.transactions = s.financialBook.transactions) :
    Sheds s s' [] := by
  refine ⟨?_, hinventory ▸ .refl _, hfinancial ▸ .refl _⟩
  unfold State.rows
  rw [hinventory, hfinancial]
  exact .refl _

theorem Sheds.trans (h : Sheds s s' l) (h' : Sheds s' s'' l') : Sheds s s'' (l ++ l') := by
  refine ⟨?_, h'.inventory.trans h.inventory, h'.financial.trans h.financial⟩
  rw [List.append_assoc]
  exact h.rows.trans (h'.rows.append_left l)

/-- Trashing some transactions of a book takes each of them out once. -/
theorem batchTrash_perm {b : Book} (hids : IdsDiffer b) (hl : l.Nodup)
    (hmem : ∀ t ∈ l, t ∈ b.transactions) :
    b.transactions.Perm (l ++ (b.batchTrashTransactions l).transactions) := by
  have htaken : (b.transactions.filter fun t => l.any (·.id == t.id)).Perm l := by
    refine (List.perm_ext_iff_of_nodup ((List.Nodup.of_map _ hids).filter _) hl).2 fun t => ?_
    rw [List.mem_filter, List.any_eq_true]
    constructor
    · rintro ⟨ht, u, hu, hid⟩
      have hid : u.id = t.id := by simpa using hid
      exact List.inj_on_of_nodup_map hids (hmem u hu) ht hid ▸ hu
    · exact fun ht => ⟨hmem t ht, t, ht, by simp⟩
  exact (List.filter_append_perm (fun t => l.any (·.id == t.id)) b.transactions).symm.trans
    (htaken.append_right _)

theorem batchTrash_sublist (b : Book) (l : List Transaction) :
    (b.batchTrashTransactions l).transactions.Sublist b.transactions := List.filter_sublist

theorem sheds_inventory (hids : IdsDiffer s.inventoryBook) (hl : l.Nodup)
    (hmem : ∀ t ∈ l, t ∈ s.inventoryBook.transactions) :
    Sheds s { s with inventoryBook := s.inventoryBook.batchTrashTransactions l } l := by
  refine ⟨?_, batchTrash_sublist _ _, .refl _⟩
  unfold State.rows
  rw [← List.append_assoc]
  exact (batchTrash_perm hids hl hmem).append_right _

theorem sheds_financial (hids : IdsDiffer s.financialBook) (hl : l.Nodup)
    (hmem : ∀ t ∈ l, t ∈ s.financialBook.transactions) :
    Sheds s { s with financialBook := s.financialBook.batchTrashTransactions l } l := by
  refine ⟨?_, .refl _, batchTrash_sublist _ _⟩
  unfold State.rows
  refine ((batchTrash_perm hids hl hmem).append_left _).trans ?_
  rw [← List.append_assoc, ← List.append_assoc]
  exact List.perm_append_comm.append_right _

end Sheds

/-! ## Deletions -/

section Deletions

variable {P : Platform} {collection : Option (List BookInfo)} {s : State} {event : Event}

theorem head?_getTransactions {b : Book} {q : Query} {t : Transaction}
    (h : (b.getTransactions q).head? = some t) : t ∈ b.transactions :=
  List.mem_of_mem_filter (List.mem_of_mem_head? h)

theorem filterMap_trashedOf_deleted (l : List Transaction) :
    (l.map DeleteNote.deleted).filterMap trashedOf = l := by
  rw [List.filterMap_map]
  exact List.filterMap_some

/-- The splits of a purchase that are trashed. -/
theorem cascadeDeleteInventoryTransactions_sheds (hids : IdsDiffer s.inventoryBook) (id : String)
    (originalQuantity : Option ℚ) (accountName : Option String) :
    Sheds s
      { s with
        inventoryBook := (cascadeDeleteInventoryTransactions s.inventoryBook id originalQuantity
          accountName).1 }
      (cascadeDeleteInventoryTransactions s.inventoryBook id originalQuantity accountName).2 := by
  unfold cascadeDeleteInventoryTransactions
  split
  · dsimp only
    rw [foldl_uncheckAndTrash]
    exact sheds_inventory hids (((List.Nodup.of_map _ hids).filter _).filter _)
      fun t ht => List.mem_of_mem_filter (List.mem_of_mem_filter ht)
  · exact .refl s

/-- The cost of a sale that is trashed. -/
theorem cascadeDeleteFinancialTransactions_sheds (hids : IdsDiffer s.financialBook) (id : String) :
    Sheds s
      { s with financialBook := (cascadeDeleteFinancialTransactions s.financialBook id).1 }
      (cascadeDeleteFinancialTransactions s.financialBook id).2 := by
  unfold cascadeDeleteFinancialTransactions
  cases hfound : (s.financialBook.getTransactions (.remoteId id)).head? with
  | none => exact .refl s
  | some tx =>
    refine sheds_financial hids (List.nodup_singleton tx) fun t ht => ?_
    obtain rfl := List.mem_singleton.1 ht
    exact head?_getTransactions hfound

theorem deleteOnInventoryBook_sheds (hinventory : IdsDiffer s.inventoryBook)
    (hfinancial : IdsDiffer s.financialBook) (id : String) :
    Sheds s (deleteOnInventoryBook collection s id).1 (deleteOnInventoryBook collection s id).2 := by
  unfold deleteOnInventoryBook deleteTransactionByRemoteId
  cases Events.BotService.getInventoryBook collection with
  | none => exact .refl s
  | some info =>
    dsimp only
    by_cases hid : id = ""
    · rw [if_pos hid]
      exact .refl s
    · rw [if_neg hid]
      cases hfound : (s.inventoryBook.getTransactions (.remoteId id)).head? with
      | none => exact .refl s
      | some r =>
        have hroot : Sheds s
            { s with inventoryBook := s.inventoryBook.batchTrashTransactions [r] } [r] := by
          refine sheds_inventory hinventory (List.nodup_singleton r) fun t ht => ?_
          obtain rfl := List.mem_singleton.1 ht
          exact head?_getTransactions hfound
        have hsplits := cascadeDeleteInventoryTransactions_sheds
          (s := { s with inventoryBook := s.inventoryBook.batchTrashTransactions [r] })
          (hinventory.sublist hroot.inventory) r.id r.originalQuantity
          (r.debitAccount.map AccountRef.name)
        have hcost := cascadeDeleteFinancialTransactions_sheds
          (s := ⟨(cascadeDeleteInventoryTransactions (s.inventoryBook.batchTrashTransactions [r])
            r.id r.originalQuantity (r.debitAccount.map AccountRef.name)).1, s.financialBook⟩)
          hfinancial r.id
        exact hroot.trans (hsplits.trans hcost)

theorem deleteAndFlag_sheds (hinventory : IdsDiffer s.inventoryBook)
    (hfinancial : IdsDiffer s.financialBook) (id : String) :
    Sheds s (deleteAndFlag P collection s id).1
      ((deleteAndFlag P collection s id).2.filterMap trashedOf) := by
  have hdeleted : Sheds s (deleteOnInventoryBook collection s id).1
      (deleteOnInventoryBook collection s id).2 :=
    deleteOnInventoryBook_sheds hinventory hfinancial id
  unfold deleteAndFlag
  generalize deleteOnInventoryBook collection s id = deleted at hdeleted
  obtain ⟨s₁, responses⟩ := deleted
  cases responses with
  | nil => exact hdeleted
  | cons r responses =>
    have hnotes : (((r :: responses).map DeleteNote.deleted) ++
        if (Events.BotService.getGoodAccount s₁.inventoryBook r).any fun account =>
          Events.BotService.calculated P account r.date then [DeleteNote.flagged none]
        else []).filterMap trashedOf = r :: responses := by
      rw [List.filterMap_append, filterMap_trashedOf_deleted]
      split <;> simp [trashedOf]
    have hflag : Sheds s₁ { s₁ with
        inventoryBook :=
          Events.BotService.flagInventoryAccountForRebuildIfNeeded P s₁.inventoryBook r } [] :=
      .of_rows (flagIfNeeded_transactions P s₁.inventoryBook r) rfl
    have hboth := hdeleted.trans hflag
    rw [List.append_nil] at hboth
    dsimp only
    rw [hnotes]
    exact hboth

/-- A branch of the handler that only flags. -/
theorem deleteAdjustment_sheds (creditAccount : Account) (t : Transaction) :
    Sheds s (deleteAdjustment P collection s creditAccount t).1
      ((deleteAdjustment P collection s creditAccount t).2.filterMap trashedOf) := by
  have hrows := deleteAdjustment_rows P collection s creditAccount t
  have hnotes : (deleteAdjustment P collection s creditAccount t).2.filterMap trashedOf = [] := by
    unfold deleteAdjustment
    split
    · cases adjustedAccount P s.inventoryBook creditAccount t <;> rfl
    · rfl
  rw [hnotes]
  exact .of_rows hrows.1 (congrArg Book.transactions hrows.2)

theorem deleteCOGS_sheds (t : Transaction) :
    Sheds s (deleteCOGS collection s t).1 ((deleteCOGS collection s t).2.filterMap trashedOf) := by
  have hrows := deleteCOGS_rows collection s t
  have hnotes : (deleteCOGS collection s t).2.filterMap trashedOf = [] := by
    unfold deleteCOGS
    split
    · cases linkedSale s.inventoryBook t with
      | none => rfl
      | some sale =>
        dsimp only
        split <;> rfl
    · rfl
  rw [hnotes]
  exact .of_rows hrows.1 (congrArg Book.transactions hrows.2)

/-- A deletion in the financial book. -/
theorem interceptFinancial_sheds (hinventory : IdsDiffer s.inventoryBook)
    (hfinancial : IdsDiffer s.financialBook) (payload : Payload) :
    let intercepted := InterceptorOrderProcessorDeleteFinancial.intercept P collection s payload
    Sheds s intercepted.1 (intercepted.2.filterMap trashedOf) := by
  intro intercepted
  unfold intercepted InterceptorOrderProcessorDeleteFinancial.intercept
  dsimp only
  split
  · exact .refl s
  · split
    · rename_i creditAccount _ _
      split
      · exact .refl s
      · have hpurchase : Sheds s (deletePurchase P collection s payload.transaction).1
            ((deletePurchase P collection s payload.transaction).2.filterMap trashedOf) := by
          unfold deletePurchase
          split
          · exact deleteAndFlag_sheds hinventory hfinancial _
          · exact .refl s
        generalize deletePurchase P collection s payload.transaction = first at hpurchase
        have hadjustment : Sheds first.1
            (deleteAdjustment P collection first.1 creditAccount payload.transaction).1
            ((deleteAdjustment P collection first.1 creditAccount
              payload.transaction).2.filterMap trashedOf) :=
          deleteAdjustment_sheds creditAccount payload.transaction
        generalize deleteAdjustment P collection first.1 creditAccount payload.transaction =
          second at hadjustment
        have hboth := hpurchase.trans hadjustment
        have hsale : Sheds second.1 (deleteSale P collection second.1 payload).1
            ((deleteSale P collection second.1 payload).2.filterMap trashedOf) := by
          unfold deleteSale
          split
          · exact deleteAndFlag_sheds (hinventory.sublist hboth.inventory)
              (hfinancial.sublist hboth.financial) _
          · exact .refl _
        generalize deleteSale P collection second.1 payload = third at hsale
        have hcogs : Sheds third.1 (deleteCOGS collection third.1 payload.transaction).1
            ((deleteCOGS collection third.1 payload.transaction).2.filterMap trashedOf) :=
          deleteCOGS_sheds payload.transaction
        have hall := (hboth.trans hsale).trans hcogs
        simpa only [List.filterMap_append] using hall
    · exact .refl s

/-- A deletion in the inventory book. -/
theorem interceptGoods_sheds (hinventory : IdsDiffer s.inventoryBook)
    (hfinancial : IdsDiffer s.financialBook) (payload : Payload) :
    let intercepted := InterceptorOrderProcessorDeleteGoods.intercept P collection s payload
    Sheds s intercepted.1 (intercepted.2.filterMap trashedOf) := by
  intro intercepted
  unfold intercepted InterceptorOrderProcessorDeleteGoods.intercept
  dsimp only
  split
  · exact .refl s
  · cases InterceptorOrderProcessorDeleteGoods.getGoodAccount s.inventoryBook payload with
    | none => exact .refl s
    | some goodAccount =>
      dsimp only
      cases hquantity : payload.transaction.originalQuantity with
      | some originalQuantity =>
        dsimp only
        split
        · have hflag : Sheds s { s with
              inventoryBook :=
                s.inventoryBook.updateAccount (Events.BotService.setNeedsRebuild goodAccount) } [] :=
            .of_rows rfl rfl
          have hsplits := hflag.trans (cascadeDeleteInventoryTransactions_sheds
            (s := { s with
              inventoryBook :=
                s.inventoryBook.updateAccount (Events.BotService.setNeedsRebuild goodAccount) })
            hinventory payload.transaction.id (some originalQuantity)
            (payload.debitAccount.map Account.name))
          have hnotes := filterMap_trashedOf_deleted (cascadeDeleteInventoryTransactions
            (s.inventoryBook.updateAccount (Events.BotService.setNeedsRebuild goodAccount))
            payload.transaction.id (some originalQuantity)
            (payload.debitAccount.map Account.name)).2
          exact hnotes.symm ▸ hsplits
        · exact .refl s
      | none =>
        dsimp only
        cases Events.BotService.getFinancialBook collection
            (Menu.BotService.getExchangeCode goodAccount) with
        | none => exact .refl s
        | some info =>
          have hcost := cascadeDeleteFinancialTransactions_sheds hfinancial payload.transaction.id
          have hnotes := filterMap_trashedOf_deleted
            (cascadeDeleteFinancialTransactions s.financialBook payload.transaction.id).2
          exact hnotes.symm ▸ hcost

/-- What a deletion makes the webhook trash is what its notes name. -/
theorem intercept_sheds (hinventory : IdsDiffer s.inventoryBook)
    (hfinancial : IdsDiffer s.financialBook) :
    Sheds s (EventHandlerTransactionDeleted.intercept P collection s event).1
      ((EventHandlerTransactionDeleted.intercept P collection s event).2.filterMap trashedOf) := by
  unfold EventHandlerTransactionDeleted.intercept
  cases event.transaction with
  | none => exact .refl s
  | some payload =>
    dsimp only
    split
    · exact interceptGoods_sheds hinventory hfinancial payload
    · exact interceptFinancial_sheds hinventory hfinancial payload

end Deletions

/-! ## Checks -/

section Checks

variable {P : Platform} {collection : Option (List BookInfo)} {env : EventEnv} {s : State}
  {b b' fb : Book} {event : Event} {response : Response}

theorem getOrCreateAccount_rows (env : EventEnv) (b : Book) (name : String) (type : AccountType) :
    (getOrCreateAccount env b name type).1.transactions = b.transactions := by
  unfold getOrCreateAccount
  split <;> rfl

theorem postAndCheck_rows (P : Platform) (env : EventEnv) (b : Book) (a : Account)
    (new t : Transaction) :
    (postAndCheck P env b a new t).1.transactions =
      b.transactions ++ [(postAndCheck P env b a new t).2.1] := by
  unfold postAndCheck checkLastTxDate
  dsimp only
  split <;> rfl

/-- A branch of the replication appends the copy that it reports. -/
theorem branch_transactions {t : Payload} {quantity : ℚ} {goodExcCode : Option String}
    (h : Branch P env b t quantity goodExcCode b' response) :
    ∃ c, copyOf response = some c ∧ c.id = env.transactionId ∧
      b'.transactions = b.transactions ++ [c] := by
  cases h with
  | sale hkind h =>
    unfold sell at h
    dsimp only at h
    split at h
    · cases h
      refine ⟨_, rfl, rfl, ?_⟩
      rw [postAndCheck_rows, getOrCreateAccount_rows]
    · obtain ⟨⟨b₁, a⟩, hcreated, h⟩ := bind_eq_ok.1 h
      have hrows : b₁.transactions = b.transactions := by
        unfold createConnectedInventoryAccountOnSale at hcreated
        split at hcreated <;> cases hcreated
        rfl
      cases h
      refine ⟨_, rfl, rfl, ?_⟩
      rw [postAndCheck_rows, getOrCreateAccount_rows, hrows]
  | @purchase hsale hkind debitAccount hdebit h =>
    unfold buy at h
    dsimp only at h
    cases h
    refine ⟨_, rfl, rfl, ?_⟩
    rw [postAndCheck_rows, getOrCreateAccount_rows]
    congr 1
    split
    · exact (connectGroups_frame debitAccount.groups b).1
    · unfold checkInventoryAccount
      split
      · rfl
      · exact (connectGroups_frame debitAccount.groups b).1
  | @creditNote hsale hpurchase hkind creditAccount h =>
    unfold credit at h
    dsimp only at h
    cases h
    refine ⟨_, rfl, rfl, ?_⟩
    rw [postAndCheck_rows, getOrCreateAccount_rows]
    congr 1
    split
    · exact (connectGroups_frame creditAccount.groups b).1
    · rfl

/-- Only the responses of the three branches report a copy. -/
theorem copyOf_eq_none (h : postsCopy response = false) : copyOf response = none := by
  cases response with
  | sell | buy | credit => cases h
  | _ => rfl

/-- A check appends the copy that its response reports, if any. -/
theorem checked_transactions (P : Platform) (collection : Option (List BookInfo)) (env : EventEnv)
    (fb b : Book) (event : Event) :
    let handled := EventHandlerTransactionChecked.handleEvent P collection env fb b event
    handled.1.transactions = b.transactions ++ (copyOf handled.2).toList ∧
      ∀ c, copyOf handled.2 = some c → c.id = env.transactionId := by
  intro handled
  unfold handled EventHandlerTransactionChecked.handleEvent
  rcases intercept_cases b event with hpass | ⟨a, -, hflag⟩
  · rw [hpass]
    dsimp only
    split
    · simp [copyOf]
    · cases hhandled : processObject P env fb b event with
      | error e => simp [copyOf]
      | ok result =>
        obtain ⟨b', response⟩ := result
        dsimp only
        rcases processObject_branches hhandled with ⟨rfl, hsilent⟩ | ⟨t, quantity, -, hbranch⟩
        · rw [copyOf_eq_none hsilent]
          simp
        · obtain ⟨c, hcopy, hid, hrows⟩ := branch_transactions hbranch
          rw [hcopy]
          refine ⟨hrows, fun u hu => ?_⟩
          obtain rfl : c = u := Option.some.inj hu
          exact hid
  · rw [hflag]
    simp [copyOf, Book.updateAccount]

/-- An event that users cause in the inventory book by posting. -/
theorem posted_sheds (hinventory : IdsDiffer s.inventoryBook) (event : Event) :
    Sheds s
      { s with
        inventoryBook := (EventHandlerTransactionPosted.handleEvent s.inventoryBook event).1 }
      (if Events.BotService.isInventoryBook event.book then
        (event.transaction.bind fun transactionPayload =>
          (s.inventoryBook.getTransactions (.id transactionPayload.transaction.id)).head?).toList
      else []) := by
  unfold EventHandlerTransactionPosted.handleEvent
  split
  · cases event.transaction with
    | none => exact .refl s
    | some payload =>
      dsimp only [Option.bind_some]
      cases hfound : (s.inventoryBook.getTransactions (.id payload.transaction.id)).head? with
      | none => exact .refl s
      | some tx =>
        refine sheds_inventory hinventory (List.nodup_singleton tx) fun t ht => ?_
        obtain rfl := List.mem_singleton.1 ht
        exact head?_getTransactions hfound
  · exact .refl s

/-- The turnover of an event is the difference of the books, and their ids still differ. -/
theorem answer_rows (P : Platform) (T : AnswerTexts) (collection : Option (List BookInfo))
    (hinventory : IdsDiffer s.inventoryBook) (hfinancial : IdsDiffer s.financialBook)
    (hnew : env.transactionId ∉ s.inventoryBook.transactions.map Transaction.id) (event : Event) :
    let s' := (answer P T collection env s event).1
    let moved := turnover P collection env s event
    (State.rows s ++ moved.posted).Perm (State.rows s' ++ moved.trashed) ∧
      IdsDiffer s'.inventoryBook ∧ IdsDiffer s'.financialBook := by
  intro s' moved
  have hsheds : ∀ {s' : State} {l : List Transaction}, Sheds s s' l →
      (State.rows s ++ []).Perm (State.rows s' ++ l) ∧
        IdsDiffer s'.inventoryBook ∧ IdsDiffer s'.financialBook := by
    intro s' l h
    rw [List.append_nil]
    exact ⟨h.rows.trans List.perm_append_comm, hinventory.sublist h.inventory,
      hfinancial.sublist h.financial⟩
  unfold s' moved answer turnover
  cases event.type with
  | posted => exact hsheds (posted_sheds hinventory event)
  | unchecked =>
    refine hsheds (.of_rows ?_ rfl)
    show (InterceptorFlagRebuild.intercept s.inventoryBook event).1.transactions = _
    rcases intercept_cases s.inventoryBook event with hpass | ⟨a, -, hflag⟩
    · rw [hpass]
    · rw [hflag]
      rfl
  | deleted =>
    dsimp only
    rw [deleted_handleEvent_fst]
    exact hsheds (intercept_sheds hinventory hfinancial)
  | checked =>
    dsimp only
    generalize (if Events.BotService.isInventoryBook event.book = true then s.inventoryBook
      else s.financialBook) = eventBook
    obtain ⟨hrows, hid⟩ := checked_transactions P collection env eventBook s.inventoryBook event
    generalize EventHandlerTransactionChecked.handleEvent P collection env eventBook
      s.inventoryBook event = handled at hrows hid
    refine ⟨?_, ?_, hfinancial⟩
    · unfold State.rows
      dsimp only
      rw [hrows, List.append_nil, List.append_assoc, List.append_assoc]
      exact List.perm_append_comm.append_left _
    · show ((handled.1.transactions).map Transaction.id).Nodup
      rw [hrows]
      cases hcopy : copyOf handled.2 with
      | none =>
        rw [Option.toList_none, List.append_nil]
        exact hinventory
      | some c =>
        rw [List.map_append, Option.toList_some, List.map_singleton, hid c hcopy]
        exact List.nodup_append.2 ⟨hinventory, List.nodup_singleton _, by
          rintro i hi _ hj rfl
          exact hnew (List.mem_singleton.1 hj ▸ hi)⟩

end Checks

end InventoryBot.System
