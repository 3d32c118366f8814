import InventoryBot.Lib.Agree
import InventoryBot.Menu.ResetCostOfSales

/-!
# What a reset does to each transaction

* `resetUpdate`, `resetTrash`: the update and the trashing that a reset queues for one
  transaction of the account.
* `planReset_fire`: what a reset has collected when it fires its batches.
* `reset_throws_iff`: a reset throws on a purchase without the cost that it would go back to.
* `fireBatchOperations_two_rows`, `fireBatchOperations_three_rows`: the inventory transactions
  after the update alone and after all batch calls.
-/

namespace InventoryBot.Menu

open Lib CostOfSalesService

/-- The update that a reset queues for a transaction. -/
def resetUpdate (P : Platform) (tx : Transaction) : Option Transaction :=
  if tx.agentId = some "inventory-bot" then
    if tx.purchaseLog.isSome then
      some { tx with checked := false, purchaseLog := none, totalCost := none }
    else if tx.originalQuantity.isSome then
      match resetPurchase P { tx with checked := false } with
      | .ok tx => some tx
      | .error _ => none
    else if truthy tx.creditNote then some { tx with checked := false }
    else none
  else none

/-- A reset queues the transaction for trashing. -/
def resetTrash (tx : Transaction) : Bool :=
  tx.agentId == some "inventory-bot" && !tx.purchaseLog.isSome && truthy tx.parentId

/-- The cost of sales transaction that a reset queues for trashing. -/
def resetCogs (fb : Book) (tx : Transaction) : Option Transaction :=
  if tx.agentId = some "inventory-bot" ∧ tx.purchaseLog.isSome then
    ((fb.getTransactions (.remoteId tx.id)).head?).map fun cogs => { cogs with checked := false }
  else none

theorem resetPurchase_ok {P : Platform} {tx tx' : Transaction}
    (h : resetPurchase P tx = .ok tx') : ∃ cost quantity,
      P.newAmount tx.goodPurchaseCost = .ok cost ∧ P.newAmount tx.originalQuantity = .ok quantity ∧
        tx' = { tx with
          amount := quantity, totalCost := some cost, liquidationLog := none,
          additionalCosts := none, creditNote := none } := by
  unfold resetPurchase at h
  obtain ⟨cost, hcost, h⟩ := bind_eq_ok.1 h
  obtain ⟨quantity, hquantity, h⟩ := bind_eq_ok.1 h
  cases h
  exact ⟨cost, quantity, hcost, hquantity, rfl⟩

/-- The three updates that a reset queues: of a calculated sale, of a purchase and of a credit
    note. -/
theorem resetUpdate_cases {P : Platform} {tx tx' : Transaction} (h : resetUpdate P tx = some tx') :
    (tx.purchaseLog.isSome ∧
        tx' = { tx with checked := false, purchaseLog := none, totalCost := none }) ∨
      (tx.purchaseLog = none ∧ ∃ cost quantity, P.newAmount tx.goodPurchaseCost = .ok cost ∧
        tx.originalQuantity = some quantity ∧
        tx' = { tx with
          checked := false, amount := quantity, totalCost := some cost, liquidationLog := none,
          additionalCosts := none, creditNote := none }) ∨
      (tx.purchaseLog = none ∧ tx.originalQuantity = none ∧ truthy tx.creditNote ∧
        tx' = { tx with checked := false }) := by
  unfold resetUpdate at h
  split at h
  · split at h
    · rename_i hlog
      cases h
      exact Or.inl ⟨hlog, rfl⟩
    · rename_i hlog
      have hlog : tx.purchaseLog = none := by simpa using hlog
      split at h
      · rename_i hquantity
        obtain ⟨q, hq⟩ := Option.isSome_iff_exists.1 hquantity
        split at h
        · rename_i hr
          cases h
          obtain ⟨cost, quantity, hcost, hnew, rfl⟩ := resetPurchase_ok hr
          rw [show P.newAmount tx.originalQuantity = .ok q by rw [hq]; rfl] at hnew
          obtain rfl : q = quantity := Except.ok.inj hnew
          exact Or.inr (Or.inl ⟨hlog, cost, q, hcost, hq, rfl⟩)
        · cases h
      · rename_i hquantity
        split at h
        · rename_i hnote
          cases h
          exact Or.inr (Or.inr ⟨hlog, by simpa using hquantity, hnote, rfl⟩)
        · cases h
  · cases h

theorem resetUpdate_sameIdentity {P : Platform} {tx tx' : Transaction}
    (h : resetUpdate P tx = some tx') : SameIdentity tx tx' := by
  rcases resetUpdate_cases h with ⟨-, rfl⟩ | ⟨-, _, _, -, -, rfl⟩ | ⟨-, -, -, rfl⟩ <;>
    exact ⟨rfl, rfl, rfl, rfl, rfl, rfl, rfl, rfl, rfl, rfl⟩

/-- The update that is queued is for the transaction itself. -/
theorem resetUpdate_id {P : Platform} {tx tx' : Transaction} (h : resetUpdate P tx = some tx') :
    tx'.id = tx.id :=
  (resetUpdate_sameIdentity h).id

/-! ## The loop over the transactions -/

section Loop

variable {P : Platform} {fb : Book} {processor processor' : ResetCostOfSalesProcessor}

/-- A queue after an optional entry was added. -/
def enqueue (m : OrderedMap String Transaction) (t : Option Transaction) :
    OrderedMap String Transaction :=
  match t with
  | some t => m.set t.id t
  | none => m

theorem get_enqueue {m : OrderedMap String Transaction} {t : Option Transaction} {id k : String}
    (ht : ∀ u, t = some u → u.id = id) :
    (enqueue m t).get k = if k = id then t <|> m.get k else m.get k := by
  cases t with
  | none => simp [enqueue]
  | some u =>
    rw [enqueue, OrderedMap.get_set, ht u rfl]
    rfl

theorem mem_keys_enqueue {m : OrderedMap String Transaction} {t : Option Transaction} {k : String} :
    k ∈ (enqueue m t).keys ↔ (∃ u, t = some u ∧ k = u.id) ∨ k ∈ m.keys := by
  cases t with
  | none => simp [enqueue]
  | some u => simp [enqueue, OrderedMap.mem_keys_set]

/-- The three queues after one pass of the loop. -/
theorem resetTransaction_queues {tx : Transaction}
    (h : resetTransaction P fb processor tx = .ok processor') :
    processor'.inventoryBookTransactionsToUpdateMap =
        enqueue processor.inventoryBookTransactionsToUpdateMap (resetUpdate P tx) ∧
      processor'.inventoryBookTransactionsToTrashMap =
        enqueue processor.inventoryBookTransactionsToTrashMap
          (if resetTrash tx then some { tx with checked := false } else none) ∧
      processor'.financialBookTransactionsToTrashMap =
        enqueue processor.financialBookTransactionsToTrashMap (resetCogs fb tx) := by
  unfold resetTransaction at h
  unfold resetUpdate resetTrash resetCogs
  by_cases hagent : tx.agentId = some "inventory-bot"
  · by_cases hlog : tx.purchaseLog.isSome
    · simp only [hagent, hlog, if_true] at h ⊢
      cases h
      cases hc : (fb.getTransactions (.remoteId tx.id)).head? <;>
        simp [resetSale, hc, enqueue, ResetCostOfSalesProcessor.setInventoryBookTransactionToUpdate,
          ResetCostOfSalesProcessor.setFinancialBookTransactionToTrash]
    · by_cases hq : tx.originalQuantity.isSome
      · simp only [hagent, hlog, hq, if_true] at h
        obtain ⟨tx', hr, h⟩ := bind_eq_ok.1 h
        obtain ⟨cost, quantity, -, -, htx'⟩ := resetPurchase_ok hr
        have hnote : truthy tx'.creditNote = false := by
          rw [htx']
          rfl
        simp only [hnote] at h
        cases h
        cases truthy tx.parentId <;>
          simp [hagent, hlog, hq, hr, enqueue,
            ResetCostOfSalesProcessor.setInventoryBookTransactionToUpdate,
            ResetCostOfSalesProcessor.setInventoryBookTransactionToTrash]
      · simp only [hagent, hlog, hq, if_true] at h
        cases h
        cases truthy tx.parentId <;> cases truthy tx.creditNote <;>
          simp [hagent, hlog, hq, enqueue,
            ResetCostOfSalesProcessor.setInventoryBookTransactionToUpdate,
            ResetCostOfSalesProcessor.setInventoryBookTransactionToTrash]
  · simp only [hagent, if_false] at h
    cases h
    simp [hagent, enqueue]

/-- What the loop over transactions with different ids has queued for each of them. -/
theorem foldlM_resetTransaction {l : List Transaction} (hn : (l.map Transaction.id).Nodup)
    (h : l.foldlM (resetTransaction P fb) processor = .ok processor')
    (hfree : ∀ t ∈ l, t.id ∉ processor.inventoryBookTransactionsToUpdateMap.keys ∧
      t.id ∉ processor.inventoryBookTransactionsToTrashMap.keys) :
    (∀ t ∈ l, processor'.inventoryBookTransactionsToUpdateMap.get t.id = resetUpdate P t ∧
        (t.id ∈ processor'.inventoryBookTransactionsToTrashMap.keys ↔ resetTrash t)) ∧
      ∀ k, k ∉ l.map Transaction.id →
        processor'.inventoryBookTransactionsToUpdateMap.get k =
            processor.inventoryBookTransactionsToUpdateMap.get k ∧
          (k ∈ processor'.inventoryBookTransactionsToTrashMap.keys ↔
            k ∈ processor.inventoryBookTransactionsToTrashMap.keys) := by
  induction l generalizing processor with
  | nil =>
    cases h
    exact ⟨by simp, fun k _ => ⟨rfl, Iff.rfl⟩⟩
  | cons tx l ih =>
    rw [List.map_cons, List.nodup_cons] at hn
    rw [List.foldlM_cons] at h
    obtain ⟨processor₁, htx, h⟩ := bind_eq_ok.1 h
    obtain ⟨hupdate, htrash, -⟩ := resetTransaction_queues htx
    have hget : ∀ k, processor₁.inventoryBookTransactionsToUpdateMap.get k =
        if k = tx.id then resetUpdate P tx <|> processor.inventoryBookTransactionsToUpdateMap.get k
        else processor.inventoryBookTransactionsToUpdateMap.get k := by
      intro k
      rw [hupdate]
      exact get_enqueue fun u hu => resetUpdate_id hu
    have hmem : ∀ k, k ∈ processor₁.inventoryBookTransactionsToTrashMap.keys ↔
        (resetTrash tx = true ∧ k = tx.id) ∨
          k ∈ processor.inventoryBookTransactionsToTrashMap.keys := by
      intro k
      rw [htrash, mem_keys_enqueue]
      cases resetTrash tx <;> simp
    have hne : ∀ t ∈ l, t.id ≠ tx.id := fun t ht he => hn.1 (he ▸ List.mem_map_of_mem ht)
    have hfree₁ : ∀ t ∈ l, t.id ∉ processor₁.inventoryBookTransactionsToUpdateMap.keys ∧
        t.id ∉ processor₁.inventoryBookTransactionsToTrashMap.keys := by
      intro t ht
      obtain ⟨hu, hd⟩ := hfree t (List.mem_cons_of_mem _ ht)
      rw [← OrderedMap.get_eq_none, hget, if_neg (hne t ht), OrderedMap.get_eq_none, hmem]
      exact ⟨hu, fun hk => hk.elim (fun hk => hne t ht hk.2) hd⟩
    obtain ⟨hlisted, hothers⟩ := ih hn.2 h hfree₁
    refine ⟨?_, ?_⟩
    · intro t ht
      rcases List.mem_cons.1 ht with rfl | ht
      · obtain ⟨hu, hd⟩ := hfree t List.mem_cons_self
        obtain ⟨ho, hk⟩ := hothers t.id hn.1
        rw [ho, hk, hget, if_pos rfl, hmem, OrderedMap.get_eq_none.2 hu]
        refine ⟨by cases resetUpdate P t <;> rfl, ?_⟩
        simp [hd]
      · exact hlisted t ht
    · intro k hk
      rw [List.map_cons, List.mem_cons, not_or] at hk
      obtain ⟨ho, hd⟩ := hothers k hk.2
      rw [ho, hd, hget, if_neg hk.1, hmem]
      exact ⟨rfl, by simp [hk.1]⟩

theorem keyedById_enqueue {m : OrderedMap String Transaction} (h : Book.KeyedById m)
    (t : Option Transaction) : Book.KeyedById (enqueue m t) := by
  cases t with
  | none => exact h
  | some t => exact h.set t

theorem foldlM_resetTransaction_keyed {l : List Transaction}
    (h : l.foldlM (resetTransaction P fb) processor = .ok processor')
    (hu : Book.KeyedById processor.inventoryBookTransactionsToUpdateMap)
    (ht : Book.KeyedById processor.inventoryBookTransactionsToTrashMap)
    (hf : Book.KeyedById processor.financialBookTransactionsToTrashMap) :
    Book.KeyedById processor'.inventoryBookTransactionsToUpdateMap ∧
      Book.KeyedById processor'.inventoryBookTransactionsToTrashMap ∧
      Book.KeyedById processor'.financialBookTransactionsToTrashMap := by
  induction l generalizing processor with
  | nil =>
    cases h
    exact ⟨hu, ht, hf⟩
  | cons tx l ih =>
    rw [List.foldlM_cons] at h
    obtain ⟨processor₁, htx, h⟩ := bind_eq_ok.1 h
    obtain ⟨hupdate, htrash, hcogs⟩ := resetTransaction_queues htx
    exact ih h (hupdate ▸ keyedById_enqueue hu _) (htrash ▸ keyedById_enqueue ht _)
      (hcogs ▸ keyedById_enqueue hf _)

end Loop

/-! ## The plan of a reset -/

theorem getTransactions_account (b : Book) (name : String) :
    b.getTransactions (helper.getAccountQuery name none none) =
      b.transactions.filter (·.moves name) := by
  unfold Book.getTransactions
  congr 1
  funext t
  simp [helper.getAccountQuery, Query.selects]

/-- What a reset is about to do when it fires its batches. -/
structure ResetFires (P : Platform) (s : State) (goodAccountId : String) (goodAccount : Account)
    (processor : ResetCostOfSalesProcessor) : Prop where
  account : s.inventoryBook.getAccount goodAccountId = some goodAccount
  loop : (s.inventoryBook.transactions.filter (·.moves goodAccount.name)).foldlM
    (resetTransaction P s.financialBook) {} = .ok processor

theorem planReset_fire {P : Platform} {collection : Option (List BookInfo)} {s : State}
    {goodAccountId : String} {goodAccount : Account} {processor : ResetCostOfSalesProcessor}
    (h : planReset P collection s goodAccountId = .ok (.fire goodAccount processor)) :
    ResetFires P s goodAccountId goodAccount processor := by
  unfold planReset at h
  obtain ⟨⟨a, book⟩, hopen, h⟩ := bind_eq_ok.1 h
  unfold openAccount at hopen
  split at hopen
  · cases hopen
  · rename_i a' haccount
    cases hopen
    simp only at h
    split at h
    · cases h
    · rename_i fb hfb
      obtain ⟨info, -, rfl⟩ := Option.map_eq_some_iff.1 hfb
      obtain ⟨processor', hloop, h⟩ := bind_eq_ok.1 h
      split at h
      · cases h
      · cases h
        exact ⟨haccount, getTransactions_account s.inventoryBook _ ▸ hloop⟩

/-! ## What stops a reset -/

/-- A transaction that a reset takes for a purchase has the cost that it goes back to. -/
def CostReadable (P : Platform) (t : Transaction) : Prop :=
  t.agentId = some "inventory-bot" → t.purchaseLog = none → t.originalQuantity ≠ none →
    t.goodPurchaseCost = none → P.missingAmount ≠ none

/-- A purchase with its original quantity is reset if its cost can be read. -/
theorem resetPurchase_throws_iff {P : Platform} {t : Transaction} (h : t.originalQuantity ≠ none) :
    (∃ e, resetPurchase P t = .error e) ↔
      ¬(t.goodPurchaseCost = none → P.missingAmount ≠ none) := by
  obtain ⟨q, hq⟩ := Option.ne_none_iff_exists'.1 h
  unfold resetPurchase
  rw [hq, ← P.newAmount_returns_iff]
  cases P.newAmount t.goodPurchaseCost <;> simp [bind, Except.bind, pure, Except.pure]

/-- Whether a transaction stops a reset does not depend on what is queued. -/
theorem resetTransaction_throws_iff {P : Platform} {fb : Book}
    (processor : ResetCostOfSalesProcessor) (tx : Transaction) :
    (∃ e, resetTransaction P fb processor tx = .error e) ↔ ¬CostReadable P tx := by
  unfold resetTransaction CostReadable
  dsimp only
  by_cases hagent : tx.agentId = some "inventory-bot"
  · rw [if_pos hagent]
    by_cases hlog : tx.purchaseLog = none
    · rw [if_neg (by simp [hlog])]
      by_cases hq : tx.originalQuantity = none
      · simp [hagent, hlog, hq, pure, Except.pure]
      · rw [if_pos (by simpa [Option.isSome_iff_ne_none] using hq)]
        refine (bind_throws_iff fun _ => ⟨_, rfl⟩).trans
          ((resetPurchase_throws_iff (t := { tx with checked := false }) hq).trans (not_congr ?_))
        simp [hagent, hlog, hq]
    · rw [if_pos (by simpa [Option.isSome_iff_ne_none] using hlog)]
      simp [hlog, pure, Except.pure]
  · simp [hagent, pure, Except.pure]

/-- A reset of an account of the book throws if its financial book is found and a purchase has no
    cost to go back to. -/
theorem reset_throws_iff {P : Platform} {collection : Option (List BookInfo)} {s : State}
    {goodAccountId : String} {a : Account} (ha : s.inventoryBook.getAccount goodAccountId = some a) :
    (∃ e, (resetCostOfSalesForAccount P collection s goodAccountId).2 = .threw e) ↔
      BotService.getFinancialBook collection (BotService.getExchangeCode a) ≠ none ∧
        ∃ t ∈ s.inventoryBook.transactions, t.moves a.name ∧ ¬CostReadable P t := by
  have hplan : (∃ e, (resetCostOfSalesForAccount P collection s goodAccountId).2 = .threw e) ↔
      ∃ e, planReset P collection s goodAccountId = .error e := by
    unfold resetCostOfSalesForAccount
    cases planReset P collection s goodAccountId with
    | error e => simp
    | ok plan => cases plan <;> simp
  rw [hplan]
  unfold planReset openAccount
  simp only [ha]
  cases BotService.getFinancialBook collection (BotService.getExchangeCode a) with
  | none => simp [bind, Except.bind, pure, Except.pure]
  | some info =>
    have hends : ∀ processor : ResetCostOfSalesProcessor, ∃ plan,
        (if processor.hasLockedTransaction then pure (.stop .lockError)
          else pure (.fire a processor) : Except Exception ResetPlan) = .ok plan := by
      intro processor
      split
      · exact ⟨_, rfl⟩
      · exact ⟨_, rfl⟩
    refine (bind_throws_iff hends).trans ?_
    rw [foldlM_throws_iff fun processor tx => resetTransaction_throws_iff processor tx,
      getTransactions_account]
    simp [and_assoc]

/-! ## The inventory transactions after a reset -/

/-- A transaction of the book after the update of a reset. -/
def resetRow (P : Platform) (account : String) (t : Transaction) : Transaction :=
  if t.moves account then (resetUpdate P t).getD t else t

/-- A transaction after the update of a reset is as before, or is the update queued for it. -/
theorem resetRow_cases (P : Platform) (account : String) (t : Transaction) :
    resetRow P account t = t ∨
      (t.moves account ∧ resetUpdate P t = some (resetRow P account t)) := by
  unfold resetRow
  split
  · rename_i hmoves
    cases h : resetUpdate P t with
    | none => exact Or.inl rfl
    | some u => exact Or.inr ⟨hmoves, rfl⟩
  · exact Or.inl rfl

theorem resetRow_sameIdentity (P : Platform) (account : String) (t : Transaction) :
    SameIdentity t (resetRow P account t) := by
  rcases resetRow_cases P account t with h | ⟨-, h⟩
  · rw [h]
    exact .refl t
  · exact resetUpdate_sameIdentity h

@[simp] theorem resetRow_id (P : Platform) (account : String) (t : Transaction) :
    (resetRow P account t).id = t.id :=
  (resetRow_sameIdentity P account t).id

/-- A reset leaves an amount as it is, or makes it the quantity that was posted. -/
theorem resetRow_amount (P : Platform) (account : String) (t : Transaction) :
    (resetRow P account t).amount = t.amount ∨
      t.originalQuantity = some (resetRow P account t).amount := by
  rcases resetRow_cases P account t with hrow | ⟨-, hrow⟩
  · exact Or.inl (by rw [hrow])
  · rcases resetUpdate_cases hrow with ⟨-, he⟩ | ⟨-, cost, q, -, hq, he⟩ | ⟨-, -, -, he⟩
    · exact Or.inl (by rw [he])
    · exact Or.inr (by rw [he, hq])
    · exact Or.inl (by rw [he])

/-- A transaction is readable if it would be so without its purchase log. -/
theorem CostReadable.of_sameIdentity {P : Platform} {t u : Transaction}
    (h : CostReadable P { t with purchaseLog := none }) (hsame : SameIdentity t u) :
    CostReadable P u := by
  intro hagent _ hquantity hcost
  rw [hsame.agentId] at hagent
  rw [hsame.originalQuantity] at hquantity
  rw [hsame.goodPurchaseCost] at hcost
  exact h hagent rfl hquantity hcost

/-- A reset makes nothing a credit note. -/
theorem isCreditNote_of_resetRow {P : Platform} {account : String} {t : Transaction}
    (h : BotService.isCreditNote (resetRow P account t)) : BotService.isCreditNote t := by
  have hsame := resetRow_sameIdentity P account t
  obtain ⟨hposted, hdebit, number, hnumber⟩ := isCreditNote_iff.1 h
  rw [hsame.posted] at hposted
  rw [hsame.debitAccount] at hdebit
  refine isCreditNote_iff.2 ⟨hposted, hdebit, number, ?_⟩
  rcases resetRow_cases P account t with hrow | ⟨-, hrow⟩
  · rwa [hrow] at hnumber
  · rcases resetUpdate_cases hrow with ⟨-, he⟩ | ⟨-, cost, q, -, hq, he⟩ | ⟨-, -, -, he⟩
    · rwa [he] at hnumber
    · rw [he] at hnumber
      cases hnumber
    · rwa [he] at hnumber

section Rows

variable {P : Platform} {s : State} {goodAccountId : String} {goodAccount : Account}
  {processor : ResetCostOfSalesProcessor}

/-- What a reset has queued for each transaction of the book. -/
theorem ResetFires.queues (h : ResetFires P s goodAccountId goodAccount processor)
    (hids : (s.inventoryBook.transactions.map Transaction.id).Nodup) {t : Transaction}
    (ht : t ∈ s.inventoryBook.transactions) :
    processor.inventoryBookTransactionsToUpdateMap.get t.id =
        (if t.moves goodAccount.name then resetUpdate P t else none) ∧
      (t.id ∈ processor.inventoryBookTransactionsToTrashMap.keys ↔
        t.moves goodAccount.name ∧ resetTrash t) := by
  have hn := hids.sublist (List.Sublist.map Transaction.id
    (List.filter_sublist (p := (·.moves goodAccount.name)) (l := s.inventoryBook.transactions)))
  obtain ⟨hlisted, hothers⟩ := foldlM_resetTransaction hn h.loop fun _ _ => ⟨by simp, by simp⟩
  by_cases hmoves : t.moves goodAccount.name
  · obtain ⟨hu, hk⟩ := hlisted t (List.mem_filter.2 ⟨ht, hmoves⟩)
    rw [hu, hk, if_pos hmoves]
    exact ⟨rfl, by simp [hmoves]⟩
  · have hother : t.id ∉ (s.inventoryBook.transactions.filter
        (·.moves goodAccount.name)).map Transaction.id := by
      intro hid
      obtain ⟨u, hu, hid⟩ := List.mem_map.1 hid
      obtain ⟨hustored, humoves⟩ := List.mem_filter.1 hu
      obtain rfl : u = t := List.inj_on_of_nodup_map hids hustored ht hid
      exact hmoves humoves
    obtain ⟨hu, hk⟩ := hothers t.id hother
    rw [hu, hk, if_neg hmoves]
    exact ⟨rfl, by simp [hmoves]⟩

theorem fireBatchOperations_two_rows
    (h : ResetFires P s goodAccountId goodAccount processor)
    (hids : (s.inventoryBook.transactions.map Transaction.id).Nodup) :
    (processor.fireBatchOperations 2 s).inventoryBook.transactions =
      s.inventoryBook.transactions.map (resetRow P goodAccount.name) := by
  obtain ⟨hkeyed, -, -⟩ := foldlM_resetTransaction_keyed h.loop Book.keyedById_empty
    Book.keyedById_empty Book.keyedById_empty
  refine List.map_congr_left fun t ht => ?_
  rw [Book.updated_values hkeyed, (h.queues hids ht).1, resetRow]
  split <;> rfl

theorem fireBatchOperations_three_rows
    (h : ResetFires P s goodAccountId goodAccount processor)
    (hids : (s.inventoryBook.transactions.map Transaction.id).Nodup) :
    (processor.fireBatchOperations 3 s).inventoryBook.transactions =
      (s.inventoryBook.transactions.filter fun t =>
        !(t.moves goodAccount.name && resetTrash t)).map (resetRow P goodAccount.name) := by
  obtain ⟨-, hkeyed, -⟩ := foldlM_resetTransaction_keyed h.loop Book.keyedById_empty
    Book.keyedById_empty Book.keyedById_empty
  calc (processor.fireBatchOperations 3 s).inventoryBook.transactions
      = (s.inventoryBook.transactions.map (resetRow P goodAccount.name)).filter fun t =>
          !processor.inventoryBookTransactionsToTrashMap.values.any (·.id == t.id) := by
        rw [← fireBatchOperations_two_rows h hids]
        rfl
    _ = _ := by
        rw [List.filter_map]
        congr 1
        refine List.filter_congr fun t ht => ?_
        rw [Function.comp_apply, resetRow_id, Bool.eq_iff_iff, Bool.not_eq_true',
          Bool.not_eq_true', ← Bool.not_eq_true, ← Bool.not_eq_true, Book.any_id_values hkeyed,
          (h.queues hids ht).2, Bool.and_eq_true]

end Rows

end InventoryBot.Menu
