import InventoryBot.Menu.Runs

/-!
# Locked transactions

The processors look at the lock of every transaction that is queued, and the services look at the
processors before they fire the batches.

* `LocksSeen`: what a processor knows about the locks of the updates in its queue.
* `planCalculation_unlocked`, `planReset_unlocked`: what is queued when the batches are fired.
* `errors_write_nothing`: a run that stops writes nothing, and one that writes touches nothing
  that was locked.
-/

namespace InventoryBot.Menu

open Lib CostOfSalesService

/-- The transaction is a version of a stored one, with its lock. -/
def LockOf (store : List Transaction) (t : Transaction) : Prop :=
  ∃ r ∈ store, r.id = t.id ∧ r.locked = t.locked

theorem lockOf_stored {store : List Transaction} {t : Transaction} (h : t ∈ store) :
    LockOf store t := ⟨t, h, rfl, rfl⟩

/-- In a store with different ids, an unlocked version tells that the stored one is unlocked. -/
theorem LockOf.unlocked {store : List Transaction} (hids : (store.map Transaction.id).Nodup)
    {t r : Transaction} (h : LockOf store t) (ht : t.locked = false) (hr : r ∈ store)
    (hid : t.id = r.id) : r.locked = false := by
  obtain ⟨r', hr', hid', hlocked⟩ := h
  obtain rfl : r' = r := List.inj_on_of_nodup_map hids hr' hr (hid'.trans hid)
  exact hlocked.trans ht

/-- The queued transactions are versions of stored ones, and if one of them is locked, the
    processor has seen it. -/
structure Seen (store : List Transaction) (queue : OrderedMap String Transaction) (seen : Bool) :
    Prop where
  rows : ∀ t ∈ queue.values, LockOf store t
  locked : ∀ t ∈ queue.values, t.locked = true → seen = true

section Seen

variable {store : List Transaction} {queue : OrderedMap String Transaction} {seen : Bool}

theorem seen_empty (store : List Transaction) (seen : Bool) : Seen store ∅ seen :=
  ⟨fun t ht => absurd ht (List.not_mem_nil : t ∉ []),
    fun t ht _ => absurd ht (List.not_mem_nil : t ∉ [])⟩

/-- Another queue has grown. -/
theorem Seen.or (h : Seen store queue seen) (locked : Bool) : Seen store queue (seen || locked) :=
  ⟨h.rows, fun t ht hlocked => by rw [h.locked t ht hlocked, Bool.true_or]⟩

/-- The queue has grown. -/
theorem Seen.set (h : Seen store queue seen) {t : Transaction} (ht : LockOf store t) (k : String) :
    Seen store (queue.set k t) (seen || t.locked) := by
  constructor
  · intro u hu
    rcases OrderedMap.mem_values_set hu with rfl | hu
    · exact ht
    · exact h.rows u hu
  · intro u hu hlocked
    rcases OrderedMap.mem_values_set hu with rfl | hu
    · rw [hlocked, Bool.or_true]
    · rw [h.locked u hu hlocked, Bool.true_or]

/-- If no lock was seen, none of the queued transactions is locked in the store. -/
theorem Seen.unlocked (h : Seen store queue false) (hids : (store.map Transaction.id).Nodup)
    {r : Transaction} (hr : r ∈ store) (hqueued : r.id ∈ queue.values.map Transaction.id) :
    r.locked = false := by
  obtain ⟨t, ht, hid⟩ := List.mem_map.1 hqueued
  have hlocked : t.locked = false := by
    by_contra hne
    exact absurd (h.locked t ht (by simpa using hne)) Bool.false_ne_true
  exact (h.rows t ht).unlocked hids hlocked hr hid

end Seen

/-! ## Calculations -/

section Calculation

variable {P : Platform} {env : RunEnv} {fb ib : Book} {store : List Transaction}

/-- The processor has looked at the locks of the updates in its queue. -/
abbrev LocksSeen (store : List Transaction) (processor : CalculateCostOfSalesProcessor) : Prop :=
  Seen store processor.inventoryBookTransactionsToUpdateMap processor.isAnyTransactionLocked

theorem processPurchase_locks {sale p p' : Transaction} {st st' : SaleLoop}
    (h : processPurchase P env fb sale p st = .ok (p', st')) (hp : LockOf store p)
    (hst : LocksSeen store st.processor) : LockOf store p' ∧ LocksSeen store st'.processor := by
  obtain ⟨quantity, cost, amounts, -, -, -, hcase⟩ := processPurchase_cases h
  rcases hcase with ⟨-, rfl, rfl⟩ | ⟨-, code, -, rfl, rfl⟩
  · exact ⟨hp, hst.set (t := taken P sale p quantity cost amounts) hp _⟩
  · exact ⟨hp, (hst.set (t := reduced P p st.soldQuantity quantity cost amounts) hp _).or _⟩

theorem processPurchases_locks {sale : Transaction} :
    ∀ {ps ps' : List Transaction} {st st' : SaleLoop},
      processPurchases P env fb sale ps st = .ok (ps', st') → (∀ p ∈ ps, LockOf store p) →
      LocksSeen store st.processor →
      (∀ p ∈ ps', LockOf store p) ∧ LocksSeen store st'.processor := by
  intro ps
  induction ps with
  | nil =>
    intro ps' st st' h hps hst
    cases h
    exact ⟨hps, hst⟩
  | cons p ps ih =>
    intro ps' st st' h hps hst
    obtain ⟨hp, hps⟩ := List.forall_mem_cons.1 hps
    rcases processPurchases_cons h with ⟨-, qs, hrest, rfl⟩ | ⟨-, p', st₁, hone, hend⟩
    · obtain ⟨hqs, hst'⟩ := ih hrest hps hst
      exact ⟨List.forall_mem_cons.2 ⟨hp, hqs⟩, hst'⟩
    · obtain ⟨hp', hst₁⟩ := processPurchase_locks hone hp hst
      rcases hend with ⟨-, rfl, rfl⟩ | ⟨-, qs, hrest, rfl⟩
      · exact ⟨List.forall_mem_cons.2 ⟨hp', hps⟩, hst₁⟩
      · obtain ⟨hqs, hst₂⟩ := ih hrest hps hst₁
        exact ⟨List.forall_mem_cons.2 ⟨hp', hqs⟩, hst₂⟩

theorem processSale_locks {sale : Transaction} {ps ps' : List Transaction}
    {processor processor' : CalculateCostOfSalesProcessor}
    (h : processSale P env fb ib sale ps processor = .ok (ps', processor'))
    (hsale : LockOf store sale) (hps : ∀ p ∈ ps, LockOf store p)
    (hprocessor : LocksSeen store processor) :
    (∀ p ∈ ps', LockOf store p) ∧ LocksSeen store processor' := by
  obtain ⟨st, hloop, hend⟩ := processSale_cases h
  obtain ⟨hps', hst⟩ := processPurchases_locks hloop hps hprocessor
  have hsettled : LockOf store (settleSale st.saleCost st.purchaseLogEntries sale) := by
    unfold settleSale
    split <;> exact hsale
  rcases hend with ⟨-, rfl⟩ | ⟨-, rfl⟩
  · exact ⟨hps', (hst.set hsettled _).or _⟩
  · exact ⟨hps', hst.or _⟩

/-- The loop over the sales ends without a locked transaction, if there is a sale at all. -/
theorem processSales_locks :
    ∀ {sales ps ps' : List Transaction} {processor processor' : CalculateCostOfSalesProcessor},
      processSales P env fb ib sales ps processor = .ok (some (ps', processor')) →
      (∀ sale ∈ sales, LockOf store sale) → (∀ p ∈ ps, LockOf store p) →
      LocksSeen store processor →
      LocksSeen store processor' ∧ (sales ≠ [] → processor'.isAnyTransactionLocked = false) := by
  intro sales
  induction sales with
  | nil =>
    intro ps ps' processor processor' h _ _ hprocessor
    cases h
    exact ⟨hprocessor, fun hne => absurd rfl hne⟩
  | cons sale sales ih =>
    intro ps ps' processor processor' h hsales hps hprocessor
    obtain ⟨hsale, hsales⟩ := List.forall_mem_cons.1 hsales
    obtain ⟨qs, processor₁, hone, hunlocked, h⟩ := processSales_cons.1 h
    obtain ⟨hqs, hprocessor₁⟩ := processSale_locks hone hsale hps hprocessor
    obtain ⟨hprocessor', hlater⟩ := ih h hsales hqs hprocessor₁
    refine ⟨hprocessor', fun _ => ?_⟩
    -- the check after the last sale is the one that counts
    cases sales with
    | nil =>
      cases h
      exact by simpa [CalculateCostOfSalesProcessor.hasLockedTransaction] using hunlocked
    | cons sale' sales => exact hlater (by simp)

/-- A lock that is met among the credit notes is remembered. -/
theorem processCreditNotes_locks :
    ∀ {notes : List (Option String × Transaction)}
      {purchases purchases' : OrderedMap (Option String) Transaction}
      {processor processor' : CalculateCostOfSalesProcessor},
      processCreditNotes P notes purchases processor = .ok (.done purchases' processor') →
      (∀ e ∈ notes, LockOf store e.2) → (∀ p ∈ purchases.values, LockOf store p) →
      LocksSeen store processor →
      (∀ p ∈ purchases'.values, LockOf store p) ∧ LocksSeen store processor' := by
  intro notes
  induction notes with
  | nil =>
    intro purchases purchases' processor processor' h _ hpurchases hprocessor
    cases h
    exact ⟨hpurchases, hprocessor⟩
  | cons e notes ih =>
    obtain ⟨number, note⟩ := e
    intro purchases purchases' processor processor' h hnotes hpurchases hprocessor
    obtain ⟨hnote, hnotes⟩ := List.forall_mem_cons.1 hnotes
    rcases processCreditNotes_cons h with ⟨-, h⟩ | ⟨p, code, hp, -, -, h⟩
    · exact ih h hnotes hpurchases hprocessor
    · have hcredited : LockOf store (credited P note p) :=
        hpurchases p (OrderedMap.mem_values_of_get hp)
      refine ih h hnotes ?_ ?_
      · intro q hq
        rcases OrderedMap.mem_values_set hq with rfl | hq
        · exact hcredited
        · exact hpurchases q hq
      · exact ((hprocessor.or _).set hcredited _).set (t := applied note) hnote _

variable {collection : Option (List BookInfo)} {s : State} {goodAccountId : String}
  {toDate : Option Date} {goodAccount : Account} {sales : List Transaction}
  {processor : CalculateCostOfSalesProcessor}

/-- The ids of the inventory transactions that a calculation updates. -/
def calculationTargets (P : Platform) (collection : Option (List BookInfo)) (env : RunEnv)
    (s : State) (goodAccountId : String) (toDate : Option Date) : List String :=
  match planCalculation P collection env s goodAccountId toDate with
  | .ok (.fire _ _ processor) =>
    processor.inventoryBookTransactionsToUpdateMap.values.map Transaction.id
  | _ => []

/-- When the batches of a calculation are fired, a lock has been looked for in all updates. -/
theorem planCalculation_unlocked
    (h : planCalculation P collection env s goodAccountId toDate =
      .ok (.fire goodAccount sales processor)) :
    Seen s.inventoryBook.transactions processor.inventoryBookTransactionsToUpdateMap false := by
  obtain ⟨hpassed, hlisting⟩ := planCalculation_fire h
  obtain ⟨-, rfl, purchases, processor₁, ps, hnotes, hsales⟩ := planListing_fire hlisting
  obtain ⟨hlistedSales, hlistedPurchases, hlistedNotes⟩ :=
    listing_mem P s goodAccount (toDate.getD env.today)
  obtain ⟨hpurchases, hprocessor₁⟩ := processCreditNotes_locks hnotes
    (fun e he => lockOf_stored (hlistedNotes e he).1.stored)
    (fun p hp => by
      obtain ⟨k, hk⟩ := OrderedMap.mem_values_iff.1 hp
      exact lockOf_stored (hlistedPurchases k p hk).1.stored)
    (seen_empty s.inventoryBook.transactions false)
  obtain ⟨hprocessor, hunlocked⟩ := processSales_locks hsales
    (fun t ht => lockOf_stored (hlistedSales t ((sortFIFO_perm _).mem_iff.1 ht)).1.stored)
    (fun p hp => hpurchases p ((sortFIFO_perm _).mem_iff.1 hp)) hprocessor₁
  rw [← hunlocked hpassed.sales_ne_nil]
  exact hprocessor

end Calculation

/-! ## Resets -/

section Reset

variable {P : Platform} {fb : Book} {store costs : List Transaction}
  {processor processor' : ResetCostOfSalesProcessor}

/-- The processor has looked at the locks of everything in its three queues. -/
structure ResetSeen (store costs : List Transaction) (processor : ResetCostOfSalesProcessor) :
    Prop where
  updated : Seen store processor.inventoryBookTransactionsToUpdateMap
    processor.isAnyTransactionLocked
  trashed : Seen store processor.inventoryBookTransactionsToTrashMap
    processor.isAnyTransactionLocked
  costs : Seen costs processor.financialBookTransactionsToTrashMap processor.isAnyTransactionLocked

theorem ResetSeen.update (h : ResetSeen store costs processor) {t : Transaction}
    (ht : LockOf store t) :
    ResetSeen store costs (processor.setInventoryBookTransactionToUpdate t) :=
  ⟨h.updated.set ht _, h.trashed.or _, h.costs.or _⟩

theorem ResetSeen.trash (h : ResetSeen store costs processor) {t : Transaction}
    (ht : LockOf store t) :
    ResetSeen store costs (processor.setInventoryBookTransactionToTrash t) :=
  ⟨h.updated.or _, h.trashed.set ht _, h.costs.or _⟩

theorem ResetSeen.trashCost (h : ResetSeen store costs processor) {t : Transaction}
    (ht : LockOf costs t) :
    ResetSeen store costs (processor.setFinancialBookTransactionToTrash t) :=
  ⟨h.updated.or _, h.trashed.or _, h.costs.set ht _⟩

/-- One pass of the loop of a reset. -/
theorem resetTransaction_locks {tx : Transaction} (htx : tx ∈ store)
    (h : resetTransaction P fb processor tx = .ok processor')
    (hprocessor : ResetSeen store fb.transactions processor) :
    ResetSeen store fb.transactions processor' := by
  have hunchecked : LockOf store { tx with checked := false } := ⟨tx, htx, rfl, rfl⟩
  unfold resetTransaction at h
  dsimp only at h
  split at h
  swap
  · cases h
    exact hprocessor
  split at h
  · cases h
    refine ResetSeen.update ?_ hunchecked
    split
    · rename_i cogs hcogs
      have hstored : cogs ∈ fb.transactions := List.mem_of_mem_filter (List.mem_of_head? hcogs)
      exact hprocessor.trashCost ⟨cogs, hstored, rfl, rfl⟩
    · exact hprocessor
  have htrash : ResetSeen store fb.transactions (if truthy tx.parentId
      then processor.setInventoryBookTransactionToTrash { tx with checked := false }
      else processor) := by
    split
    · exact hprocessor.trash hunchecked
    · exact hprocessor
  split at h
  · obtain ⟨tx', hreset, h⟩ := bind_eq_ok.1 h
    obtain ⟨cost, quantity, -, -, rfl⟩ := resetPurchase_ok hreset
    have hreset' := htrash.update (t := { tx with
      checked := false, amount := quantity, totalCost := some cost, liquidationLog := none,
      additionalCosts := none, creditNote := none }) ⟨tx, htx, rfl, rfl⟩
    cases h
    exact hreset'
  · cases h
    split
    · exact htrash.update hunchecked
    · exact htrash

theorem foldlM_resetTransaction_locks {l : List Transaction} (hl : ∀ tx ∈ l, tx ∈ store)
    (h : l.foldlM (resetTransaction P fb) processor = .ok processor')
    (hprocessor : ResetSeen store fb.transactions processor) :
    ResetSeen store fb.transactions processor' := by
  induction l generalizing processor with
  | nil =>
    cases h
    exact hprocessor
  | cons tx l ih =>
    obtain ⟨htx, hl⟩ := List.forall_mem_cons.1 hl
    rw [List.foldlM_cons] at h
    obtain ⟨processor₁, hone, h⟩ := bind_eq_ok.1 h
    exact ih hl h (resetTransaction_locks htx hone hprocessor)

variable {collection : Option (List BookInfo)} {s : State} {goodAccountId : String}
  {goodAccount : Account}

/-- When the batches of a reset are fired, a lock has been looked for in all three queues, and none
    was found. -/
theorem planReset_unlocked
    (h : planReset P collection s goodAccountId = .ok (.fire goodAccount processor)) :
    ResetSeen s.inventoryBook.transactions s.financialBook.transactions processor ∧
      processor.isAnyTransactionLocked = false := by
  constructor
  · refine foldlM_resetTransaction_locks (fun tx htx => List.mem_of_mem_filter htx)
      (planReset_fire h).loop ?_
    exact ⟨seen_empty _ _, seen_empty _ _, seen_empty _ _⟩
  · unfold planReset at h
    obtain ⟨⟨a, book⟩, -, h⟩ := bind_eq_ok.1 h
    simp only at h
    split at h
    · cases h
    · obtain ⟨processor', -, h⟩ := bind_eq_ok.1 h
      split at h
      · cases h
      · rename_i hunlocked
        cases h
        simpa [ResetCostOfSalesProcessor.hasLockedTransaction] using hunlocked

/-- The ids of the inventory transactions that a reset updates or trashes. -/
def resetTargets (P : Platform) (collection : Option (List BookInfo)) (s : State)
    (goodAccountId : String) : List String :=
  match planReset P collection s goodAccountId with
  | .ok (.fire _ processor) =>
    processor.inventoryBookTransactionsToUpdateMap.values.map Transaction.id ++
      processor.inventoryBookTransactionsToTrashMap.values.map Transaction.id
  | _ => []

/-- The ids of the financial transactions that a reset trashes. -/
def resetCostTargets (P : Platform) (collection : Option (List BookInfo)) (s : State)
    (goodAccountId : String) : List String :=
  match planReset P collection s goodAccountId with
  | .ok (.fire _ processor) => processor.financialBookTransactionsToTrashMap.values.map Transaction.id
  | _ => []

end Reset

/-! ## Both services -/

/-- What a run does to the rows of a book: the batches touch unlocked rows only, and the rows that
    they do not touch stay as they are. -/
structure TouchesUnlocked (rows rows' : List Transaction) (targets : List String) : Prop where
  unlocked : ∀ r ∈ rows, r.id ∈ targets → r.locked = false
  kept : ∀ r ∈ rows, r.id ∉ targets → r ∈ rows'

theorem touchesUnlocked_same (rows : List Transaction) : TouchesUnlocked rows rows [] :=
  ⟨fun _ _ h => absurd h List.not_mem_nil, fun _ hr _ => hr⟩

theorem updated_of_notMem {queued : List Transaction} {r : Transaction}
    (h : r.id ∉ queued.map Transaction.id) : Book.updated queued r = r := by
  unfold Book.updated
  rw [List.find?_eq_none.2]
  · rfl
  · intro t ht hid
    exact h (List.mem_map.2 ⟨t, ht, by simpa using hid⟩)

theorem mem_batchTrashTransactions {b : Book} {queued : List Transaction} {r : Transaction}
    (hr : r ∈ b.transactions) (h : r.id ∉ queued.map Transaction.id) :
    r ∈ (b.batchTrashTransactions queued).transactions := by
  refine List.mem_filter.2 ⟨hr, ?_⟩
  rw [Bool.not_eq_true', List.any_eq_false]
  intro t ht hid
  exact h (List.mem_map.2 ⟨t, ht, by simpa using hid⟩)

theorem mem_batchUpdateTransactions {b : Book} {queued : List Transaction} {r : Transaction}
    (hr : r ∈ b.transactions) (h : r.id ∉ queued.map Transaction.id) :
    r ∈ (b.batchUpdateTransactions queued).transactions :=
  List.mem_map.2 ⟨r, hr, updated_of_notMem h⟩

section Services

variable {s : State} {goodAccountId : String}

theorem reset_touches (P : Platform) (collection : Option (List BookInfo)) (goodAccountId : String)
    (hids : (s.inventoryBook.transactions.map Transaction.id).Nodup)
    (hcosts : (s.financialBook.transactions.map Transaction.id).Nodup) :
    let s' := (resetCostOfSalesForAccount P collection s goodAccountId).1
    TouchesUnlocked s.inventoryBook.transactions s'.inventoryBook.transactions
        (resetTargets P collection s goodAccountId) ∧
      TouchesUnlocked s.financialBook.transactions s'.financialBook.transactions
        (resetCostTargets P collection s goodAccountId) := by
  unfold resetCostOfSalesForAccount resetTargets resetCostTargets
  cases hplan : planReset P collection s goodAccountId with
  | error e => exact ⟨touchesUnlocked_same _, touchesUnlocked_same _⟩
  | ok plan =>
    cases plan with
    | stop summary => exact ⟨touchesUnlocked_same _, touchesUnlocked_same _⟩
    | fire goodAccount processor =>
      obtain ⟨⟨hupdated, htrashed, htrashedCosts⟩, hnone⟩ := planReset_unlocked hplan
      rw [hnone] at hupdated htrashed htrashedCosts
      refine ⟨⟨fun r hr htarget => ?_, fun r hr htarget => ?_⟩,
        ⟨fun r hr htarget => htrashedCosts.unlocked hcosts hr htarget, fun r hr htarget => ?_⟩⟩
      · rcases List.mem_append.1 htarget with htarget | htarget
        · exact hupdated.unlocked hids hr htarget
        · exact htrashed.unlocked hids hr htarget
      · rw [List.mem_append, not_or] at htarget
        exact mem_batchTrashTransactions (mem_batchUpdateTransactions hr htarget.1) htarget.2
      · exact mem_batchTrashTransactions hr htarget

theorem calculate_touches (P : Platform) (collection : Option (List BookInfo)) (env : RunEnv)
    (toDate : Option Date) (hids : (s.inventoryBook.transactions.map Transaction.id).Nodup)
    (hunflagged : ∀ a, s.inventoryBook.getAccount goodAccountId = some a →
      GoodAccount.needsRebuild a = false) :
    let s' := (calculateCostOfSalesForAccount P collection env s goodAccountId toDate).1
    TouchesUnlocked s.inventoryBook.transactions s'.inventoryBook.transactions
        (calculationTargets P collection env s goodAccountId toDate) ∧
      TouchesUnlocked s.financialBook.transactions s'.financialBook.transactions [] := by
  have hbooks : TouchesUnlocked s.inventoryBook.transactions
        (booksAfterPlan P collection env s goodAccountId toDate).inventoryBook.transactions [] ∧
      TouchesUnlocked s.financialBook.transactions
        (booksAfterPlan P collection env s goodAccountId toDate).financialBook.transactions [] := by
    rw [booksAfterPlan_inventoryBook, booksAfterPlan_transactions]
    exact ⟨touchesUnlocked_same _, touchesUnlocked_same _⟩
  unfold calculateCostOfSalesForAccount calculationTargets
  cases hplan : planCalculation P collection env s goodAccountId toDate with
  | error e => exact hbooks
  | ok plan =>
    cases plan with
    | stop summary => exact hbooks
    | reset =>
      obtain ⟨a, ha, hflag⟩ := planCalculation_reset hplan
      rw [hunflagged a ha] at hflag
      cases hflag
    | fire goodAccount sales processor =>
      have hseen := planCalculation_unlocked hplan
      refine ⟨⟨fun r hr htarget => hseen.unlocked hids hr htarget, fun r hr htarget => ?_⟩,
        ⟨fun r _ htarget => absurd htarget List.not_mem_nil, fun r hr _ => ?_⟩⟩
      · show r ∈ (storeLastCalcTxDate P _ goodAccount sales).transactions
        rw [storeLastCalcTxDate_transactions]
        refine mem_batchUpdateTransactions (List.mem_append_left _ ?_) htarget
        rwa [booksAfterPlan_inventoryBook]
      · refine List.mem_append_left _ ?_
        show r ∈ (booksAfterPlan P collection env s goodAccountId toDate).financialBook.transactions
        rwa [booksAfterPlan_transactions]

/-- A calculation of an account that is not flagged, when it ends with an error, a missing book or
    an exception, leaves the inventory book with its accounts and the transactions of the financial
    book as they were; such a reset changes nothing. Otherwise they update and trash transactions
    that are not locked, and leave all others as they are. -/
theorem errors_write_nothing (P : Platform) (collection : Option (List BookInfo)) (env : RunEnv)
    (goodAccountId : String) (toDate : Option Date)
    (hids : (s.inventoryBook.transactions.map Transaction.id).Nodup)
    (hcosts : (s.financialBook.transactions.map Transaction.id).Nodup)
    (hunflagged : ∀ a, s.inventoryBook.getAccount goodAccountId = some a →
      GoodAccount.needsRebuild a = false) :
    let calculation := calculateCostOfSalesForAccount P collection env s goodAccountId toDate
    let reset := resetCostOfSalesForAccount P collection s goodAccountId
    (calculation.2 ≠ .returned .calculatingAsync →
        calculation.1.inventoryBook = s.inventoryBook ∧
          calculation.1.financialBook.transactions = s.financialBook.transactions) ∧
      (reset.2 ≠ .returned .resetingAsync → reset.1 = s) ∧
      TouchesUnlocked s.inventoryBook.transactions calculation.1.inventoryBook.transactions
        (calculationTargets P collection env s goodAccountId toDate) ∧
      TouchesUnlocked s.financialBook.transactions calculation.1.financialBook.transactions [] ∧
      TouchesUnlocked s.inventoryBook.transactions reset.1.inventoryBook.transactions
        (resetTargets P collection s goodAccountId) ∧
      TouchesUnlocked s.financialBook.transactions reset.1.financialBook.transactions
        (resetCostTargets P collection s goodAccountId) := by
  obtain ⟨hinventory, hfinancial⟩ := calculate_touches P collection env toDate hids hunflagged
  obtain ⟨hresetInventory, hresetFinancial⟩ := reset_touches P collection goodAccountId hids hcosts
  refine ⟨fun hne => ?_, fun hne => ?_, hinventory, hfinancial, hresetInventory, hresetFinancial⟩
  · revert hne
    unfold calculateCostOfSalesForAccount
    cases hplan : planCalculation P collection env s goodAccountId toDate with
    | error e => exact fun _ => ⟨booksAfterPlan_inventoryBook, booksAfterPlan_transactions⟩
    | ok plan =>
      cases plan with
      | stop summary =>
        exact fun _ => ⟨booksAfterPlan_inventoryBook, booksAfterPlan_transactions⟩
      | reset =>
        obtain ⟨a, ha, hflag⟩ := planCalculation_reset hplan
        rw [hunflagged a ha] at hflag
        cases hflag
      | fire goodAccount sales processor => exact fun hne => absurd rfl hne
  · rcases reset_cases (P := P) collection goodAccountId hids with ⟨hsame, -⟩ | ⟨hreturned, -⟩
    · exact hsame
    · exact absurd hreturned hne

end Services

namespace Sample

/-- The sample with a locked purchase. -/
def lockedStart : State :=
  state [{ purchase "1" "P1" 1 10 100 with locked := true }, sale "2" "S1" 2 4 80] []

theorem lockedStart_stops : (calculateCostOfSalesForAccount decimalPlatform collection (env 9)
    lockedStart good.id (some 9)).2 = .returned .lockError := by
  decide +kernel

end Sample

/-- The calculation of the sample stops at its lock, when it has created the account of the cost of
    goods sold. -/
example : (calculateCostOfSalesForAccount decimalPlatform Sample.collection (Sample.env 9)
    Sample.lockedStart Sample.good.id (some 9)).1.financialBook.accounts.map Account.name =
      ["Widgets", "Cost of goods sold"] := by
  decide +kernel

/-- The lock keeps the transactions as they were. -/
theorem errors_write_nothing_sample :
    (calculateCostOfSalesForAccount decimalPlatform Sample.collection (Sample.env 9)
        Sample.lockedStart Sample.good.id (some 9)).1.inventoryBook =
          Sample.lockedStart.inventoryBook ∧
      (calculateCostOfSalesForAccount decimalPlatform Sample.collection (Sample.env 9)
        Sample.lockedStart Sample.good.id (some 9)).1.financialBook.transactions =
          Sample.lockedStart.financialBook.transactions := by
  refine (errors_write_nothing decimalPlatform Sample.collection (Sample.env 9) Sample.good.id
    (some 9) (by decide) (by decide) ?_).1 ?_
  · intro a ha
    obtain rfl : Sample.good = a := Option.some.inj ha
    decide
  · rw [Sample.lockedStart_stops]
    decide

end InventoryBot.Menu
