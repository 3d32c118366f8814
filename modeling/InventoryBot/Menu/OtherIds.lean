import InventoryBot.Lib.Agree
import InventoryBot.Menu.DeskRefinement

/-!
# The same calculation with other generated ids

Two runs over the same listing differ in the ids that they generate. They end alike, and what
they queue is the same but for the remote ids of the splits.

* `QueueRelation`: the relations of the processors of two runs that the loops keep.
* `processSales_alike`, `processSales_agree`: the loop over the sales under two run environments.
-/

namespace InventoryBot.Menu

open Lib CostOfSalesService

/-- A queued split without its remote id. -/
def unnamed (t : Transaction) : Transaction := { t with remoteIds := [] }

/-- The queued splits have the numbers of credit notes and generated ids for remote ids. -/
def Named (env : RunEnv) (numbers : List String) (processor : CalculateCostOfSalesProcessor) :
    Prop :=
  ∀ k ∈ processor.inventoryBookTransactionsToCreateMap.keys,
    k ∈ numbers ∨ ∃ i < processor.generatedIds, k = env.uuid i

/-- Two processors have queued the same but for the remote ids of splits. -/
structure SameQueues (env env' : RunEnv) (numbers : List String)
    (processor processor' : CalculateCostOfSalesProcessor) : Prop where
  created : processor'.inventoryBookTransactionsToCreateMap.values.map unnamed =
    processor.inventoryBookTransactionsToCreateMap.values.map unnamed
  updated : processor'.inventoryBookTransactionsToUpdateMap =
    processor.inventoryBookTransactionsToUpdateMap
  posted : processor'.financialBookTransactionsToCreateMap =
    processor.financialBookTransactionsToCreateMap
  locked : processor'.isAnyTransactionLocked = processor.isAnyTransactionLocked
  named : Named env numbers processor
  named' : Named env' numbers processor'

section SameQueues

variable {env env' : RunEnv} {numbers : List String}
  {processor processor' : CalculateCostOfSalesProcessor}

/-- The next generated id has not been used. -/
theorem Named.new (hfresh : Book.FreshIds env.uuid numbers) (h : Named env numbers processor) :
    env.uuid processor.generatedIds ∉ processor.inventoryBookTransactionsToCreateMap.keys := by
  intro hk
  rcases h _ hk with hnumber | ⟨i, hi, he⟩
  · exact hfresh.new _ hnumber
  · exact hi.ne (hfresh.injective he).symm

theorem Named.split (h : Named env numbers processor) {t : Transaction}
    (ht : CalculateCostOfSalesProcessor.getRemoteId t = env.uuid processor.generatedIds) :
    Named env numbers ((processor.generateId env).2.setInventoryBookTransactionToCreate t) := by
  intro k hk
  rcases OrderedMap.mem_keys_set.1 hk with rfl | hk
  · exact Or.inr ⟨processor.generatedIds, Nat.lt_succ_self _, ht⟩
  · exact (h k hk).imp id fun ⟨i, hi, he⟩ => ⟨i, Nat.lt_succ_of_lt hi, he⟩

/-- A split under a new key is queued behind the others. -/
theorem values_split {t : Transaction} (hnew : CalculateCostOfSalesProcessor.getRemoteId t ∉
      processor.inventoryBookTransactionsToCreateMap.keys) :
    ((processor.generateId env).2.setInventoryBookTransactionToCreate
      t).inventoryBookTransactionsToCreateMap.values =
        processor.inventoryBookTransactionsToCreateMap.values ++ [t] :=
  OrderedMap.values_set_of_absent _ hnew

theorem SameQueues.update (h : SameQueues env env' numbers processor processor')
    (t : Transaction) :
    SameQueues env env' numbers (processor.setInventoryBookTransactionToUpdate t)
      (processor'.setInventoryBookTransactionToUpdate t) where
  created := h.created
  updated := congrArg (fun m => OrderedMap.set m t.id t) h.updated
  posted := h.posted
  locked := congrArg (· || t.locked) h.locked
  named := h.named
  named' := h.named'

theorem SameQueues.post (h : SameQueues env env' numbers processor processor')
    (t : Transaction) :
    SameQueues env env' numbers (processor.setFinancialBookTransactionToCreate t)
      (processor'.setFinancialBookTransactionToCreate t) where
  created := h.created
  updated := h.updated
  posted := congrArg
    (fun m => OrderedMap.set m (CalculateCostOfSalesProcessor.getRemoteId t) t) h.posted
  locked := congrArg (· || t.locked) h.locked
  named := h.named
  named' := h.named'

/-- A split is queued under the next generated id of each run. -/
theorem SameQueues.split (h : SameQueues env env' numbers processor processor')
    (hfresh : Book.FreshIds env.uuid numbers) (hfresh' : Book.FreshIds env'.uuid numbers)
    {t t' : Transaction}
    (ht : CalculateCostOfSalesProcessor.getRemoteId t = env.uuid processor.generatedIds)
    (ht' : CalculateCostOfSalesProcessor.getRemoteId t' = env'.uuid processor'.generatedIds)
    (hsame : unnamed t' = unnamed t) :
    SameQueues env env' numbers
      ((processor.generateId env).2.setInventoryBookTransactionToCreate t)
      ((processor'.generateId env').2.setInventoryBookTransactionToCreate t') where
  created := by
    rw [values_split (ht' ▸ h.named'.new hfresh'), values_split (ht ▸ h.named.new hfresh),
      List.map_append, List.map_append, h.created, List.map_singleton, List.map_singleton, hsame]
  updated := h.updated
  posted := h.posted
  locked := by
    have hlocked : (unnamed t').locked = (unnamed t).locked := by rw [hsame]
    exact congrArg₂ (· || ·) h.locked hlocked
  named := h.named.split ht
  named' := h.named'.split ht'

end SameQueues

/-! ## The loops under two run environments -/

/-- A relation of the processors of two runs that queueing keeps. -/
structure QueueRelation (env env' : RunEnv)
    (R : CalculateCostOfSalesProcessor → CalculateCostOfSalesProcessor → Prop) : Prop where
  update : ∀ {processor processor'}, R processor processor' → ∀ t,
    R (processor.setInventoryBookTransactionToUpdate t)
      (processor'.setInventoryBookTransactionToUpdate t)
  post : ∀ {processor processor'}, R processor processor' → ∀ t,
    R (processor.setFinancialBookTransactionToCreate t)
      (processor'.setFinancialBookTransactionToCreate t)
  split : ∀ {processor processor'}, R processor processor' → ∀ {t t'},
    CalculateCostOfSalesProcessor.getRemoteId t = env.uuid processor.generatedIds →
    CalculateCostOfSalesProcessor.getRemoteId t' = env'.uuid processor'.generatedIds →
    t.creditNote = none → unnamed t' = unnamed t →
    R ((processor.generateId env).2.setInventoryBookTransactionToCreate t)
      ((processor'.generateId env').2.setInventoryBookTransactionToCreate t')
  locked : ∀ {processor processor'}, R processor processor' →
    processor'.isAnyTransactionLocked = processor.isAnyTransactionLocked

/-- The loops over the purchases of a sale have come equally far in two runs. -/
structure LoopsAlike (R : CalculateCostOfSalesProcessor → CalculateCostOfSalesProcessor → Prop)
    (st st' : SaleLoop) : Prop where
  soldQuantity : st'.soldQuantity = st.soldQuantity
  saleCost : st'.saleCost = st.saleCost
  purchaseLogEntries : st'.purchaseLogEntries = st.purchaseLogEntries
  processor : R st.processor st'.processor

section Loops

variable {P : Platform} {env env' : RunEnv} {fb ib : Book}
  {R : CalculateCostOfSalesProcessor → CalculateCostOfSalesProcessor → Prop}

theorem processPurchase_alike (hR : QueueRelation env env' R) (sale p : Transaction)
    {st st' : SaleLoop} (h : LoopsAlike R st st') :
    Agree (fun r r' => r'.1 = r.1 ∧ LoopsAlike R r.2 r'.2)
      (processPurchase P env fb sale p st) (processPurchase P env' fb sale p st') := by
  obtain ⟨hsold, hcost, hlog, hqueues⟩ := h
  unfold processPurchase
  refine agree_bind_same _ fun originalQuantity => ?_
  refine agree_bind_same _ fun transactionCost => ?_
  refine agree_bind_same _ fun amounts => ?_
  refine agree_bind_same _ fun costOfSalePerUnit => ?_
  simp only [hsold, hcost, hlog]
  split
  · exact agree_pure ⟨rfl, rfl, rfl, rfl, hR.update hqueues _⟩
  · split
    · exact agree_throw _
    · exact agree_pure ⟨rfl, rfl, rfl, rfl, hR.split (hR.update hqueues _) rfl rfl rfl rfl⟩

theorem processPurchases_alike (hR : QueueRelation env env' R) (sale : Transaction) :
    ∀ (ps : List Transaction) {st st' : SaleLoop}, LoopsAlike R st st' →
      Agree (fun r r' => r'.1 = r.1 ∧ LoopsAlike R r.2 r'.2)
        (processPurchases P env fb sale ps st) (processPurchases P env' fb sale ps st') := by
  intro ps
  induction ps with
  | nil =>
    intro st st' h
    exact agree_pure ⟨rfl, h⟩
  | cons p ps ih =>
    intro st st' h
    rw [processPurchases, processPurchases]
    split
    · refine agree_bind (ih h) ?_
      rintro ⟨qs, st₁⟩ ⟨_, st₁'⟩ ⟨rfl, h₁⟩
      exact agree_pure ⟨rfl, h₁⟩
    · refine agree_bind (processPurchase_alike hR sale p h) ?_
      rintro ⟨q, st₁⟩ ⟨_, st₁'⟩ ⟨rfl, h₁⟩
      have hsold : st₁'.soldQuantity = st₁.soldQuantity := h₁.soldQuantity
      simp only [hsold]
      split
      · exact agree_pure ⟨rfl, h₁⟩
      · refine agree_bind (ih h₁) ?_
        rintro ⟨qs, st₂⟩ ⟨_, st₂'⟩ ⟨rfl, h₂⟩
        exact agree_pure ⟨rfl, h₂⟩

theorem processSale_alike (hR : QueueRelation env env' R)
    (hcogs : env'.cogsAccountId = env.cogsAccountId) (sale : Transaction) (ps : List Transaction)
    {processor processor' : CalculateCostOfSalesProcessor} (h : R processor processor') :
    Agree (fun r r' => r'.1 = r.1 ∧ R r.2 r'.2)
      (processSale P env fb ib sale ps processor)
      (processSale P env' fb ib sale ps processor') := by
  have hentry : ∀ t cost, costOfSaleTransaction P env' fb t cost =
      costOfSaleTransaction P env fb t cost := by
    intro t cost
    unfold costOfSaleTransaction newCostOfSalesAccount
    rw [hcogs]
  unfold processSale addCostOfSales
  refine agree_bind (processPurchases_alike hR sale ps ⟨rfl, rfl, rfl, h⟩) ?_
  rintro ⟨qs, st⟩ ⟨_, st'⟩ ⟨rfl, hsold, hcost, hlog, hqueues⟩
  dsimp only at hsold hcost hlog hqueues ⊢
  simp only [hsold, hcost, hlog, hentry]
  split
  · exact agree_pure ⟨rfl, hR.post (hR.update hqueues _) _⟩
  · exact agree_pure ⟨rfl, hR.post hqueues _⟩

/-- The loop over the sales keeps every relation that queueing keeps, and hands on the same
    purchases. -/
theorem processSales_alike (hR : QueueRelation env env' R)
    (hcogs : env'.cogsAccountId = env.cogsAccountId) :
    ∀ (sales ps : List Transaction) {processor processor' : CalculateCostOfSalesProcessor},
      R processor processor' →
      Agree (Option.Rel fun r r' => r'.1 = r.1 ∧ R r.2 r'.2)
        (processSales P env fb ib sales ps processor)
        (processSales P env' fb ib sales ps processor') := by
  intro sales
  induction sales with
  | nil =>
    intro ps processor processor' h
    exact agree_pure (.some ⟨rfl, h⟩)
  | cons sale sales ih =>
    intro ps processor processor' h
    rw [processSales, processSales]
    refine agree_bind (processSale_alike hR hcogs sale ps h) ?_
    rintro ⟨_, processor₁⟩ ⟨qs, processor₁'⟩ ⟨rfl, h₁⟩
    have hlocked : processor₁'.hasLockedTransaction = processor₁.hasLockedTransaction := hR.locked h₁
    dsimp only
    rw [hlocked]
    by_cases hstop : processor₁.hasLockedTransaction = true
    · rw [if_pos hstop, if_pos hstop]
      exact agree_pure Option.Rel.none
    · rw [if_neg hstop, if_neg hstop]
      exact ih qs h₁

variable {numbers : List String}

theorem queueRelation_sameQueues (hfresh : Book.FreshIds env.uuid numbers)
    (hfresh' : Book.FreshIds env'.uuid numbers) :
    QueueRelation env env' (SameQueues env env' numbers) where
  update := fun h t => h.update t
  post := fun h t => h.post t
  split := fun h _ _ ht ht' _ hsame => h.split hfresh hfresh' ht ht' hsame
  locked := fun h => h.locked

/-- The loop over the sales ends alike under two run environments. -/
theorem processSales_agree (hfresh : Book.FreshIds env.uuid numbers)
    (hfresh' : Book.FreshIds env'.uuid numbers) (hcogs : env'.cogsAccountId = env.cogsAccountId)
    (sales ps : List Transaction) {processor processor' : CalculateCostOfSalesProcessor}
    (h : SameQueues env env' numbers processor processor') :
    Agree (Option.Rel fun r r' => r'.1 = r.1 ∧ SameQueues env env' numbers r.2 r'.2)
      (processSales P env fb ib sales ps processor)
      (processSales P env' fb ib sales ps processor') :=
  processSales_alike (queueRelation_sameQueues hfresh hfresh') hcogs sales ps h

end Loops

end InventoryBot.Menu
