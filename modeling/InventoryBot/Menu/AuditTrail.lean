import InventoryBot.Menu.Runs
import InventoryBot.Menu.SettledSales

/-!
# The audit trail of a sale

A sale that a calculation checks logs the purchases it was taken from, and each purchase record it
used up names the sale. The two logs are written in different places, and the record of a purchase
may be queued several times in one run.

* `Gathered`: what the loop over the purchases of a sale logs and queues, step by step.
* `processSales_liquidations`: what one sale has queued, later sales leave as it is.
* `audit_trail`: the log of a checked sale lists the records that name it, one by one.
-/

namespace InventoryBot.Menu

open Lib CostOfSalesService

/-! ## Records and entries -/

/-- The record names the sale that liquidated it. -/
def liquidatedBy (saleId : String) (t : Transaction) : Bool :=
  t.checked && t.liquidationLog.any (·.id == saleId)

/-- The entry of a purchase log that goes with a record: `root` tells a purchase from a split. -/
def auditEntry (root : Transaction → Bool) (t : Transaction) : PurchaseLogEntry where
  id := if root t then t.id else t.parentId.getD ""
  qt := t.amount
  uc := t.liquidationLog.elim 0 LiquidationLogEntry.uc
  rt := t.liquidationLog.elim "" LiquidationLogEntry.rt

/-- The total cost that a record shows. -/
def recordedCost (t : Transaction) : ℚ := t.totalCost.getD 0

/-- The sale logs the records one by one, and its cost is the sum of theirs. -/
structure Audited (root : Transaction → Bool) (records : List Transaction) (sale : Transaction) :
    Prop where
  log : ∃ entries, sale.purchaseLog = some entries ∧ entries.Perm (records.map (auditEntry root))
  valued : ∀ t ∈ records, t.totalCost.isSome
  cost : sale.totalCost = some (records.map recordedCost).sum

/-- The records that a processor has queued for a sale: purchases to update, splits to create. -/
def liquidations (saleId : String) (processor : CalculateCostOfSalesProcessor) : List Transaction :=
  (processor.inventoryBookTransactionsToUpdateMap.values.filter fun t =>
      BotService.isPurchase t && liquidatedBy saleId t) ++
    processor.inventoryBookTransactionsToCreateMap.values.filter (liquidatedBy saleId)

/-! ## The loop over the purchases -/

section Loops

variable {P : Platform} {env : RunEnv} {fb ib : Book} {numbers : List String}

/-- What a part of the loop over the purchases of a sale has gathered: the records `added`, each
    with its entry and its cost, all of them queued. -/
structure Gathered (sale : Transaction) (added : List Transaction) (st st' : SaleLoop) : Prop where
  log : st'.purchaseLogEntries =
    st.purchaseLogEntries ++ added.map (auditEntry Transaction.posted)
  valued : ∀ t ∈ added, t.totalCost.isSome
  cost : st'.saleCost = st.saleCost + (added.map recordedCost).sum
  queued : (liquidations sale.id st'.processor).Perm (added ++ liquidations sale.id st.processor)
  others : ∀ saleId, saleId ≠ sale.id →
    (liquidations saleId st'.processor).Perm (liquidations saleId st.processor)

theorem Gathered.nil (sale : Transaction) (st : SaleLoop) : Gathered sale [] st st where
  log := (List.append_nil _).symm
  valued := by simp
  cost := (add_zero _).symm
  queued := .refl _
  others := fun _ _ => .refl _

theorem Gathered.append {sale : Transaction} {first second : List Transaction}
    {st st₁ st₂ : SaleLoop} (h : Gathered sale first st st₁) (h' : Gathered sale second st₁ st₂) :
    Gathered sale (first ++ second) st st₂ where
  log := by rw [h'.log, h.log, List.map_append, List.append_assoc]
  valued := by
    intro t ht
    exact (List.mem_append.1 ht).elim (h.valued t) (h'.valued t)
  cost := by
    rw [h'.cost, h.cost, List.map_append, List.sum_append]
    ring
  queued := by
    refine h'.queued.trans ((h.queued.append_left second).trans ?_)
    rw [← List.append_assoc]
    exact List.perm_append_comm.append_right _
  others := fun saleId hne => (h'.others saleId hne).trans (h.others saleId hne)

/-- What the loops keep of the purchases they hand on, with what is queued of them. -/
structure HandedOn (env : RunEnv) (numbers : List String) (ps : List Transaction)
    (processor : CalculateCostOfSalesProcessor) : Prop where
  kinds : ∀ p ∈ ps, BotService.isPurchase p
  current : ∀ p ∈ ps, ∀ w,
    processor.inventoryBookTransactionsToUpdateMap.get p.id = some w → w = p
  createKeys : ∀ k ∈ processor.inventoryBookTransactionsToCreateMap.keys,
    k ∈ numbers ∨ ∃ i < processor.generatedIds, k = env.uuid i

/-- Updating over a value that is no liquidated purchase keeps what else is queued for a sale. -/
theorem liquidations_update {processor : CalculateCostOfSalesProcessor} {t : Transaction}
    (hold : ∀ w, processor.inventoryBookTransactionsToUpdateMap.get t.id = some w →
      w.checked = false ∨ BotService.isPurchase w = false) (saleId : String) :
    (liquidations saleId (processor.setInventoryBookTransactionToUpdate t)).Perm
      ((if BotService.isPurchase t && liquidatedBy saleId t then [t] else []) ++
        liquidations saleId processor) := by
  have hset := OrderedMap.filter_values_set_perm
    (f := fun t => BotService.isPurchase t && liquidatedBy saleId t) t
    (m := processor.inventoryBookTransactionsToUpdateMap) (k := t.id) (by
      intro w hw
      rcases hold w hw with hopen | hother
      · simp [liquidatedBy, hopen]
      · simp [hother])
  rw [List.filter_cons] at hset
  unfold liquidations
  rw [← List.append_assoc]
  refine List.Perm.append_right _ ?_
  split_ifs at hset ⊢ with hf
  · exact hset
  · exact hset

/-- A creation under a new key keeps what else is queued for a sale. -/
theorem liquidations_create {processor : CalculateCostOfSalesProcessor} {t : Transaction}
    (hnew : CalculateCostOfSalesProcessor.getRemoteId t ∉
      processor.inventoryBookTransactionsToCreateMap.keys) (saleId : String) :
    (liquidations saleId (processor.setInventoryBookTransactionToCreate t)).Perm
      ((if liquidatedBy saleId t then [t] else []) ++ liquidations saleId processor) := by
  have hvalues : (processor.setInventoryBookTransactionToCreate
      t).inventoryBookTransactionsToCreateMap.values =
        processor.inventoryBookTransactionsToCreateMap.values ++ [t] :=
    OrderedMap.values_set_of_absent t hnew
  unfold liquidations
  rw [hvalues, List.filter_append, ← List.append_assoc, List.filter_cons, List.filter_nil]
  exact List.perm_append_comm

theorem Gathered.single {sale r : Transaction} {st st' : SaleLoop} {cost : ℚ}
    (hlog : st'.purchaseLogEntries =
      st.purchaseLogEntries ++ [auditEntry Transaction.posted r])
    (hvalue : r.totalCost = some cost) (hcost : st'.saleCost = st.saleCost + cost)
    (hqueued : ∀ saleId, (liquidations saleId st'.processor).Perm
      ((if sale.id == saleId then [r] else []) ++ liquidations saleId st.processor)) :
    Gathered sale [r] st st' where
  log := hlog
  valued := by simp [hvalue]
  cost := by simp [hcost, recordedCost, hvalue]
  queued := by
    have hself := hqueued sale.id
    rw [beq_self_eq_true, if_pos rfl] at hself
    exact hself
  others := by
    intro saleId hne
    have hother := hqueued saleId
    rw [beq_false_of_ne hne.symm] at hother
    exact hother

theorem HandedOn.mono {processor : CalculateCostOfSalesProcessor} {ps qs : List Transaction}
    (hps : HandedOn env numbers ps processor) (hsub : ∀ q ∈ qs, q ∈ ps) :
    HandedOn env numbers qs processor :=
  ⟨fun q hq => hps.kinds q (hsub q hq), fun q hq => hps.current q (hsub q hq), hps.createKeys⟩

/-- Purchases whose updates stay queued as they are stay handed on beside others. -/
theorem HandedOn.append {processor processor' : CalculateCostOfSalesProcessor}
    {ps qs : List Transaction} (hps : HandedOn env numbers ps processor)
    (hqs : HandedOn env numbers qs processor')
    (hframe : ∀ p ∈ ps, processor'.inventoryBookTransactionsToUpdateMap.get p.id =
      processor.inventoryBookTransactionsToUpdateMap.get p.id) :
    HandedOn env numbers (ps ++ qs) processor' where
  kinds := by
    intro p hp
    exact (List.mem_append.1 hp).elim (hps.kinds p) (hqs.kinds p)
  current := by
    intro p hp w hw
    rcases List.mem_append.1 hp with hp | hp
    · exact hps.current p hp w (hframe p hp ▸ hw)
    · exact hqs.current p hp w hw
  createKeys := hqs.createKeys

/-- A purchase is handed on as it was queued last. -/
theorem HandedOn.update {processor : CalculateCostOfSalesProcessor} {p : Transaction}
    {ps : List Transaction} (hps : HandedOn env numbers ps processor)
    (hkind : BotService.isPurchase p) :
    HandedOn env numbers [p] (processor.setInventoryBookTransactionToUpdate p) where
  kinds := by
    intro t ht
    rw [List.mem_singleton.1 ht]
    exact hkind
  current := by
    intro t ht w hw
    rw [List.mem_singleton.1 ht] at hw ⊢
    exact (Option.some.inj ((OrderedMap.get_set_self _ _ _).symm.trans hw)).symm
  createKeys := hps.createKeys

/-- A generated id keys no queued creation. -/
theorem HandedOn.generated_new {processor : CalculateCostOfSalesProcessor} {ps : List Transaction}
    (hps : HandedOn env numbers ps processor) (hfresh : Book.FreshIds env.uuid numbers) :
    env.uuid processor.generatedIds ∉ processor.inventoryBookTransactionsToCreateMap.keys := by
  intro hk
  rcases hps.createKeys _ hk with hn | ⟨i, hi, he⟩
  · exact hfresh.new _ hn
  · exact absurd (hfresh.injective he) (Nat.ne_of_gt hi)

/-- A creation under a generated id leaves the purchases as they are. -/
theorem HandedOn.create {processor : CalculateCostOfSalesProcessor} {ps : List Transaction}
    {t : Transaction} (hps : HandedOn env numbers ps processor)
    (hkey : CalculateCostOfSalesProcessor.getRemoteId t = env.uuid processor.generatedIds) :
    HandedOn env numbers ps
      ((processor.generateId env).2.setInventoryBookTransactionToCreate t) where
  kinds := hps.kinds
  current := hps.current
  createKeys := by
    intro k hk
    rcases OrderedMap.mem_keys_set.1 hk with rfl | hk
    · exact Or.inr ⟨processor.generatedIds, Nat.lt_succ_self _, hkey⟩
    · rcases hps.createKeys k hk with hn | ⟨i, hi, rfl⟩
      · exact Or.inl hn
      · exact Or.inr ⟨i, Nat.lt_succ_of_lt hi, rfl⟩

/-- One unchecked purchase gives one record. -/
theorem processPurchase_gathered {sale p p' : Transaction} {st st' : SaleLoop}
    (hfresh : Book.FreshIds env.uuid numbers)
    (h : processPurchase P env fb sale p st = .ok (p', st')) (hopen : p.checked = false)
    (hps : HandedOn env numbers [p] st.processor) :
    ∃ r, Gathered sale [r] st st' ∧ HandedOn env numbers [p'] st'.processor := by
  have hkind : BotService.isPurchase p := hps.kinds p (List.mem_singleton_self p)
  have hold : ∀ w, st.processor.inventoryBookTransactionsToUpdateMap.get p.id = some w →
      w.checked = false ∨ BotService.isPurchase w = false := by
    intro w hw
    rw [hps.current p (List.mem_singleton_self p) w hw]
    exact Or.inl hopen
  obtain ⟨quantity, cost, amounts, -, -, -, hcase⟩ := processPurchase_cases h
  rcases hcase with ⟨-, rfl, rfl⟩ | ⟨-, code, -, rfl, rfl⟩
  · -- the purchase is the record
    refine ⟨taken P sale p quantity cost amounts, .single ?_ rfl rfl fun saleId => ?_,
      hps.update hkind⟩
    · have hposted : p.posted = true := (isPurchase_iff.1 hkind).1
      unfold auditEntry
      rw [if_pos (by exact hposted)]
      rfl
    · have hqueued := liquidations_update (t := taken P sale p quantity cost amounts) hold saleId
      rw [isPurchase_taken, hkind, Bool.true_and] at hqueued
      exact hqueued
  · -- the record is split off, and the purchase stays open
    have hupdated := hps.update (p := reduced P p st.soldQuantity quantity cost amounts) hkind
    refine ⟨splitOff P sale p st.soldQuantity cost code (env.uuid st.processor.generatedIds),
      .single rfl rfl rfl fun saleId => ?_, hupdated.create rfl⟩
    have hqueued := liquidations_update
      (t := reduced P p st.soldQuantity quantity cost amounts) hold saleId
    have hstill : liquidatedBy saleId (reduced P p st.soldQuantity quantity cost amounts) = false := by
      show (p.checked && _) = false
      rw [hopen, Bool.false_and]
    rw [hstill, Bool.and_false] at hqueued
    exact (liquidations_create (hupdated.generated_new hfresh) saleId).trans
      (hqueued.append_left _)

/-- The loop over the purchases gathers a record for every entry that it logs. -/
theorem processPurchases_gathered {sale : Transaction} (hfresh : Book.FreshIds env.uuid numbers) :
    ∀ {ps ps' : List Transaction} {st st' : SaleLoop},
      processPurchases P env fb sale ps st = .ok (ps', st') →
      HandedOn env numbers ps st.processor → (ps.map Transaction.id).Nodup →
      ∃ added, Gathered sale added st st' ∧ HandedOn env numbers ps' st'.processor := by
  intro ps
  induction ps with
  | nil =>
    intro ps' st st' h hps _
    cases h
    exact ⟨[], .nil sale st, hps⟩
  | cons p ps ih =>
    intro ps' st st' h hps hnodup
    rw [List.map_cons, List.nodup_cons] at hnodup
    have hrest : HandedOn env numbers ps st.processor :=
      hps.mono fun q hq => List.mem_cons_of_mem _ hq
    have hfirst : HandedOn env numbers [p] st.processor := hps.mono (by simp)
    rcases processPurchases_cons h with ⟨-, qs, hloop, rfl⟩ | ⟨hopen, p', st₁, hone, hend⟩
    · -- a checked purchase is passed over
      obtain ⟨added, hadded, hqs⟩ := ih hloop hrest hnodup.2
      refine ⟨added, hadded, hfirst.append hqs fun q hq => ?_⟩
      rw [List.mem_singleton.1 hq]
      exact processPurchases_frame hloop hnodup.1
    · obtain ⟨r, hr, hp'⟩ := processPurchase_gathered hfresh hone hopen hfirst
      have hothers : HandedOn env numbers (ps ++ [p']) st₁.processor := by
        refine hrest.append hp' fun q hq => processPurchase_frame hone fun he => ?_
        exact hnodup.1 (he ▸ List.mem_map_of_mem hq)
      rcases hend with ⟨-, rfl, rfl⟩ | ⟨-, qs, hloop, rfl⟩
      · -- the sale is served
        exact ⟨[r], hr, hothers.mono fun q hq => (List.perm_append_singleton p' ps).mem_iff.2 hq⟩
      · obtain ⟨added, hadded, hqs⟩ := ih hloop
          (hothers.mono fun _ hq => List.mem_append_left _ hq) hnodup.2
        refine ⟨[r] ++ added, hr.append hadded, hp'.append hqs fun q hq => ?_⟩
        rw [List.mem_singleton.1 hq]
        exact processPurchases_frame hloop (processPurchase_id hone ▸ hnodup.1)

/-! ## The loop over the sales -/

theorem Audited.perm {root : Transaction → Bool} {records records' : List Transaction}
    {sale : Transaction} (h : Audited root records sale) (hperm : records.Perm records') :
    Audited root records' sale where
  log := by
    obtain ⟨entries, hlog, hentries⟩ := h.log
    exact ⟨entries, hlog, hentries.trans (hperm.map _)⟩
  valued := fun t ht => h.valued t (hperm.mem_iff.2 ht)
  cost := by rw [h.cost, (hperm.map recordedCost).sum_eq]

/-- One sale gathers its records, and queues itself with their entries. -/
theorem processSale_liquidations {sale : Transaction} {ps ps' : List Transaction}
    {processor processor' : CalculateCostOfSalesProcessor}
    (hfresh : Book.FreshIds env.uuid numbers)
    (h : processSale P env fb ib sale ps processor = .ok (ps', processor'))
    (hps : HandedOn env numbers ps processor) (hnodup : (ps.map Transaction.id).Nodup)
    (hkind : BotService.isPurchase sale = false) (hid : sale.id ∉ ps.map Transaction.id)
    (hnew : processor.inventoryBookTransactionsToUpdateMap.get sale.id = none) :
    HandedOn env numbers ps' processor' ∧
      (∀ saleId, saleId ≠ sale.id →
        (liquidations saleId processor').Perm (liquidations saleId processor)) ∧
      ∃ added, (liquidations sale.id processor').Perm (added ++ liquidations sale.id processor) ∧
        ∀ u, processor'.inventoryBookTransactionsToUpdateMap.get sale.id = some u →
          u = sale ∨ Audited Transaction.posted added u := by
  obtain ⟨st, hloop, hend⟩ := processSale_cases h
  obtain ⟨added, hadded, hps'⟩ := processPurchases_gathered hfresh hloop hps hnodup
  have hframe := processPurchases_frame hloop hid
  have hids := processPurchases_ids hloop
  rcases hend with ⟨-, rfl⟩ | ⟨-, rfl⟩
  · have hset : ∀ saleId, (liquidations saleId (st.processor.setInventoryBookTransactionToUpdate
        (settleSale st.saleCost st.purchaseLogEntries sale))).Perm
          (liquidations saleId st.processor) := by
      intro saleId
      have hold : ∀ w, st.processor.inventoryBookTransactionsToUpdateMap.get
          (settleSale st.saleCost st.purchaseLogEntries sale).id = some w →
            w.checked = false ∨ BotService.isPurchase w = false := by
        intro w hw
        rw [settleSale_id, hframe, hnew] at hw
        cases hw
      have hqueued := liquidations_update hold saleId
      have hkind' : BotService.isPurchase (settleSale st.saleCost st.purchaseLogEntries sale) =
          false := by
        rcases settleSale_cases st.saleCost st.purchaseLogEntries sale with he | he <;> rw [he]
        · exact hkind
        · exact hkind
      rw [hkind', Bool.false_and] at hqueued
      exact hqueued
    refine ⟨?_, fun saleId hne => (hset saleId).trans (hadded.others saleId hne), added,
      (hset sale.id).trans hadded.queued, ?_⟩
    · refine ⟨hps'.kinds, fun p hp w hw => hps'.current p hp w ?_, hps'.createKeys⟩
      have hne : p.id ≠ sale.id := fun he => hid (hids ▸ he ▸ List.mem_map_of_mem hp)
      exact (OrderedMap.get_set_of_ne _ _ (by simpa using hne)).symm.trans hw
    · intro u hu
      have hself := OrderedMap.get_set_self st.processor.inventoryBookTransactionsToUpdateMap
        sale.id (settleSale st.saleCost st.purchaseLogEntries sale)
      rw [← settleSale_id st.saleCost st.purchaseLogEntries sale] at hself hu
      obtain rfl : settleSale st.saleCost st.purchaseLogEntries sale = u :=
        Option.some.inj (hself.symm.trans hu)
      rcases settleSale_cases st.saleCost st.purchaseLogEntries sale with he | he
      · exact Or.inl he
      · rw [he]
        refine Or.inr ⟨⟨_, rfl, ?_⟩, hadded.valued, ?_⟩
        · rw [hadded.log]
          exact .refl _
        · show some st.saleCost = _
          rw [hadded.cost, zero_add]
  · refine ⟨⟨hps'.kinds, hps'.current, hps'.createKeys⟩, hadded.others, added, hadded.queued, ?_⟩
    intro u hu
    have hu : st.processor.inventoryBookTransactionsToUpdateMap.get sale.id = some u := hu
    rw [hframe, hnew] at hu
    cases hu

/-- What the loop over the sales keeps of the sales ahead and the purchases. -/
structure SalesAhead (env : RunEnv) (numbers : List String) (sales ps : List Transaction)
    (processor : CalculateCostOfSalesProcessor) : Prop where
  handedOn : HandedOn env numbers ps processor
  nodup : ((ps ++ sales).map Transaction.id).Nodup
  kinds : ∀ t ∈ sales, BotService.isPurchase t = false
  unqueued : ∀ t ∈ sales, processor.inventoryBookTransactionsToUpdateMap.get t.id = none

/-- The first of the sales ahead is in no other place. -/
theorem SalesAhead.first {sale : Transaction} {sales ps : List Transaction}
    {processor : CalculateCostOfSalesProcessor}
    (h : SalesAhead env numbers (sale :: sales) ps processor) :
    sale.id ∉ ps.map Transaction.id ∧ sale.id ∉ sales.map Transaction.id ∧
      (ps.map Transaction.id ++ sales.map Transaction.id).Nodup := by
  have hnodup := h.nodup
  rw [List.map_append, List.map_cons, List.nodup_middle, List.nodup_cons, List.mem_append,
    not_or] at hnodup
  exact ⟨hnodup.1.1, hnodup.1.2, hnodup.2⟩

/-- One sale of those ahead: it gathers its records, queues itself with their entries, and leaves
    what is queued for others as it is. -/
theorem SalesAhead.next {sale : Transaction} {sales ps ps' : List Transaction}
    {processor processor' : CalculateCostOfSalesProcessor}
    (hfresh : Book.FreshIds env.uuid numbers)
    (h : processSale P env fb ib sale ps processor = .ok (ps', processor'))
    (hahead : SalesAhead env numbers (sale :: sales) ps processor) :
    SalesAhead env numbers sales ps' processor' ∧
      (∀ saleId, saleId ≠ sale.id →
        (liquidations saleId processor').Perm (liquidations saleId processor)) ∧
      ∃ added, (liquidations sale.id processor').Perm (added ++ liquidations sale.id processor) ∧
        ∀ u, processor'.inventoryBookTransactionsToUpdateMap.get sale.id = some u →
          u = sale ∨ Audited Transaction.posted added u := by
  obtain ⟨hsaleps, hsalesales, hnodup⟩ := hahead.first
  obtain ⟨hids, hframe⟩ := processSale_frame h
  obtain ⟨hpsids, -, hdisjoint⟩ := List.nodup_append.1 hnodup
  obtain ⟨hhanded, hrest⟩ := processSale_liquidations hfresh h hahead.handedOn hpsids
    (hahead.kinds sale List.mem_cons_self) hsaleps (hahead.unqueued sale List.mem_cons_self)
  refine ⟨⟨hhanded, ?_, fun t ht => hahead.kinds t (List.mem_cons_of_mem _ ht), ?_⟩, hrest⟩
  · rw [List.map_append, hids]
    exact hnodup
  · intro t ht
    have hmem : t.id ∈ sales.map Transaction.id := List.mem_map_of_mem ht
    rw [hframe t.id (fun hp => hdisjoint _ hp _ hmem rfl) fun he => hsalesales (he ▸ hmem)]
    exact hahead.unqueued t (List.mem_cons_of_mem _ ht)

/-- The loop over the sales leaves what is queued for other sales as it is, adds to what is queued
    for its own, and queues each of them with the entries of the records that it added. -/
theorem processSales_liquidations (hfresh : Book.FreshIds env.uuid numbers) :
    ∀ {sales ps ps' : List Transaction} {processor processor' : CalculateCostOfSalesProcessor},
      processSales P env fb ib sales ps processor = .ok (some (ps', processor')) →
      SalesAhead env numbers sales ps processor →
      (∀ saleId, saleId ∉ sales.map Transaction.id →
        (liquidations saleId processor').Perm (liquidations saleId processor)) ∧
      ∀ t ∈ sales, ∃ added,
        (liquidations t.id processor').Perm (added ++ liquidations t.id processor) ∧
          ∀ u, processor'.inventoryBookTransactionsToUpdateMap.get t.id = some u →
            u = t ∨ Audited Transaction.posted added u := by
  intro sales
  induction sales with
  | nil =>
    intro ps ps' processor processor' h _
    cases h
    exact ⟨fun _ _ => .refl _, by simp⟩
  | cons sale sales ih =>
    intro ps ps' processor processor' h hahead
    obtain ⟨qs, processor₁, hone, -, h⟩ := processSales_cons.1 h
    obtain ⟨hsaleps, hsalesales, -⟩ := hahead.first
    obtain ⟨hids, -⟩ := processSale_frame hone
    obtain ⟨hnext, hothers, added, hadded, haudited⟩ := hahead.next hfresh hone
    obtain ⟨hrest, hlater⟩ := ih h hnext
    have hkept := processSales_frame h (hids ▸ hsaleps) hsalesales
    refine ⟨fun saleId hid => ?_, fun t ht => ?_⟩
    · rw [List.map_cons, List.mem_cons, not_or] at hid
      exact (hrest saleId hid.2).trans (hothers saleId hid.1)
    · rcases List.mem_cons.1 ht with rfl | ht
      · -- later sales leave its records and its update as they are
        refine ⟨added, (hrest t.id hsalesales).trans hadded, fun u hu => haudited u ?_⟩
        exact hkept.symm.trans hu
      · obtain ⟨added', hadded', haudited'⟩ := hlater t ht
        have hne : t.id ≠ sale.id := fun he => hsalesales (he ▸ List.mem_map_of_mem ht)
        exact ⟨added', hadded'.trans ((hothers t.id hne).append_left _), haudited'⟩

/-- What the first sales have queued is still queued after the others. -/
theorem processSales_keeps (hfresh : Book.FreshIds env.uuid numbers) {later ps₁ : List Transaction}
    {processor₁ : CalculateCostOfSalesProcessor} :
    ∀ {earlier ps ps' : List Transaction} {processor processor' : CalculateCostOfSalesProcessor},
      processSales P env fb ib (earlier ++ later) ps processor = .ok (some (ps', processor')) →
      processSales P env fb ib earlier ps processor = .ok (some (ps₁, processor₁)) →
      SalesAhead env numbers (earlier ++ later) ps processor →
      ∀ saleId, ∀ t ∈ liquidations saleId processor₁, t ∈ liquidations saleId processor' := by
  intro earlier
  induction earlier with
  | nil =>
    intro ps ps' processor processor' h hearlier hahead saleId t ht
    cases hearlier
    obtain ⟨hothers, hown⟩ := processSales_liquidations hfresh h hahead
    by_cases hid : saleId ∈ later.map Transaction.id
    · obtain ⟨sale, hsale, rfl⟩ := List.mem_map.1 hid
      obtain ⟨added, hadded, -⟩ := hown sale hsale
      exact hadded.mem_iff.2 (List.mem_append_right _ ht)
    · exact (hothers saleId hid).mem_iff.2 ht
  | cons sale earlier ih =>
    intro ps ps' processor processor' h hearlier hahead
    obtain ⟨qs, processor₂, hone, -, h⟩ := processSales_cons.1 h
    obtain ⟨qs', processor₂', hone', -, hearlier⟩ := processSales_cons.1 hearlier
    cases hone.symm.trans hone'
    exact ih h hearlier (hahead.next hfresh hone).1

/-! ## The loop over the credit notes -/

/-- No queued record names a sale. -/
structure Unliquidated (processor : CalculateCostOfSalesProcessor) : Prop where
  updates : ∀ t ∈ processor.inventoryBookTransactionsToUpdateMap.values,
    BotService.isPurchase t → t.checked = false
  creations : ∀ t ∈ processor.inventoryBookTransactionsToCreateMap.values, t.liquidationLog = none

theorem Unliquidated.liquidations_eq {processor : CalculateCostOfSalesProcessor}
    (h : Unliquidated processor) (saleId : String) : liquidations saleId processor = [] := by
  unfold liquidations
  rw [List.append_eq_nil_iff, List.filter_eq_nil_iff, List.filter_eq_nil_iff]
  constructor
  · intro t ht hf
    simp only [liquidatedBy, Bool.and_eq_true] at hf
    rw [h.updates t ht hf.1] at hf
    cases hf.2.1
  · intro t ht hf
    simp [liquidatedBy, h.creations t ht] at hf

/-- The loop over the credit notes queues no record that names a sale. -/
theorem processCreditNotes_unliquidated :
    ∀ {notes : List (Option String × Transaction)}
      {purchases purchases' : OrderedMap (Option String) Transaction}
      {processor processor' : CalculateCostOfSalesProcessor},
      processCreditNotes P notes purchases processor = .ok (.done purchases' processor') →
      (∀ p ∈ purchases.values, p.checked = false) →
      (∀ e ∈ notes, BotService.isPurchase e.2 = false) → Unliquidated processor →
      Unliquidated processor' := by
  intro notes
  induction notes with
  | nil =>
    intro purchases purchases' processor processor' h _ _ hnone
    cases h
    exact hnone
  | cons e notes ih =>
    obtain ⟨number, note⟩ := e
    intro purchases purchases' processor processor' h hopen hkinds hnone
    have hrest : ∀ e ∈ notes, BotService.isPurchase e.2 = false :=
      fun e he => hkinds e (List.mem_cons_of_mem _ he)
    rcases processCreditNotes_cons h with ⟨-, h⟩ | ⟨p, code, hp, -, -, h⟩
    · exact ih h hopen hrest hnone
    · have hpopen := hopen p (OrderedMap.mem_values_of_get hp)
      refine ih h ?_ hrest ⟨?_, ?_⟩
      · intro q hq
        rcases OrderedMap.mem_values_set hq with rfl | hq
        · exact hpopen
        · exact hopen q hq
      · intro t ht hkind
        rcases OrderedMap.mem_values_set ht with rfl | ht
        · rw [show BotService.isPurchase (applied note) = BotService.isPurchase note from rfl,
            hkinds _ List.mem_cons_self] at hkind
          cases hkind
        · rcases OrderedMap.mem_values_set ht with rfl | ht
          · exact hpopen
          · exact hnone.updates t ht hkind
      · intro t ht
        rcases OrderedMap.mem_values_set ht with rfl | ht
        · rfl
        · exact hnone.creations t ht

end Loops

/-! ## The books after the run -/

section Books

variable {P : Platform} {collection : Option (List BookInfo)} {env : RunEnv} {s : State}
  {goodAccountId : String} {goodAccount : Account} {toDate : Date}
  {processor₀ processor : CalculateCostOfSalesProcessor} {ps : List Transaction}
  {purchases : OrderedMap (Option String) Transaction} {numbers : List String} {d : Desk}

/-- A stored transaction that is queued is stored as it is queued. -/
theorem Coherent.current {store : List Transaction} (h : Coherent env store numbers processor d)
    {t w : Transaction} (ht : t ∈ d.stored)
    (hw : processor.inventoryBookTransactionsToUpdateMap.get t.id = some w) : w = t := by
  rw [h.stored] at ht
  obtain ⟨u, -, rfl⟩ := List.mem_map.1 ht
  rw [Book.updated_values_id h.keyed] at hw
  rw [Book.updated_values h.keyed, hw]
  rfl

/-- The sales of a listing are ahead when the credit notes are processed, and nothing that is
    queued by then names a sale. -/
theorem salesAhead_start (hwf : WellFormed s.inventoryBook)
    (hpassed : Passed P s goodAccountId toDate goodAccount)
    (hnotes : processCreditNotes P
      (listingOf P s.inventoryBook goodAccount toDate).goodAccountCreditNoteTransactionsMap.entries
      (listingOf P s.inventoryBook goodAccount toDate).goodAccountPurchaseTransactionsMap {} =
        .ok (.done purchases processor₀)) :
    SalesAhead env (creditNoteNumbers s.inventoryBook)
        (BotService.sortFIFO P
          (listingOf P s.inventoryBook goodAccount toDate).goodAccountSaleTransactions)
        (BotService.sortFIFO P purchases.values) processor₀ ∧ Unliquidated processor₀ := by
  have hkind : ∀ t ∈ s.inventoryBook.transactions, t.moves goodAccount.name → OneKind t :=
    fun t ht hm => hwf.oneKind hpassed.account hpassed.notIncoming hpassed.notOutgoing ht hm
  obtain ⟨hlistedSales, hlistedPurchases, hlistedNotes⟩ := listing_mem P s goodAccount toDate
  obtain ⟨hpids, -⟩ := processCreditNotes_frame hnotes
  obtain ⟨d, -, hd, -⟩ := processCreditNotes_moves s.financialBook
    s.inventoryBook.info.fractionDigits (fun _ => True) hnotes
    (notesInvariant_start P env toDate hwf.ids hkind)
  have hoffered : ∀ p ∈ BotService.sortFIFO P purchases.values,
      InListing BotService.isPurchase goodAccount.name (BotService.getBeforeDateIsoString toDate)
        d.stored p := by
    intro p hp
    obtain ⟨k, hk⟩ := OrderedMap.mem_values_iff.1 ((sortFIFO_perm _).mem_iff.1 hp)
    exact (hd.offered k p hk).1
  refine ⟨⟨⟨fun p hp => (hoffered p hp).kind,
    fun p hp w hw => hd.coherent.current (hoffered p hp).stored hw, hd.coherent.createKeys⟩,
    listing_sorted_nodup P toDate hwf.ids hkind hpids, ?_, ?_⟩, ?_⟩
  · intro t ht
    obtain ⟨hin, -⟩ := hlistedSales t ((sortFIFO_perm _).mem_iff.1 ht)
    exact Bool.eq_false_iff.2 ((hkind t hin.stored hin.moves).sale_purchase hin.kind)
  · exact fun t ht =>
      processCreditNotes_sales hwf.ids hkind hnotes ((sortFIFO_perm _).mem_iff.1 ht)
  · refine processCreditNotes_unliquidated hnotes ?_ ?_ ⟨by simp, by simp⟩
    · intro p hp
      obtain ⟨k, hk⟩ := OrderedMap.mem_values_iff.1 hp
      exact (hlistedPurchases k p hk).2.1
    · intro e he
      obtain ⟨hin, -⟩ := hlistedNotes e he
      have hone := hkind e.2 hin.stored hin.moves
      exact Bool.eq_false_iff.2 fun hp => hone.purchase_creditNote hp hin.kind

/-- The transaction is stored in the inventory book, it was not created in the run. -/
def isStored (s : State) (t : Transaction) : Bool :=
  s.inventoryBook.transactions.any (·.id == t.id)

/-- The purchase records that a run from `s` to `s'` has liquidated for a sale: the purchases it
    checked and the splits it created. -/
def liquidatedRecords (s s' : State) (saleId : String) : List Transaction :=
  s'.inventoryBook.transactions.filter fun t =>
    (BotService.isPurchase t && liquidatedBy saleId t) &&
      s.inventoryBook.transactions.all fun t₀ => t₀.id != t.id || !t₀.checked

/-- The books after the batches of a run, as its processor has queued them. -/
structure Committed (env : RunEnv) (s s' : State) (processor : CalculateCostOfSalesProcessor)
    (d : Desk) : Prop where
  coherent : Coherent env s.inventoryBook.transactions (creditNoteNumbers s.inventoryBook)
    processor d
  rows : s'.inventoryBook.transactions =
    d.stored ++ Book.postAll env.inventoryId env.now d.created
  queued : ∀ t ∈ s.inventoryBook.transactions, ∀ w,
    processor.inventoryBookTransactionsToUpdateMap.get t.id = some w → t.checked = false
  kinds : ∀ u ∈ d.created, ∀ id, BotService.isPurchase (Book.post id env.now u)
  unposted : ∀ u ∈ d.created, u.posted = false

/-- The rows that an update has liquidated are those that were queued so. -/
theorem liquidated_updates (hids : (s.inventoryBook.transactions.map Transaction.id).Nodup)
    {s' : State} (h : Committed env s s' processor d) (saleId : String) :
    (d.stored.filter fun t => (BotService.isPurchase t && liquidatedBy saleId t) &&
        s.inventoryBook.transactions.all fun t₀ => t₀.id != t.id || !t₀.checked).Perm
      (processor.inventoryBookTransactionsToUpdateMap.values.filter fun t =>
        BotService.isPurchase t && liquidatedBy saleId t) := by
  have hc := h.coherent
  have hstored : d.stored.Nodup := (hc.ids ▸ hids : (d.stored.map Transaction.id).Nodup).of_map
  have hvalues : processor.inventoryBookTransactionsToUpdateMap.values.Nodup := by
    have hkeys := processor.inventoryBookTransactionsToUpdateMap.nodup_keys
    have hsame : processor.inventoryBookTransactionsToUpdateMap.values.map Transaction.id =
        processor.inventoryBookTransactionsToUpdateMap.keys := by
      unfold OrderedMap.values OrderedMap.keys
      rw [List.map_map]
      exact List.map_congr_left fun e he => hc.keyed e.1 e.2 (OrderedMap.get_eq_some_iff.2 he)
    exact (hsame ▸ hkeys : (List.map Transaction.id _).Nodup).of_map
  refine (List.perm_ext_iff_of_nodup (hstored.filter _) (hvalues.filter _)).2 fun t => ?_
  rw [List.mem_filter, List.mem_filter, Bool.and_eq_true]
  constructor
  · rintro ⟨ht, hliquidated, hbefore⟩
    refine ⟨?_, hliquidated⟩
    rw [hc.stored] at ht
    obtain ⟨u, hu, rfl⟩ := List.mem_map.1 ht
    rw [Book.updated_values hc.keyed] at hliquidated hbefore ⊢
    cases hget : processor.inventoryBookTransactionsToUpdateMap.get u.id with
    | some w => exact OrderedMap.mem_values_of_get hget
    | none =>
      -- a row that is not queued was checked before
      rw [hget] at hliquidated hbefore
      simp only [Option.getD_none, liquidatedBy, Bool.and_eq_true] at hliquidated
      have hopen := List.all_eq_true.1 hbefore u hu
      simp [hliquidated.2.1] at hopen
  · rintro ⟨ht, hliquidated⟩
    obtain ⟨k, hk⟩ := OrderedMap.mem_values_iff.1 ht
    obtain rfl := hc.keyed k t hk
    obtain ⟨u, hu, hid⟩ := List.mem_map.1 (hc.updateKeys t.id (OrderedMap.mem_keys_of_get hk))
    refine ⟨?_, hliquidated, List.all_eq_true.2 fun t₀ ht₀ => ?_⟩
    · rw [hc.stored]
      refine List.mem_map.2 ⟨u, hu, ?_⟩
      rw [Book.updated_values hc.keyed, hid, hk]
      rfl
    · by_cases hsame : t₀.id = t.id
      · simp [h.queued t₀ ht₀ t (hsame ▸ hk)]
      · simp [hsame]

/-- What a posted batch shows of the splits that name a sale can be read before posting. -/
theorem liquidated_creations {β : Type} {f f' : Transaction → β} {now : ℕ} (saleId : String) :
    ∀ {l : List Transaction} {newId : ℕ → String},
      (∀ k, newId k ∉ s.inventoryBook.transactions.map Transaction.id) →
      (∀ u ∈ l, ∀ id, BotService.isPurchase (Book.post id now u)) →
      (∀ u ∈ l, ∀ k, f (Book.post (newId k) now u) = f' u) →
      ((Book.postAll newId now l).filter fun t =>
          (BotService.isPurchase t && liquidatedBy saleId t) &&
            s.inventoryBook.transactions.all fun t₀ => t₀.id != t.id || !t₀.checked).map f =
        (l.filter (liquidatedBy saleId)).map f' := by
  intro l
  induction l with
  | nil =>
    intro newId _ _ _
    rfl
  | cons u l ih =>
    intro newId hnew hkinds hf
    have hrest := ih (fun k => hnew (k + 1)) (fun v hv => hkinds v (List.mem_cons_of_mem _ hv))
      fun v hv k => hf v (List.mem_cons_of_mem _ hv) (k + 1)
    have hbefore : (s.inventoryBook.transactions.all fun t₀ =>
        t₀.id != (Book.post (newId 0) now u).id || !t₀.checked) = true := by
      refine List.all_eq_true.2 fun t₀ ht₀ => ?_
      have hne : t₀.id ≠ newId 0 := fun he => hnew 0 (he ▸ List.mem_map_of_mem ht₀)
      have hne : t₀.id ≠ (Book.post (newId 0) now u).id := hne
      simp [hne]
    have hsame : liquidatedBy saleId (Book.post (newId 0) now u) = liquidatedBy saleId u := rfl
    rw [Book.postAll_cons, List.filter_cons, List.filter_cons, hbefore,
      hkinds u List.mem_cons_self, hsame, Bool.true_and, Bool.and_true]
    split
    · rw [List.map_cons, List.map_cons, hf u List.mem_cons_self, hrest]
    · exact hrest

/-- The records in the books show what was queued. -/
theorem Committed.records_map {β : Type} {f f' : Transaction → β} {s' : State}
    (hids : (s.inventoryBook.transactions.map Transaction.id).Nodup) (hfresh : env.Fresh s)
    (h : Committed env s s' processor d)
    (hroot : ∀ t ∈ processor.inventoryBookTransactionsToUpdateMap.values,
      BotService.isPurchase t → f t = f' t)
    (hsplit : ∀ u ∈ d.created, ∀ k, f (Book.post (env.inventoryId k) env.now u) = f' u)
    (saleId : String) :
    ((liquidatedRecords s s' saleId).map f).Perm ((liquidations saleId processor).map f') := by
  have hcreated := liquidated_creations (s := s) (f := f) saleId
    (fun k hk => hfresh.inventoryIds.new k (List.mem_cons_of_mem _ hk)) h.kinds hsplit
  have hupdated := (liquidated_updates hids h saleId).map f
  unfold liquidatedRecords liquidations
  rw [h.rows, List.filter_append, List.map_append, List.map_append, hcreated, h.coherent.created]
  refine List.Perm.append_right _ (hupdated.trans ?_)
  rw [List.map_congr_left fun t ht => ?_]
  obtain ⟨hmem, hf⟩ := List.mem_filter.1 ht
  rw [Bool.and_eq_true] at hf
  exact hroot t hmem hf.1

/-- A sale that logs what was queued for it logs the records in the books. -/
theorem Committed.audited {s' : State} {sale : Transaction} {saleId : String}
    (hids : (s.inventoryBook.transactions.map Transaction.id).Nodup) (hfresh : env.Fresh s)
    (h : Committed env s s' processor d)
    (haudited : Audited Transaction.posted (liquidations saleId processor) sale) :
    Audited (isStored s) (liquidatedRecords s s' saleId) sale := by
  have hentries : ((liquidatedRecords s s' saleId).map (auditEntry (isStored s))).Perm
      ((liquidations saleId processor).map (auditEntry Transaction.posted)) := by
    refine h.records_map hids hfresh (fun t ht hkind => ?_) (fun u hu k => ?_) saleId
    · obtain ⟨k, hk⟩ := OrderedMap.mem_values_iff.1 ht
      obtain rfl := h.coherent.keyed k t hk
      obtain ⟨u, hu, hid⟩ := List.mem_map.1
        (h.coherent.updateKeys t.id (OrderedMap.mem_keys_of_get hk))
      have hstored : isStored s t = true := List.any_eq_true.2 ⟨u, hu, by simp [hid]⟩
      have hposted : t.posted = true := (isPurchase_iff.1 hkind).1
      unfold auditEntry
      rw [hstored, hposted]
    · have hnew : isStored s (Book.post (env.inventoryId k) env.now u) = false := by
        refine List.any_eq_false.2 fun t ht hid => ?_
        have hid : t.id = env.inventoryId k := beq_iff_eq.1 hid
        exact hfresh.inventoryIds.new k (List.mem_cons_of_mem _ (hid ▸ List.mem_map_of_mem ht))
      unfold auditEntry
      rw [hnew, h.unposted u hu]
      rfl
  have hcosts := h.records_map (f := Transaction.totalCost) hids hfresh (fun _ _ _ => rfl)
    (fun _ _ _ => rfl) saleId
  obtain ⟨entries, hlog, hperm⟩ := haudited.log
  refine ⟨⟨entries, hlog, hperm.trans hentries.symm⟩, fun t ht => ?_, ?_⟩
  · obtain ⟨r, hr, hsame⟩ := List.mem_map.1 (hcosts.mem_iff.1 (List.mem_map_of_mem ht))
    exact hsame ▸ haudited.valued r hr
  · have hsum := (hcosts.map fun cost => cost.getD 0).sum_eq
    rw [List.map_map, List.map_map] at hsum
    rw [haudited.cost]
    exact congrArg some hsum.symm

/-- A record that a run has queued stands in the books: a purchase as it was queued, a split as it
    was queued but with the id that posting gave it. -/
def Stands (env : RunEnv) (s' : State) (t : Transaction) : Prop :=
  if t.posted then t ∈ s'.inventoryBook.transactions
  else ∃ k, Book.post (env.inventoryId k) env.now t ∈ s'.inventoryBook.transactions

theorem Committed.stands {s' : State} (h : Committed env s s' processor d) {saleId : String}
    {t : Transaction} (ht : t ∈ liquidations saleId processor) : Stands env s' t := by
  unfold Stands
  rcases List.mem_append.1 ht with ht | ht
  · obtain ⟨hmem, hf⟩ := List.mem_filter.1 ht
    rw [Bool.and_eq_true] at hf
    obtain ⟨k, hk⟩ := OrderedMap.mem_values_iff.1 hmem
    obtain rfl := h.coherent.keyed k t hk
    obtain ⟨u, hu, hid⟩ := List.mem_map.1
      (h.coherent.updateKeys t.id (OrderedMap.mem_keys_of_get hk))
    have hposted : t.posted = true := (isPurchase_iff.1 hf.1).1
    rw [if_pos hposted, h.rows, h.coherent.stored]
    refine List.mem_append_left _ (List.mem_map.2 ⟨u, hu, ?_⟩)
    rw [Book.updated_values h.coherent.keyed, hid, hk]
    rfl
  · have hmem : t ∈ d.created := h.coherent.created ▸ (List.mem_filter.1 ht).1
    rw [if_neg (by simp [h.unposted t hmem]), h.rows]
    obtain ⟨k, hk, rfl⟩ := List.mem_iff_getElem.1 hmem
    refine ⟨k, List.mem_append_right _ (List.mem_mapIdx.2 ⟨k, hk, rfl⟩)⟩

/-- A row that was checked in the run stands as it was queued. -/
theorem Committed.queued_of_checked {s' : State}
    (hids : (s.inventoryBook.transactions.map Transaction.id).Nodup) (hfresh : env.Fresh s)
    (h : Committed env s s' processor d) {t t' : Transaction}
    (ht' : t' ∈ s'.inventoryBook.transactions) (ht : t ∈ s.inventoryBook.transactions)
    (hid : t.id = t'.id) (hopen : t.checked = false) (hchecked : t'.checked = true) :
    processor.inventoryBookTransactionsToUpdateMap.get t.id = some t' := by
  rw [h.rows, List.mem_append] at ht'
  rcases ht' with hstored | hcreated
  · rw [h.coherent.stored] at hstored
    obtain ⟨u, hu, rfl⟩ := List.mem_map.1 hstored
    rw [Book.updated_values_id h.coherent.keyed] at hid
    obtain rfl : t = u := List.inj_on_of_nodup_map hids ht hu hid
    rw [Book.updated_values h.coherent.keyed] at hchecked ⊢
    cases hget : processor.inventoryBookTransactionsToUpdateMap.get t.id with
    | some w => rfl
    | none =>
      rw [hget, Option.getD_none, hopen] at hchecked
      cases hchecked
  · obtain ⟨k, u, -, rfl⟩ := Book.mem_postAll hcreated
    have hid : t.id = env.inventoryId k := hid
    exact absurd (List.mem_cons_of_mem _ (hid ▸ List.mem_map_of_mem ht))
      (hfresh.inventoryIds.new k)

/-- The processor of a calculation after the first of its `sales`. -/
def AfterSales (P : Platform) (env : RunEnv) (s : State) (goodAccount : Account) (toDate : Date)
    (sales : List Transaction) (processor₁ : CalculateCostOfSalesProcessor) : Prop :=
  ∃ purchases processor₀ earlier later ps₁,
    processCreditNotes P
        (listingOf P s.inventoryBook goodAccount toDate).goodAccountCreditNoteTransactionsMap.entries
        (listingOf P s.inventoryBook goodAccount toDate).goodAccountPurchaseTransactionsMap {} =
          .ok (.done purchases processor₀) ∧
      sales = earlier ++ later ∧
      processSales P env (costOfSalesBook env s) s.inventoryBook earlier
        (BotService.sortFIFO P purchases.values) processor₀ = .ok (some (ps₁, processor₁))

/-- What a calculation that fires has committed, and what it has queued for its sales. -/
theorem calculation_committed {toDate : Option Date} {sales : List Transaction}
    (hwf : WellFormed s.inventoryBook) (hfresh : env.Fresh s)
    (hplan : planCalculation P collection env s goodAccountId toDate =
      .ok (.fire goodAccount sales processor)) :
    let s' := (calculateCostOfSalesForAccount P collection env s goodAccountId toDate).1
    ∃ d, Committed env s s' processor d ∧
      (∀ t ∈ s.inventoryBook.transactions, ∀ u,
        processor.inventoryBookTransactionsToUpdateMap.get t.id = some u → BotService.isSale u →
          u = t ∨ Audited Transaction.posted (liquidations t.id processor) u) ∧
      ∀ processor₁, AfterSales P env s goodAccount (toDate.getD env.today) sales processor₁ →
        ∀ saleId, ∀ t ∈ liquidations saleId processor₁, t ∈ liquidations saleId processor := by
  intro s'
  obtain ⟨hpassed, hlisting⟩ := planCalculation_fire hplan
  have hkind : ∀ t ∈ s.inventoryBook.transactions, t.moves goodAccount.name → OneKind t :=
    fun t ht hm => hwf.oneKind hpassed.account hpassed.notIncoming hpassed.notOutgoing ht hm
  obtain ⟨-, rfl, -⟩ := planListing_fire hlisting
  obtain ⟨purchases, processor₀, ps, d, hnotes, hsales, hmoves, hd⟩ :=
    planListing_end hwf.ids hkind hfresh.uuids hlisting
      fun _ _ _ => Or.inl fun q => (trivial : (fun _ : ℚ => True) q)
  obtain ⟨hahead, hnone⟩ := salesAhead_start hwf hpassed hnotes
  have hrows : s'.inventoryBook.transactions =
      d.stored ++ Book.postAll env.inventoryId env.now d.created := by
    show (calculateCostOfSalesForAccount P collection env s goodAccountId
      toDate).1.inventoryBook.transactions = _
    rw [calculate_of_fire hplan]
    exact (storeLastCalcTxDate_transactions _ _ _).trans
      (fireBatchOperations_desk hd.coherent hfresh.inventoryIds).1
  refine ⟨d, ⟨hd.coherent, hrows, ?_, ?_, ?_⟩, ?_, ?_⟩
  · intro t ht w hw
    obtain ⟨u, hu, hid, -, hopen, -⟩ := queued_listed hnotes hsales hw
    obtain rfl : u = t := List.inj_on_of_nodup_map hwf.ids hu ht hid
    exact hopen
  · intro u hu id
    obtain ⟨p, -, hsplit, hp⟩ := created_split hmoves hu
    exact isPurchase_post id env.now hsplit hp
  · intro u hu
    rcases hmoves.created_trace u hu with hstart | ⟨p, -, p', -, hsplit⟩
    · cases hstart
    · cases hsplit <;> rfl
  · intro t ht u hu hsale
    obtain ⟨t', ht', hid, hm, -, hlisted⟩ := queued_listed hnotes hsales hu
    obtain rfl : t' = t := List.inj_on_of_nodup_map hwf.ids ht' ht hid
    have hone := hkind t' ht hm
    have hstored : u ∈ d.stored := by
      rw [hd.coherent.stored]
      refine List.mem_map.2 ⟨t', ht, ?_⟩
      rw [Book.updated_values hd.coherent.keyed, hu]
      rfl
    obtain ⟨t₀, ht₀, htrace⟩ := hmoves.stored_trace u hstored
    have hsame := sameIdentity_of_trace htrace
    obtain rfl : t' = t₀ := List.inj_on_of_nodup_map hwf.ids ht ht₀
      ((hd.coherent.keyed _ _ hu).symm.trans hsame.id)
    rw [hsame.isSale] at hsale
    rcases hlisted with hlisted | hpurchase | hnote
    · obtain ⟨-, hown⟩ := processSales_liquidations hfresh.uuids hsales hahead
      obtain ⟨added, hadded, haudited⟩ := hown t' ((sortFIFO_perm _).mem_iff.2 hlisted)
      rw [hnone.liquidations_eq, List.append_nil] at hadded
      exact (haudited u hu).imp_right fun h => h.perm hadded.symm
    · exact absurd hpurchase (hone.sale_purchase hsale)
    · exact absurd hnote (hone.sale_creditNote hsale)
  · rintro processor₁ ⟨purchases', processor₀', earlier, later, ps₁, hnotes', hsplit, hearlier⟩
    obtain ⟨rfl, rfl⟩ : purchases' = purchases ∧ processor₀' = processor₀ := by
      have hsame := Except.ok.inj (hnotes'.symm.trans hnotes)
      exact CreditNotesResult.done.inj hsame
    rw [hsplit] at hsales hahead
    exact processSales_keeps hfresh.uuids hsales hearlier hahead

/-- A reset leaves checked only what was checked. -/
theorem ResetDone.checked {s' : State} (h : ResetDone P s goodAccountId goodAccount s')
    {t' : Transaction} (ht' : t' ∈ s'.inventoryBook.transactions) (hchecked : t'.checked = true) :
    t' ∈ s.inventoryBook.transactions := by
  obtain ⟨t, ht, -, rfl⟩ := h.mem ht'
  rcases resetRow_cases P goodAccount.name t with hsame | ⟨-, hupdate⟩
  · rw [hsame]
    exact ht
  · rcases resetUpdate_cases hupdate with ⟨-, he⟩ | ⟨-, _, _, -, -, he⟩ | ⟨-, -, -, he⟩ <;>
      rw [he] at hchecked <;> cases hchecked

/-- **Audit trail.** Whatever the books, every sale that a calculation checks logs exactly the
    records that the run liquidated for it, one entry for one record, and costs as much as they
    do; and at every point of the run, the records that its sales have liquidated by then are those
    that stand in the books at the end. -/
theorem audit_trail (P : Platform) (collection : Option (List BookInfo)) (goodAccountId : String)
    (toDate : Option Date) (hwf : WellFormed s.inventoryBook) (hfresh : env.Fresh s) :
    let s' := (calculateCostOfSalesForAccount P collection env s goodAccountId toDate).1
    (∀ sale ∈ s'.inventoryBook.transactions, BotService.isSale sale → sale.checked = true →
        (∃ t ∈ s.inventoryBook.transactions, t.id = sale.id ∧ t.checked = false) →
        Audited (isStored s) (liquidatedRecords s s' sale.id) sale) ∧
      ∀ goodAccount sales processor,
        planCalculation P collection env s goodAccountId toDate =
            .ok (.fire goodAccount sales processor) →
          ∀ processor₁, AfterSales P env s goodAccount (toDate.getD env.today) sales processor₁ →
            ∀ saleId, ∀ t ∈ liquidations saleId processor₁, Stands env s' t := by
  intro s'
  have hkept : ∀ sale : Transaction, sale.checked = true →
      (∃ t ∈ s.inventoryBook.transactions, t.id = sale.id ∧ t.checked = false) →
      sale ∉ s.inventoryBook.transactions := by
    rintro sale hchecked ⟨t, ht, hid, hopen⟩ hsale
    obtain rfl : t = sale := List.inj_on_of_nodup_map hwf.ids ht hsale hid
    rw [hopen] at hchecked
    cases hchecked
  constructor
  · intro sale hsale hkind hchecked hbefore
    rcases calculate_cases P collection env s goodAccountId toDate with
      hsame | hsame | ⟨-, hreset⟩ | ⟨goodAccount, sales, processor, hplan, -⟩
    · exact absurd (hsame ▸ hsale) (hkept sale hchecked hbefore)
    · rw [show s' = _ from hsame] at hsale
      exact absurd hsale (hkept sale hchecked hbefore)
    · rw [show s' = _ from hreset] at hsale
      rcases reset_cases (P := P) collection goodAccountId hwf.ids with
        ⟨hsame, -⟩ | ⟨-, goodAccount, hdone⟩
      · exact absurd (hsame ▸ hsale) (hkept sale hchecked hbefore)
      · exact absurd (hdone.checked hsale hchecked) (hkept sale hchecked hbefore)
    · obtain ⟨d, hcommitted, haudited, -⟩ := calculation_committed hwf hfresh hplan
      obtain ⟨t, ht, hid, hopen⟩ := hbefore
      have hget := hcommitted.queued_of_checked hwf.ids hfresh hsale ht hid hopen hchecked
      rw [← hid]
      rcases haudited t ht sale hget hkind with rfl | hlogged
      · rw [hopen] at hchecked
        cases hchecked
      · exact hcommitted.audited hwf.ids hfresh hlogged
  · intro goodAccount sales processor hplan processor₁ hafter saleId t ht
    obtain ⟨d, hcommitted, -, hkeeps⟩ := calculation_committed hwf hfresh hplan
    exact hcommitted.stands (hkeeps processor₁ hafter saleId t ht)

end Books

namespace Sample

/-- A purchase of ten that its two sales use up. -/
def usedUp : State :=
  state [purchase "1" "P1" 1 10 100, sale "2" "S1" 2 4 80, sale "3" "S2" 3 6 120]
    [additionalCost "9" "T1" "P1" 1 20]

theorem usedUp_wellFormed : WellFormed usedUp.inventoryBook := ⟨by decide, by decide⟩

theorem usedUp_fresh : (env 9).Fresh usedUp :=
  ⟨Book.freshIds_unaryId (by decide), Book.freshIds_unaryId (by decide),
    Book.freshIds_unaryId (by decide)⟩

end Sample

/-- The first sale logs the split of the purchase, the second one the purchase itself. -/
theorem audit_trail_sample :
    let s := Sample.usedUp
    let s' := (calculateCostOfSalesForAccount exactPlatform Sample.collection (Sample.env 9) s
      Sample.good.id none).1
    (∃ sale ∈ s'.inventoryBook.transactions, sale.id = "2" ∧
        Audited (isStored s) (liquidatedRecords s s' "2") sale) ∧
      (liquidatedRecords s s' "2").map Transaction.parentId = [some "1"] ∧
      (∃ sale ∈ s'.inventoryBook.transactions, sale.id = "3" ∧
        Audited (isStored s) (liquidatedRecords s s' "3") sale) ∧
      (liquidatedRecords s s' "3").map Transaction.id = ["1"] := by
  intro s s'
  obtain ⟨haudited, -⟩ := audit_trail exactPlatform Sample.collection Sample.good.id none
    Sample.usedUp_wellFormed Sample.usedUp_fresh
  have hsale : ∀ id, (∃ sale ∈ s'.inventoryBook.transactions, sale.id = id ∧
      BotService.isSale sale = true ∧ sale.checked = true ∧
        ∃ t ∈ s.inventoryBook.transactions, t.id = sale.id ∧ t.checked = false) →
      ∃ sale ∈ s'.inventoryBook.transactions, sale.id = id ∧
        Audited (isStored s) (liquidatedRecords s s' id) sale := by
    rintro id ⟨sale, hmem, rfl, hkind, hchecked, hbefore⟩
    exact ⟨sale, hmem, rfl, haudited sale hmem hkind hchecked hbefore⟩
  exact ⟨hsale "2" (by decide +kernel), by decide +kernel, hsale "3" (by decide +kernel),
    by decide +kernel⟩

end InventoryBot.Menu
