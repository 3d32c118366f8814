import InventoryBot.Menu.PurchaseLoop

/-!
# The loops of a calculation are sequences of moves
-/

namespace InventoryBot.Menu

open Lib CostOfSalesService

/-! ## The processor and the desk -/

/-- The desk shows what the processor has queued over the transactions `store`; `numbers` are
    the credit-note numbers that may key a queued creation. -/
structure Coherent (env : RunEnv) (store : List Transaction) (numbers : List String)
    (processor : CalculateCostOfSalesProcessor) (d : Desk) : Prop where
  keyed : Book.KeyedById processor.inventoryBookTransactionsToUpdateMap
  stored : d.stored =
    store.map (Book.updated processor.inventoryBookTransactionsToUpdateMap.values)
  created : d.created = processor.inventoryBookTransactionsToCreateMap.values
  posted : d.posted = processor.financialBookTransactionsToCreateMap.values
  updateKeys : ∀ k ∈ processor.inventoryBookTransactionsToUpdateMap.keys,
    k ∈ store.map Transaction.id
  createKeys : ∀ k ∈ processor.inventoryBookTransactionsToCreateMap.keys,
    k ∈ numbers ∨ ∃ i < processor.generatedIds, k = env.uuid i

section Coherent

variable {env : RunEnv} {store : List Transaction} {numbers : List String}
  {processor : CalculateCostOfSalesProcessor} {d : Desk}

theorem coherent_start (hstored : d.stored = store) (hcreated : d.created = [])
    (hposted : d.posted = []) : Coherent env store numbers {} d where
  keyed := Book.keyedById_empty
  stored := by
    rw [hstored]
    conv_lhs => rw [← List.map_id store]
    exact List.map_congr_left fun t _ => rfl
  created := hcreated
  posted := hposted
  updateKeys := by
    intro k hk
    cases hk
  createKeys := by
    intro k hk
    cases hk

theorem Coherent.ids (h : Coherent env store numbers processor d) :
    d.stored.map Transaction.id = store.map Transaction.id := by
  rw [h.stored, List.map_map]
  exact List.map_congr_left fun t _ => Book.updated_values_id h.keyed t

theorem Coherent.withCurrent (h : Coherent env store numbers processor d)
    (c : Option SaleInHand) : Coherent env store numbers processor { d with current := c } :=
  ⟨h.keyed, h.stored, h.created, h.posted, h.updateKeys, h.createKeys⟩

theorem Coherent.update (h : Coherent env store numbers processor d) {p : Transaction}
    (hp : p ∈ d.stored) (t : Transaction) (hid : t.id = p.id) :
    Coherent env store numbers (processor.setInventoryBookTransactionToUpdate t)
      { d with stored := overwrite t d.stored } where
  keyed := h.keyed.set t
  stored := by
    rw [overwrite, h.stored]
    exact (Book.map_updated_set h.keyed t store).symm
  created := h.created
  posted := h.posted
  updateKeys := by
    intro k hk
    rcases OrderedMap.mem_keys_set.1 hk with rfl | hk
    · exact h.ids ▸ hid ▸ List.mem_map_of_mem hp
    · exact h.updateKeys k hk
  createKeys := h.createKeys

theorem Coherent.create (h : Coherent env store numbers processor d) {t : Transaction}
    (hnew : CalculateCostOfSalesProcessor.getRemoteId t ∉
      processor.inventoryBookTransactionsToCreateMap.keys)
    (hkey : CalculateCostOfSalesProcessor.getRemoteId t ∈ numbers ∨
      ∃ i < processor.generatedIds, CalculateCostOfSalesProcessor.getRemoteId t = env.uuid i) :
    Coherent env store numbers (processor.setInventoryBookTransactionToCreate t)
      { d with created := d.created ++ [t] } where
  keyed := h.keyed
  stored := h.stored
  created := by
    rw [h.created]
    exact (OrderedMap.values_set_of_absent t hnew).symm
  posted := h.posted
  updateKeys := h.updateKeys
  createKeys := by
    intro k hk
    rcases OrderedMap.mem_keys_set.1 hk with rfl | hk
    · exact hkey
    · exact h.createKeys k hk

theorem Coherent.generate (h : Coherent env store numbers processor d) :
    Coherent env store numbers (processor.generateId env).2 d where
  keyed := h.keyed
  stored := h.stored
  created := h.created
  posted := h.posted
  updateKeys := h.updateKeys
  createKeys := by
    intro k hk
    rcases h.createKeys k hk with hk | ⟨i, hi, rfl⟩
    · exact Or.inl hk
    · exact Or.inr ⟨i, Nat.lt_succ_of_lt hi, rfl⟩

/-- A generated id keys no queued creation. -/
theorem Coherent.generated_new (h : Coherent env store numbers processor d)
    (hfresh : Book.FreshIds env.uuid numbers) :
    env.uuid processor.generatedIds ∉ processor.inventoryBookTransactionsToCreateMap.keys := by
  intro hk
  rcases h.createKeys _ hk with hn | ⟨i, hi, he⟩
  · exact hfresh.new _ hn
  · exact absurd (hfresh.injective he) (Nat.ne_of_gt hi)

theorem Coherent.post (h : Coherent env store numbers processor d) {t : Transaction}
    (hnew : CalculateCostOfSalesProcessor.getRemoteId t ∉
      processor.financialBookTransactionsToCreateMap.keys) :
    Coherent env store numbers (processor.setFinancialBookTransactionToCreate t)
      { d with posted := d.posted ++ [t] } where
  keyed := h.keyed
  stored := h.stored
  created := h.created
  posted := by
    rw [h.posted]
    exact (OrderedMap.values_set_of_absent t hnew).symm
  updateKeys := h.updateKeys
  createKeys := h.createKeys

end Coherent

/-! ## The loop over the purchases -/

section Loops

variable {P : Platform} {env : RunEnv} {fb : Book} {digits : ℕ} {account : String} {before : Date}
  {closes : ℚ → Prop} {store : List Transaction} {numbers : List String}

/-- The sale a loop state is about, as the desk has it in hand. -/
def inHand (sale : Transaction) (st : SaleLoop) : SaleInHand :=
  ⟨sale, st.soldQuantity, st.saleCost, st.purchaseLogEntries⟩

/-- What every pass of a loop over purchases keeps: the desk is coherent and has the sale in
    hand, and it stores the purchases that the loop handles. -/
structure LoopInvariant (env : RunEnv) (account : String) (before : Date)
    (store : List Transaction) (numbers : List String) (sale : Transaction)
    (ps : List Transaction) (st : SaleLoop) (d : Desk) : Prop where
  coherent : Coherent env store numbers st.processor d
  current : d.current = some (inHand sale st)
  offered : ∀ p ∈ ps, InListing BotService.isPurchase account before d.stored p

variable (digits account before closes) in
/-- One purchase is one move. -/
theorem processPurchase_move {sale p p' : Transaction} {st st' : SaleLoop} {d : Desk}
    (hfresh : Book.FreshIds env.uuid numbers) (h : processPurchase P env fb sale p st = .ok (p', st'))
    (hunchecked : p.checked = false)
    (hd : LoopInvariant env account before store numbers sale [p] st d)
    (hsold : st.soldQuantity = sale.amount ∨ st.soldQuantity ≠ 0) :
    ∃ d', Move P env fb digits account before closes d d' ∧
      LoopInvariant env account before store numbers sale [p'] st' d' ∧
      p'.id = p.id ∧ (∀ t ∈ d.stored, t.id ≠ p.id → t ∈ d'.stored) ∧
      st'.processor.financialBookTransactionsToCreateMap =
        st.processor.financialBookTransactionsToCreateMap := by
  have hp := hd.offered p (List.mem_singleton_self p)
  obtain ⟨quantity, cost, amounts, hq, hv, hne, hcase⟩ := processPurchase_cases h
  rcases hcase with ⟨hle, rfl, rfl⟩ | ⟨hlt, code, hcode, rfl, rfl⟩
  · refine ⟨_, Move.take hd.current hp hunchecked hq hv hne hsold hle, ⟨?_, rfl, ?_⟩, rfl,
      ?_, rfl⟩
    · have hu := hd.coherent.update hp.stored (taken P sale p quantity cost amounts) rfl
      exact hu.withCurrent _
    · intro t ht
      obtain rfl := List.mem_singleton.1 ht
      exact ⟨mem_replaceRow_self hp.stored rfl, hp.moves, hp.date, hp.kind⟩
    · intro t ht hid
      exact mem_replaceRow_of_ne ht hid
  · refine ⟨_, Move.split (k := st.processor.generatedIds) hd.current hp hunchecked hq hv hne
      hsold hlt hcode, ⟨?_, rfl, ?_⟩, rfl, ?_, rfl⟩
    · have hu := hd.coherent.update hp.stored (reduced P p st.soldQuantity quantity cost amounts) rfl
      have hc := Coherent.create (t := splitOff P sale p st.soldQuantity cost code
        (env.uuid st.processor.generatedIds)) hu.generate (hu.generated_new hfresh)
        (Or.inr ⟨st.processor.generatedIds, Nat.lt_succ_self _, rfl⟩)
      exact hc.withCurrent _
    · intro t ht
      obtain rfl := List.mem_singleton.1 ht
      exact ⟨mem_replaceRow_self hp.stored rfl, hp.moves, hp.date, hp.kind⟩
    · intro t ht hid
      exact mem_replaceRow_of_ne ht hid

variable (digits account before closes) in
/-- The loop over the purchases is a sequence of moves. -/
theorem processPurchases_moves {sale : Transaction} (hfresh : Book.FreshIds env.uuid numbers) :
    ∀ {ps ps' : List Transaction} {st st' : SaleLoop} {d : Desk},
      processPurchases P env fb sale ps st = .ok (ps', st') →
      LoopInvariant env account before store numbers sale ps st d → (ps.map Transaction.id).Nodup →
      (st.soldQuantity = sale.amount ∨ st.soldQuantity ≠ 0) →
      ∃ d', Moves P env fb digits account before closes d d' ∧
        LoopInvariant env account before store numbers sale ps' st' d' ∧
        ps'.map Transaction.id = ps.map Transaction.id ∧
        (∀ t ∈ d.stored, t.id ∉ ps.map Transaction.id → t ∈ d'.stored) ∧
        st'.processor.financialBookTransactionsToCreateMap =
          st.processor.financialBookTransactionsToCreateMap := by
  intro ps
  induction ps with
  | nil =>
    intro ps' st st' d h hd _ _
    cases h
    exact ⟨d, .refl, hd, rfl, fun t ht _ => ht, rfl⟩
  | cons p ps ih =>
    intro ps' st st' d h hd hnodup hsold
    rw [List.map_cons, List.nodup_cons] at hnodup
    have hne : ∀ q ∈ ps, q.id ≠ p.id := fun q hq he => hnodup.1 (he ▸ List.mem_map_of_mem hq)
    rcases processPurchases_cons h with ⟨-, qs, hrest, rfl⟩ | ⟨hunchecked, p', st₁, hp, hend⟩
    · -- a checked purchase is passed over
      have hps : LoopInvariant env account before store numbers sale ps st d :=
        ⟨hd.coherent, hd.current, fun q hq => hd.offered q (List.mem_cons_of_mem _ hq)⟩
      obtain ⟨d', hm, hd', hids, hframe, hfin⟩ := ih hrest hps hnodup.2 hsold
      refine ⟨d', hm, ⟨hd'.coherent, hd'.current, ?_⟩, by rw [List.map_cons, hids, List.map_cons],
        ?_, hfin⟩
      · intro q hq
        rcases List.mem_cons.1 hq with rfl | hq
        · have hfirst := hd.offered q List.mem_cons_self
          exact hfirst.keep (hframe q hfirst.stored hnodup.1)
        · exact hd'.offered q hq
      · intro t ht hid
        rw [List.map_cons, List.mem_cons, not_or] at hid
        exact hframe t ht hid.2
    · have hdp : LoopInvariant env account before store numbers sale [p] st d :=
        ⟨hd.coherent, hd.current, fun q hq => hd.offered q (by simp [List.mem_singleton.1 hq])⟩
      obtain ⟨d₁, hmove, hd₁, hid, hframe, hfin⟩ :=
        processPurchase_move digits account before closes hfresh hp hunchecked hdp hsold
      have hps : ∀ q ∈ ps, InListing BotService.isPurchase account before d₁.stored q := by
        intro q hq
        have hlater := hd.offered q (List.mem_cons_of_mem _ hq)
        exact hlater.keep (hframe q hlater.stored (hne q hq))
      have hp' := hd₁.offered p' (List.mem_singleton_self p')
      rcases hend with ⟨-, rfl, rfl⟩ | ⟨hleft, qs, hrest, rfl⟩
      · -- the sale is served
        refine ⟨d₁, .single hmove, ⟨hd₁.coherent, hd₁.current, ?_⟩, by simp [hid], ?_, hfin⟩
        · intro q hq
          rcases List.mem_cons.1 hq with rfl | hq
          · exact hp'
          · exact hps q hq
        · intro t ht hidt
          rw [List.map_cons, List.mem_cons, not_or] at hidt
          exact hframe t ht hidt.1
      · obtain ⟨d', hm, hd', hids, hframe', hfin'⟩ :=
          ih hrest ⟨hd₁.coherent, hd₁.current, hps⟩ hnodup.2 (Or.inr hleft)
        refine ⟨d', .head hmove hm, ⟨hd'.coherent, hd'.current, ?_⟩, by simp [hid, hids], ?_,
          hfin'.trans hfin⟩
        · intro q hq
          rcases List.mem_cons.1 hq with rfl | hq
          · exact hp'.keep (hframe' q hp'.stored (hid ▸ hnodup.1))
          · exact hd'.offered q hq
        · intro t ht hidt
          rw [List.map_cons, List.mem_cons, not_or] at hidt
          exact hframe' t (hframe t ht hidt.1) hidt.2

/-! ## The loop over the sales -/

/-- The purchases cover the sales, or nothing is asked of what is left over. -/
def Enough (closes : ℚ → Prop) (sales ps : List Transaction) : Prop :=
  (∀ q, closes q) ∨ (closes 0 ∧ (∀ t ∈ sales, 0 < t.amount) ∧ (∀ p ∈ ps, Stocked p) ∧
    (sales.map Transaction.amount).sum ≤ (ps.map lot).sum)

/-- The first of the sales closes as it may, and the purchases still cover the others. -/
theorem Enough.next {sale : Transaction} {sales ps ps' : List Transaction} {st st' : SaleLoop}
    (he : Enough closes (sale :: sales) ps) (hst : st.soldQuantity = sale.amount)
    (h : processPurchases P env fb sale ps st = .ok (ps', st')) :
    closes st'.soldQuantity ∧ Enough closes sales ps' := by
  rcases he with hall | ⟨hzero, hsales, hps, hsum⟩
  · exact ⟨hall _, Or.inl hall⟩
  · have hsale : 0 < sale.amount := hsales sale List.mem_cons_self
    have hrest : ∀ t ∈ sales, 0 < t.amount := fun t ht => hsales t (List.mem_cons_of_mem _ ht)
    have hsumrest : 0 ≤ (sales.map Transaction.amount).sum := by
      refine List.sum_nonneg fun q hq => ?_
      obtain ⟨t, ht, rfl⟩ := List.mem_map.1 hq
      exact (hrest t ht).le
    obtain ⟨hlots, hstocked, hleft⟩ := processPurchases_lots h (hst ▸ hsale) hps
    rw [List.map_cons, List.sum_cons] at hsum
    have hmin : min sale.amount (ps.map lot).sum = sale.amount := min_eq_left (by linarith)
    rw [hst] at hlots hleft
    rw [hmin, sub_self] at hleft
    refine ⟨hleft ▸ hzero, Or.inr ⟨hzero, hrest, hstocked, ?_⟩⟩
    rw [hlots, Fifo.residual_sum hsale.le (lots_nonneg hps), hmin]
    linarith

/-- What every pass of the loop over the sales keeps. -/
structure SalesInvariant (env : RunEnv) (account : String) (before : Date)
    (store : List Transaction) (numbers : List String)
    (sales ps : List Transaction) (processor : CalculateCostOfSalesProcessor) (d : Desk) :
    Prop where
  coherent : Coherent env store numbers processor d
  idle : d.current = none
  offered : ∀ p ∈ ps, InListing BotService.isPurchase account before d.stored p
  waiting : ∀ t ∈ sales, InListing BotService.isSale account before d.stored t ∧ t.checked = false
  nodup : ((ps ++ sales).map Transaction.id).Nodup
  unposted : ∀ t ∈ sales, t.id ∉ processor.financialBookTransactionsToCreateMap.keys

/-- The settled sale is only marked and logged. -/
theorem costOfSaleTransaction_settleSale (cost saleCost : ℚ) (entries : List PurchaseLogEntry)
    (sale : Transaction) :
    costOfSaleTransaction P env fb (settleSale cost entries sale) saleCost =
      costOfSaleTransaction P env fb sale saleCost := by
  unfold settleSale
  split <;> rfl

variable {ib : Book}

/-- What `processSale` leaves to the processor after the loop over the purchases. -/
theorem processSale_cases {sale : Transaction} {ps ps' : List Transaction}
    {processor processor' : CalculateCostOfSalesProcessor}
    (h : processSale P env fb ib sale ps processor = .ok (ps', processor')) :
    ∃ st, processPurchases P env fb sale ps
        { soldQuantity := sale.amount, processor := processor } = .ok (ps', st) ∧
      ((P.round st.soldQuantity ib.info.fractionDigits = 0 ∧
          processor' = (st.processor.setInventoryBookTransactionToUpdate
            (settleSale st.saleCost st.purchaseLogEntries sale)).setFinancialBookTransactionToCreate
              (costOfSaleTransaction P env fb sale st.saleCost)) ∨
        (P.round st.soldQuantity ib.info.fractionDigits ≠ 0 ∧
          processor' = st.processor.setFinancialBookTransactionToCreate
            (costOfSaleTransaction P env fb sale st.saleCost))) := by
  unfold processSale at h
  obtain ⟨⟨qs, st⟩, hps, h⟩ := bind_eq_ok.1 h
  simp only [addCostOfSales, costOfSaleTransaction_settleSale] at h
  split at h
  · rename_i hround
    cases h
    exact ⟨st, hps, Or.inl ⟨hround, rfl⟩⟩
  · rename_i hround
    cases h
    exact ⟨st, hps, Or.inr ⟨hround, rfl⟩⟩

/-- A loop over sales that runs to its end has processed the first of them without meeting a
    locked transaction. -/
theorem processSales_cons {sale : Transaction} {sales ps : List Transaction}
    {processor : CalculateCostOfSalesProcessor}
    {result : List Transaction × CalculateCostOfSalesProcessor} :
    processSales P env fb ib (sale :: sales) ps processor = .ok (some result) ↔
      ∃ qs processor₁, processSale P env fb ib sale ps processor = .ok (qs, processor₁) ∧
        processor₁.hasLockedTransaction = false ∧
        processSales P env fb ib sales qs processor₁ = .ok (some result) := by
  rw [processSales]
  constructor
  · intro h
    obtain ⟨⟨qs, processor₁⟩, hone, h⟩ := bind_eq_ok.1 h
    simp only at h
    split at h
    · cases h
    · rename_i hunlocked
      exact ⟨qs, processor₁, hone, Bool.eq_false_iff.2 hunlocked, h⟩
  · rintro ⟨qs, processor₁, hone, hunlocked, h⟩
    refine bind_eq_ok.2 ⟨(qs, processor₁), hone, ?_⟩
    simp only [hunlocked]
    exact h

/-- One sale is a sequence of moves. -/
theorem processSale_moves {sale : Transaction} {sales ps ps' : List Transaction}
    {processor processor' : CalculateCostOfSalesProcessor} {d : Desk}
    (hfresh : Book.FreshIds env.uuid numbers)
    (h : processSale P env fb ib sale ps processor = .ok (ps', processor'))
    (hd : SalesInvariant env account before store numbers (sale :: sales) ps processor d)
    (he : Enough closes (sale :: sales) ps) :
    ∃ d', Moves P env fb ib.info.fractionDigits account before closes d d' ∧
      SalesInvariant env account before store numbers sales ps' processor' d' ∧
        Enough closes sales ps' := by
  obtain ⟨st, hloop, hend⟩ := processSale_cases h
  obtain ⟨hsale, hopen⟩ := hd.waiting sale List.mem_cons_self
  have hnodup := hd.nodup
  rw [List.map_append, List.map_cons, List.nodup_middle, List.nodup_cons, List.mem_append,
    not_or, ← List.map_append] at hnodup
  obtain ⟨⟨hsaleps, hsalesales⟩, hnodup⟩ := hnodup
  have hpsnodup : (ps.map Transaction.id).Nodup :=
    (List.nodup_append.1 (List.map_append ▸ hnodup)).1
  have hdisjoint : ∀ t ∈ sales, t.id ∉ ps.map Transaction.id := by
    intro t ht hp
    exact (List.nodup_append.1 (List.map_append ▸ hnodup)).2.2 _ hp _ (List.mem_map_of_mem ht) rfl
  -- the sale is taken in hand, its purchases are processed, and it is closed
  have hopened : LoopInvariant env account before store numbers sale ps
      { soldQuantity := sale.amount, processor := processor }
      { d with current := some ⟨sale, sale.amount, 0, []⟩ } :=
    ⟨hd.coherent.withCurrent _, rfl, hd.offered⟩
  obtain ⟨d₁, hmoves, hd₁, hids, hframe, hfin⟩ :=
    processPurchases_moves ib.info.fractionDigits account before closes hfresh hloop hopened
      hpsnodup (Or.inl rfl)
  obtain ⟨hcloses, henough⟩ := he.next rfl hloop
  have hsale₁ : InListing BotService.isSale account before d₁.stored sale :=
    hsale.keep (hframe sale hsale.stored hsaleps)
  have hopening : Move P env fb ib.info.fractionDigits account before closes d
      { d with current := some ⟨sale, sale.amount, 0, []⟩ } :=
    Move.openSale hsale hopen hd.idle
  have hclosing : Move P env fb ib.info.fractionDigits account before closes d₁ _ :=
    Move.closeSale hd₁.current hsale₁ hopen hcloses
  have hunposted : sale.id ∉ st.processor.financialBookTransactionsToCreateMap.keys := by
    rw [hfin]
    exact hd.unposted sale List.mem_cons_self
  have hmoved := (Relation.ReflTransGen.head hopening hmoves).tail hclosing
  have hpost : ∀ t ∈ sales, ∀ k ∈ (st.processor.setFinancialBookTransactionToCreate
      (costOfSaleTransaction P env fb sale st.saleCost)).financialBookTransactionsToCreateMap.keys,
      t.id ≠ k := by
    intro t ht k hk he
    rcases OrderedMap.mem_keys_set.1 hk with rfl | hk
    · have hid : t.id = sale.id := he
      exact hsalesales (hid ▸ List.mem_map_of_mem ht)
    · exact hd.unposted t (List.mem_cons_of_mem _ ht) (he ▸ hfin ▸ hk)
  have hnodup' : ((ps' ++ sales).map Transaction.id).Nodup := by
    rw [List.map_append, hids, ← List.map_append]
    exact hnodup
  have hwaiting : ∀ t ∈ sales,
      InListing BotService.isSale account before d₁.stored t ∧ t.checked = false := by
    intro t ht
    obtain ⟨hlater, hunchecked⟩ := hd.waiting t (List.mem_cons_of_mem _ ht)
    exact ⟨hlater.keep (hframe t hlater.stored (hdisjoint t ht)), hunchecked⟩
  refine ⟨_, hmoved, ?_, henough⟩
  rcases hend with ⟨hround, rfl⟩ | ⟨hround, rfl⟩
  · have hne : ∀ t : Transaction, t.id ≠ sale.id → t ∈ d₁.stored →
        t ∈ overwrite (settleSale st.saleCost st.purchaseLogEntries sale) d₁.stored := by
      intro t hid ht
      exact mem_replaceRow_of_ne ht (by simpa using hid)
    refine ⟨?_, rfl, ?_, ?_, hnodup', fun t ht hk => hpost t ht _ hk rfl⟩
    · have hu := hd₁.coherent.update hsale₁.stored
        (settleSale st.saleCost st.purchaseLogEntries sale) (settleSale_id _ _ _)
      have hc := Coherent.post (t := costOfSaleTransaction P env fb sale st.saleCost) hu hunposted
      simpa [inHand, hround] using hc.withCurrent none
    · intro p hp
      have hoffered := hd₁.offered p hp
      have hid : p.id ≠ sale.id := fun he => hsaleps (hids ▸ he ▸ List.mem_map_of_mem hp)
      exact hoffered.keep (by simpa [inHand, hround] using hne p hid hoffered.stored)
    · intro t ht
      obtain ⟨hlater, hunchecked⟩ := hwaiting t ht
      have hid : t.id ≠ sale.id := fun he => hsalesales (he ▸ List.mem_map_of_mem ht)
      exact ⟨hlater.keep (by simpa [inHand, hround] using hne t hid hlater.stored), hunchecked⟩
  · refine ⟨?_, rfl, ?_, ?_, hnodup', fun t ht hk => hpost t ht _ hk rfl⟩
    · have hc := Coherent.post (t := costOfSaleTransaction P env fb sale st.saleCost)
        hd₁.coherent hunposted
      simpa [inHand, hround] using hc.withCurrent none
    · intro p hp
      simpa [inHand, hround] using hd₁.offered p hp
    · intro t ht
      simpa [inHand, hround] using hwaiting t ht

/-- The loop over the sales is a sequence of moves. -/
theorem processSales_moves (hfresh : Book.FreshIds env.uuid numbers) :
    ∀ {sales ps ps' : List Transaction} {processor processor' : CalculateCostOfSalesProcessor}
      {d : Desk}, processSales P env fb ib sales ps processor = .ok (some (ps', processor')) →
      SalesInvariant env account before store numbers sales ps processor d → Enough closes sales ps →
      ∃ d', Moves P env fb ib.info.fractionDigits account before closes d d' ∧
        SalesInvariant env account before store numbers [] ps' processor' d' := by
  intro sales
  induction sales with
  | nil =>
    intro ps ps' processor processor' d h hd _
    cases h
    exact ⟨d, .refl, hd⟩
  | cons sale sales ih =>
    intro ps ps' processor processor' d h hd he
    obtain ⟨qs, processor₁, hsale, -, h⟩ := processSales_cons.1 h
    obtain ⟨d₁, hmoves, hd₁, he₁⟩ := processSale_moves hfresh hsale hd he
    obtain ⟨d', hmoves', hd'⟩ := ih h hd₁ he₁
    exact ⟨d', hmoves.trans hmoves', hd'⟩

/-! ## The loop over the credit notes -/

/-- What every pass of the loop over the credit notes keeps. -/
structure NotesInvariant (env : RunEnv) (account : String) (before : Date)
    (store : List Transaction) (numbers : List String)
    (notes : List (Option String × Transaction)) (purchases : OrderedMap (Option String) Transaction)
    (processor : CalculateCostOfSalesProcessor) (d : Desk) : Prop where
  coherent : Coherent env store numbers processor d
  idle : d.current = none
  offered : ∀ k p, purchases.get k = some p →
    InListing BotService.isPurchase account before d.stored p ∧ p.checked = false ∧
      p.purchaseCode = k
  waiting : ∀ e ∈ notes, InListing BotService.isCreditNote account before d.stored e.2 ∧
    e.2.checked = false ∧ ∃ number ∈ numbers, e.1 = some number ∧ e.2.creditNote = some number
  nodup : (purchases.values.map Transaction.id ++ notes.map fun e => e.2.id).Nodup
  numbers_nodup : (notes.map Prod.fst).Nodup
  unsplit : ∀ e ∈ notes, ∀ number, e.1 = some number →
    number ∉ processor.inventoryBookTransactionsToCreateMap.keys

/-- The processor after one credit note was applied to a purchase. -/
def afterCreditNote (P : Platform) (note p : Transaction) (code number : String)
    (processor : CalculateCostOfSalesProcessor) : CalculateCostOfSalesProcessor :=
  ((processor.setInventoryBookTransactionToCreate
      (splitCreditNote (P.toNumber note.amount) code number p)
    |>.setInventoryBookTransactionToUpdate (credited P note p))
    |>.setInventoryBookTransactionToUpdate (applied note))

/-- Everything one pass of the loop over the credit notes can do before it goes on. -/
theorem processCreditNotes_cons {creditNote : Option String} {note : Transaction}
    {notes : List (Option String × Transaction)}
    {purchases purchases' : OrderedMap (Option String) Transaction}
    {processor processor' : CalculateCostOfSalesProcessor}
    (h : processCreditNotes P ((creditNote, note) :: notes) purchases processor =
      .ok (.done purchases' processor')) :
    (purchases.get note.purchaseCode = none ∧
        processCreditNotes P notes purchases processor = .ok (.done purchases' processor')) ∨
      ∃ p code, purchases.get (some code) = some p ∧ note.purchaseCode = some code ∧
        0 < P.toNumber (p.amount - P.toNumber note.amount) ∧
        processCreditNotes P notes (purchases.set (some code) (credited P note p))
          (afterCreditNote P note p code (creditNote.getD "undefined") processor) =
            .ok (.done purchases' processor') := by
  rw [processCreditNotes] at h
  cases hp : purchases.get note.purchaseCode with
  | none =>
    rw [hp] at h
    exact Or.inl ⟨rfl, h⟩
  | some p =>
    rw [hp] at h
    by_cases hle : P.toNumber (p.amount - P.toNumber note.amount) ≤ 0
    · simp only [hle, if_true] at h
      cases h
    · simp only [hle, if_false] at h
      split at h
      · cases h
      · rename_i code hcode
        exact Or.inr ⟨p, code, hcode ▸ hp, hcode, not_le.1 hle, h⟩

/-- The desk after a credit note was applied to a purchase. -/
def Desk.credit (P : Platform) (note p : Transaction) (code number : String) (d : Desk) : Desk :=
  { d with
    stored := overwrite (applied note) (overwrite (credited P note p) d.stored)
    created := d.created ++ [splitCreditNote (P.toNumber note.amount) code number p] }

theorem Desk.mem_credit {note p t : Transaction} {code number : String} {d : Desk}
    (ht : t ∈ d.stored) (hp : t.id ≠ p.id) (hnote : t.id ≠ note.id) :
    t ∈ (d.credit P note p code number).stored :=
  mem_replaceRow_of_ne (mem_replaceRow_of_ne ht hp) hnote

/-- A credit note whose purchase is not listed is passed over. -/
theorem NotesInvariant.skip {e : Option String × Transaction}
    {notes : List (Option String × Transaction)} {purchases : OrderedMap (Option String) Transaction}
    {processor : CalculateCostOfSalesProcessor} {d : Desk}
    (hd : NotesInvariant env account before store numbers (e :: notes) purchases processor d) :
    NotesInvariant env account before store numbers notes purchases processor d := by
  have hnodup := hd.nodup
  rw [List.map_cons, List.nodup_middle, List.nodup_cons] at hnodup
  exact { hd with
    waiting := fun e he => hd.waiting e (List.mem_cons_of_mem _ he)
    nodup := hnodup.2
    numbers_nodup := (List.nodup_cons.1 hd.numbers_nodup).2
    unsplit := fun e he => hd.unsplit e (List.mem_cons_of_mem _ he) }

/-- A credit note that is applied to its purchase keeps the invariant. -/
theorem NotesInvariant.next {note p : Transaction} {code number : String}
    {notes : List (Option String × Transaction)} {purchases : OrderedMap (Option String) Transaction}
    {processor : CalculateCostOfSalesProcessor} {d : Desk}
    (hd : NotesInvariant env account before store numbers ((some number, note) :: notes) purchases
      processor d)
    (hp : purchases.get (some code) = some p) :
    NotesInvariant env account before store numbers notes
      (purchases.set (some code) (credited P note p))
      (afterCreditNote P note p code number processor) (d.credit P note p code number) := by
  have hnodup := hd.nodup
  rw [List.map_cons, List.nodup_middle, List.nodup_cons, List.mem_append, not_or] at hnodup
  obtain ⟨⟨hnotep, hnoten⟩, hnodup⟩ := hnodup
  have hnumbers := hd.numbers_nodup
  rw [List.map_cons, List.nodup_cons] at hnumbers
  obtain ⟨hpst, hunchecked, hpcode⟩ := hd.offered _ _ hp
  obtain ⟨hnst, hopen, number', hnumber, hkey, hnote⟩ := hd.waiting _ List.mem_cons_self
  obtain rfl : number = number' := Option.some.inj hkey
  have hpid : p.id ≠ note.id := fun he =>
    hnotep (he ▸ List.mem_map_of_mem (OrderedMap.mem_values_of_get hp))
  have hnew := hd.unsplit _ List.mem_cons_self _ rfl
  refine ⟨?_, hd.idle, ?_, ?_, ?_, hnumbers.2, ?_⟩
  · have hc := Coherent.create (t := splitCreditNote (P.toNumber note.amount) code number p)
      hd.coherent hnew (Or.inl hnumber)
    have hu := hc.update hpst.stored (credited P note p) rfl
    exact hu.update (mem_replaceRow_of_ne hnst.stored hpid.symm) (applied note) rfl
  · intro k q hq
    rw [OrderedMap.get_set] at hq
    split_ifs at hq with hk
    · cases hq
      exact ⟨⟨mem_replaceRow_of_ne (mem_replaceRow_self hpst.stored rfl) hpid, hpst.moves,
        hpst.date, hpst.kind⟩, hunchecked, hpcode.trans hk.symm⟩
    · obtain ⟨hqst, hqun, hqcode⟩ := hd.offered k q hq
      have hqp : q.id ≠ p.id := by
        intro he
        have hqe := List.inj_on_of_nodup_map (List.nodup_append.1 hnodup).1
          (OrderedMap.mem_values_of_get hq) (OrderedMap.mem_values_of_get hp) he
        exact hk (by rw [← hqcode, hqe, hpcode])
      have hqn : q.id ≠ note.id := fun he =>
        hnotep (he ▸ List.mem_map_of_mem (OrderedMap.mem_values_of_get hq))
      exact ⟨hqst.keep (d.mem_credit hqst.stored hqp hqn), hqun, hqcode⟩
  · intro e he
    obtain ⟨hest, heopen, n, hn, hekey, henote⟩ := hd.waiting e (List.mem_cons_of_mem _ he)
    have hen : e.2.id ≠ note.id := fun hid =>
      hnoten (hid ▸ List.mem_map_of_mem (f := fun e : Option String × Transaction => e.2.id) he)
    have hep : e.2.id ≠ p.id := by
      intro hid
      refine (List.nodup_append.1 hnodup).2.2 p.id
        (List.mem_map_of_mem (OrderedMap.mem_values_of_get hp)) _
        (List.mem_map_of_mem (f := fun e : Option String × Transaction => e.2.id) he) hid.symm
    exact ⟨hest.keep (d.mem_credit hest.stored hep hen), heopen, n, hn, hekey, henote⟩
  · have hsame : (purchases.set (some code) (credited P note p)).values.map Transaction.id =
        purchases.values.map Transaction.id := OrderedMap.map_values_set _ hp (by rfl)
    rw [hsame]
    exact hnodup
  · intro e he n hn hk
    rcases OrderedMap.mem_keys_set.1 hk with hk | hk
    · have hkeyed : e.1 = some number := hn.trans (congrArg some hk)
      have hmem : e.1 ∈ notes.map Prod.fst := List.mem_map_of_mem he
      exact hnumbers.1 (hkeyed ▸ hmem)
    · exact hd.unsplit e (List.mem_cons_of_mem _ he) n hn hk

variable (digits account before closes) in
/-- One credit note is one move. -/
theorem creditNote_move {note p : Transaction} {code number : String}
    {notes : List (Option String × Transaction)} {purchases : OrderedMap (Option String) Transaction}
    {processor : CalculateCostOfSalesProcessor} {d : Desk}
    (hd : NotesInvariant env account before store numbers ((some number, note) :: notes) purchases
      processor d)
    (hp : purchases.get (some code) = some p) (hcode : note.purchaseCode = some code)
    (hleft : 0 < P.toNumber (p.amount - P.toNumber note.amount)) :
    Move P env fb digits account before closes d (d.credit P note p code number) := by
  obtain ⟨hpst, hunchecked, hpcode⟩ := hd.offered _ _ hp
  obtain ⟨hnst, hopen, number', -, hkey, hnote⟩ := hd.waiting _ List.mem_cons_self
  obtain rfl : number = number' := Option.some.inj hkey
  have hnodup := hd.nodup
  rw [List.map_cons, List.nodup_middle, List.nodup_cons, List.mem_append, not_or] at hnodup
  have hpid : note.id ≠ p.id := fun he =>
    hnodup.1.1 (he ▸ List.mem_map_of_mem (OrderedMap.mem_values_of_get hp))
  exact Move.creditNote hpst hunchecked hpcode hnst hopen hpid hcode hnote hleft hd.idle

variable (fb digits closes) in
/-- The loop over the credit notes is a sequence of moves. -/
theorem processCreditNotes_moves :
    ∀ {notes : List (Option String × Transaction)}
      {purchases purchases' : OrderedMap (Option String) Transaction}
      {processor processor' : CalculateCostOfSalesProcessor} {d : Desk},
      processCreditNotes P notes purchases processor = .ok (.done purchases' processor') →
      NotesInvariant env account before store numbers notes purchases processor d →
      ∃ d', Moves P env fb digits account before closes d d' ∧
        NotesInvariant env account before store numbers [] purchases' processor' d' ∧
        (purchases'.values.map Transaction.id = purchases.values.map Transaction.id) ∧
        (∀ t ∈ d.stored, t.id ∉ purchases.values.map Transaction.id →
          t.id ∉ (notes.map fun e => e.2.id) → t ∈ d'.stored) ∧
        processor'.financialBookTransactionsToCreateMap =
          processor.financialBookTransactionsToCreateMap := by
  intro notes
  induction notes with
  | nil =>
    intro purchases purchases' processor processor' d h hd
    cases h
    exact ⟨d, .refl, hd, rfl, fun t ht _ _ => ht, rfl⟩
  | cons e notes ih =>
    obtain ⟨creditNote, note⟩ := e
    intro purchases purchases' processor processor' d h hd
    have hnodup := hd.nodup
    rw [List.map_cons, List.nodup_middle, List.nodup_cons, List.mem_append, not_or] at hnodup
    obtain ⟨⟨hnotep, hnoten⟩, hnodup⟩ := hnodup
    rcases processCreditNotes_cons h with ⟨-, h⟩ | ⟨p, code, hp, hcode, hleft, h⟩
    · -- the purchase of the credit note is not listed
      obtain ⟨d', hmoves, hd', hids, hframe, hfin⟩ := ih h hd.skip
      refine ⟨d', hmoves, hd', hids, ?_, hfin⟩
      intro t ht hp hn
      rw [List.map_cons, List.mem_cons, not_or] at hn
      exact hframe t ht hp hn.2
    · obtain ⟨-, -, number, -, hkey, -⟩ := hd.waiting _ List.mem_cons_self
      obtain rfl : creditNote = some number := hkey
      have hmove : Move P env fb digits account before closes d (d.credit P note p code number) :=
        creditNote_move digits account before closes hd hp hcode hleft
      obtain ⟨d', hmoves, hd', hids, hframe', hfin⟩ := ih h (hd.next hp)
      have hsame : (purchases.set (some code) (credited P note p)).values.map Transaction.id =
          purchases.values.map Transaction.id := OrderedMap.map_values_set _ hp (by rfl)
      rw [hsame] at hids hframe'
      refine ⟨d', .head hmove hmoves, hd', hids, ?_, hfin⟩
      intro t ht hpids hn
      rw [List.map_cons, List.mem_cons, not_or] at hn
      have hpid : t.id ≠ p.id := fun he =>
        hpids (he ▸ List.mem_map_of_mem (OrderedMap.mem_values_of_get hp))
      exact hframe' t (d.mem_credit ht hpid hn.1) hpids hn.2

end Loops

end InventoryBot.Menu
