import InventoryBot.Menu.Allocation
import InventoryBot.Menu.Guard

/-!
# Sales that are allocated in full

When the purchases cover the sales, a calculation leaves nothing open of a sale that it closes.

* `Move.sale_cases`: what one move does to the sales of the account.
* `Moves.allocatedDesk`: every cost of sales transaction belongs to an allocated sale.
* `processSales_allocated_iff`: all sales of a run are allocated exactly if the purchases cover
  them.
-/

namespace InventoryBot.Menu

open Lib CostOfSalesService

/-- The quantity that a log accounts for. -/
def loggedQuantity (entries : List PurchaseLogEntry) : ℚ := (entries.map PurchaseLogEntry.qt).sum

theorem loggedQuantity_append (entries entries' : List PurchaseLogEntry) :
    loggedQuantity (entries ++ entries') = loggedQuantity entries + loggedQuantity entries' := by
  rw [loggedQuantity, List.map_append, List.sum_append]
  rfl

/-- A sale that is allocated in full: checked, with a log that adds up to its amount. -/
def Allocated (t : Transaction) : Prop :=
  t.checked = true ∧ ∃ entries, t.purchaseLog = some entries ∧ loggedQuantity entries = t.amount

theorem allocated_calculatedSale {sale : Transaction} {cost : ℚ} {entries : List PurchaseLogEntry}
    (h : loggedQuantity entries = sale.amount) : Allocated (calculatedSale sale cost entries) :=
  ⟨rfl, entries, rfl, h⟩

/-- A log of a positive quantity is written to the sale. -/
theorem settleSale_eq {sale : Transaction} {cost : ℚ} {entries : List PurchaseLogEntry}
    (h : 0 < loggedQuantity entries) :
    settleSale cost entries sale = calculatedSale sale cost entries := by
  refine if_pos (List.length_pos_iff.2 fun hnil => ?_)
  rw [hnil] at h
  exact lt_irrefl 0 h

/-! ## The desk -/

/-- What a calculation relies on and keeps about the sales of an account. -/
structure SalesDesk (account : String) (before : Date) (d : Desk) : Prop where
  nodup : (d.stored.map Transaction.id).Nodup
  sides : ∀ t ∈ d.stored, t.moves account → OneSided t
  positive : ∀ t, InListing BotService.isSale account before d.stored t → t.checked = false →
    0 < t.amount
  balanced : ∀ c, d.current = some c →
    loggedQuantity c.purchaseLogEntries + c.soldQuantity = c.sale.amount

section Moves

variable {P : Platform} {env : RunEnv} {fb : Book} {digits : ℕ} {account : String} {before : Date}
  {closes : ℚ → Prop} {d d' : Desk}

/-- Writing over a row that is no sale changes no sale. -/
theorem mem_overwrite_sale {l : List Transaction} {p b t : Transaction}
    (hids : (l.map Transaction.id).Nodup) (hp : p ∈ l) (hid : p.id = b.id)
    (hpsale : ¬BotService.isSale p) (hbsale : ¬BotService.isSale b) (ht : BotService.isSale t) :
    t ∈ overwrite b l ↔ t ∈ l := by
  constructor
  · intro hmem
    rcases mem_overwrite hmem with rfl | hmem
    · exact absurd ht hbsale
    · exact hmem
  · intro hmem
    refine mem_replaceRow_of_ne hmem fun hk => ?_
    obtain rfl : t = p := List.inj_on_of_nodup_map hids hmem hp (hk.trans hid.symm)
    exact hpsale ht

/-- What a move does to the sales: nothing, or it closes one that is allocated in full and posts
    its cost. -/
theorem Move.sale_cases (hround : P.round 0 digits = 0) (hd : SalesDesk account before d)
    (h : Move P env fb digits account before (· = 0) d d') :
    (d'.posted = d.posted ∧ ∀ t, BotService.isSale t → (t ∈ d'.stored ↔ t ∈ d.stored)) ∨
      ∃ sale cost entries, InListing BotService.isSale account before d.stored sale ∧
        sale.checked = false ∧ loggedQuantity entries = sale.amount ∧
        d'.stored = overwrite (calculatedSale sale cost entries) d.stored ∧
        d'.posted = d.posted ++ [costOfSaleTransaction P env fb sale cost] := by
  have hpurchase : ∀ p, InListing BotService.isPurchase account before d.stored p →
      ¬BotService.isSale p := fun p hp => (hd.sides p hp.stored hp.moves).not_sale hp.kind
  cases h with
  | @creditNote p note code number hp hunchecked _ hnote hopen hother _ _ hleft =>
    refine Or.inl ⟨rfl, fun t ht => ?_⟩
    have hnodup : ((overwrite (credited P note p) d.stored).map Transaction.id).Nodup := by
      simpa using hd.nodup
    have hstill : note ∈ overwrite (credited P note p) d.stored :=
      mem_replaceRow_of_ne hnote.stored hother
    have hnotesale : ¬BotService.isSale note := fun hs => not_creditNote_of_sale hs hnote.kind
    exact (mem_overwrite_sale (b := applied note) hnodup hstill rfl hnotesale hnotesale ht).trans
      (mem_overwrite_sale (b := credited P note p) hd.nodup hp.stored rfl (hpurchase p hp)
        (hpurchase p hp) ht)
  | openSale => exact Or.inl ⟨rfl, fun t _ => Iff.rfl⟩
  | @take c p quantity cost amounts _ hp =>
    exact Or.inl ⟨rfl, fun t ht => mem_overwrite_sale (b := taken P c.sale p quantity cost amounts)
      hd.nodup hp.stored rfl (hpurchase p hp) (hpurchase p hp) ht⟩
  | @split c p quantity cost amounts code k _ hp =>
    exact Or.inl ⟨rfl, fun t ht => mem_overwrite_sale
      (b := reduced P p c.soldQuantity quantity cost amounts) hd.nodup hp.stored rfl
      (hpurchase p hp) (hpurchase p hp) ht⟩
  | @closeSale c hcurrent hsale hopen hcloses =>
    have hbalanced := hd.balanced c hcurrent
    rw [hcloses, add_zero] at hbalanced
    have hpos := hd.positive c.sale hsale hopen
    refine Or.inr ⟨c.sale, c.saleCost, c.purchaseLogEntries, hsale, hopen, hbalanced, ?_, rfl⟩
    dsimp only
    rw [hcloses, if_pos hround, settleSale_eq (hbalanced ▸ hpos)]

/-- A move keeps what the calculation relies on about the sales. -/
theorem Move.salesDesk (h : Move P env fb digits account before closes d d')
    (hd : SalesDesk account before d) : SalesDesk account before d' where
  nodup := h.ids ▸ hd.nodup
  sides := by
    intro t ht hmoves
    rcases h.stored_cases ht with ht | ⟨p, hp, hw⟩
    · exact hd.sides t ht hmoves
    · exact (hd.sides p hp (hw.sameIdentity.moves account ▸ hmoves)).congr hw.sameIdentity
  positive := by
    intro t ht hopen
    rcases h.stored_cases ht.stored with hst | ⟨p, hp, hw⟩
    · exact hd.positive t (ht.keep hst) hopen
    · have hsame := hw.sameIdentity
      have hpin : InListing BotService.isSale account before d.stored p :=
        ⟨hp, hsame.moves account ▸ ht.moves, hsame.date ▸ ht.date, hsame.isSale ▸ ht.kind⟩
      have hside := hd.sides p hp hpin.moves
      have hpos := hd.positive p hpin hw.unchecked
      cases hw with
      | credited hpurchase => exact absurd hpin.kind (hside.not_sale hpurchase)
      | applied hnote => exact absurd hnote (not_creditNote_of_sale hpin.kind)
      | taken hpurchase => exact absurd hpin.kind (hside.not_sale hpurchase)
      | reduced hpurchase => exact absurd hpin.kind (hside.not_sale hpurchase)
      | @settled cost entries =>
        rcases settleSale_cases cost entries p with he | he <;> rw [he]
        · exact hpos
        · exact hpos
  balanced := by
    intro c' hc'
    cases h with
    | creditNote => exact hd.balanced c' hc'
    | openSale =>
      cases hc'
      exact zero_add _
    | @take c p quantity cost amounts hcurrent =>
      cases hc'
      have hbalanced := hd.balanced c hcurrent
      have hentry : loggedQuantity [getPurchaseLog p.amount (P.div cost p.amount) p] = p.amount :=
        add_zero _
      simp only [loggedQuantity_append, hentry]
      linarith
    | @split c p quantity cost amounts code k hcurrent =>
      cases hc'
      have hbalanced := hd.balanced c hcurrent
      have hentry : loggedQuantity [getPurchaseLog c.soldQuantity (P.div cost p.amount) p] =
          c.soldQuantity := add_zero _
      simp only [loggedQuantity_append, hentry]
      linarith
    | closeSale => cases hc'

/-- Every cost of sales transaction on the desk belongs to an allocated sale of the account. -/
def PostedForAllocated (account : String) (d : Desk) : Prop :=
  ∀ c ∈ d.posted, ∃ t ∈ d.stored, t.moves account ∧ BotService.isSale t ∧ Allocated t ∧
    c.remoteIds = [t.id] ∧ t.totalCost = some c.amount

/-- A move posts for allocated sales only, and leaves them as they are. -/
theorem Move.postedForAllocated (hround : P.round 0 digits = 0) (hd : SalesDesk account before d)
    (h : Move P env fb digits account before (· = 0) d d') (hposted : PostedForAllocated account d) :
    PostedForAllocated account d' := by
  rcases h.sale_cases hround hd with
    ⟨hsame, hsales⟩ | ⟨sale, cost, entries, hsale, hopen, hlogged, hstored, hnew⟩
  · intro c hc
    rw [hsame] at hc
    obtain ⟨t, ht, hrest⟩ := hposted c hc
    exact ⟨t, (hsales t hrest.2.1).2 ht, hrest⟩
  · intro c hc
    rw [hnew, List.mem_append, List.mem_singleton] at hc
    rcases hc with hc | rfl
    · obtain ⟨t, ht, hmoves, hkind, hallocated, hrest⟩ := hposted c hc
      refine ⟨t, ?_, hmoves, hkind, hallocated, hrest⟩
      rw [hstored]
      refine mem_replaceRow_of_ne ht fun hid => ?_
      obtain rfl : t = sale := List.inj_on_of_nodup_map hd.nodup ht hsale.stored hid
      rw [hallocated.1] at hopen
      cases hopen
    · refine ⟨calculatedSale sale cost entries, ?_, hsale.moves, hsale.kind,
        allocated_calculatedSale hlogged, rfl, rfl⟩
      rw [hstored]
      exact mem_replaceRow_self hsale.stored rfl

theorem Moves.postedForAllocated (hround : P.round 0 digits = 0)
    (h : Moves P env fb digits account before (· = 0) d d') (hd : SalesDesk account before d)
    (hposted : PostedForAllocated account d) : PostedForAllocated account d' := by
  have hkept := h.preserves (I := fun e => SalesDesk account before e ∧ PostedForAllocated account e)
    (fun _ _ hmove he => ⟨hmove.salesDesk he.1, hmove.postedForAllocated hround he.1 he.2⟩)
    ⟨hd, hposted⟩
  exact hkept.2

/-- The desk at the start of a calculation of a good account. -/
theorem salesDesk_start {b : Book} {a : Account} {key : String} (hwf : WellFormed b)
    (haccount : b.getAccount key = some a) (hin : a.type ≠ .incoming) (hout : a.type ≠ .outgoing)
    (hpos : ∀ t, InListing BotService.isSale a.name before b.transactions t → t.checked = false →
      0 < t.amount) :
    SalesDesk a.name before (Desk.start b.transactions) where
  nodup := hwf.ids
  sides := fun t ht hmoves => hwf.oneSided haccount hin hout ht hmoves
  positive := hpos
  balanced := by simp [Desk.start]

end Moves

/-! ## The loops -/

section Loops

variable {P : Platform} {env : RunEnv} {fb ib : Book}

/-- The log of a sale and what is left of it make up what there was. -/
theorem processPurchases_logged {sale : Transaction} :
    ∀ {ps ps' : List Transaction} {st st' : SaleLoop},
      processPurchases P env fb sale ps st = .ok (ps', st') →
      loggedQuantity st'.purchaseLogEntries + st'.soldQuantity =
        loggedQuantity st.purchaseLogEntries + st.soldQuantity := by
  intro ps
  induction ps with
  | nil =>
    intro ps' st st' h
    cases h
    rfl
  | cons p ps ih =>
    intro ps' st st' h
    rcases processPurchases_cons h with ⟨-, qs, hrest, rfl⟩ | ⟨-, p', st₁, hone, hend⟩
    · exact ih hrest
    · have hlogged : loggedQuantity st₁.purchaseLogEntries + st₁.soldQuantity =
          loggedQuantity st.purchaseLogEntries + st.soldQuantity := by
        have hentry : ∀ q uc, loggedQuantity [getPurchaseLog q uc p] = q := fun q uc => add_zero q
        obtain ⟨quantity, cost, amounts, -, -, -, hcase⟩ := processPurchase_cases hone
        rcases hcase with ⟨-, -, rfl⟩ | ⟨-, code, -, -, rfl⟩
        · simp only [loggedQuantity_append, hentry]
          ring
        · simp only [loggedQuantity_append, hentry]
          ring
      rcases hend with ⟨-, rfl, rfl⟩ | ⟨-, qs, hrest, rfl⟩
      · exact hlogged
      · exact (ih hrest).trans hlogged

/-- The update that a run queues for a sale makes it allocated. -/
def QueuedAllocated (processor : CalculateCostOfSalesProcessor) (sale : Transaction) : Prop :=
  ∃ u, processor.inventoryBookTransactionsToUpdateMap.get sale.id = some u ∧ Allocated u ∧
    u.amount = sale.amount

/-- One sale keeps the ids of the purchases, and queues updates of them and of itself only. -/
theorem processSale_frame {sale : Transaction} {ps ps' : List Transaction}
    {processor processor' : CalculateCostOfSalesProcessor}
    (h : processSale P env fb ib sale ps processor = .ok (ps', processor')) :
    ps'.map Transaction.id = ps.map Transaction.id ∧
      ∀ k, k ∉ ps.map Transaction.id → k ≠ sale.id →
        processor'.inventoryBookTransactionsToUpdateMap.get k =
          processor.inventoryBookTransactionsToUpdateMap.get k := by
  obtain ⟨st, hloop, hend⟩ := processSale_cases h
  refine ⟨processPurchases_ids hloop, fun k hk hne => ?_⟩
  have hframe := processPurchases_frame hloop hk
  rcases hend with ⟨-, rfl⟩ | ⟨-, rfl⟩
  · exact (OrderedMap.get_set_of_ne _ _ (by rwa [settleSale_id])).trans hframe
  · exact hframe

/-- The loop over the sales queues updates of the purchases and of the sales only. -/
theorem processSales_frame {k : String} :
    ∀ {sales ps ps' : List Transaction} {processor processor' : CalculateCostOfSalesProcessor},
      processSales P env fb ib sales ps processor = .ok (some (ps', processor')) →
      k ∉ ps.map Transaction.id → k ∉ sales.map Transaction.id →
      processor'.inventoryBookTransactionsToUpdateMap.get k =
        processor.inventoryBookTransactionsToUpdateMap.get k := by
  intro sales
  induction sales with
  | nil =>
    intro ps ps' processor processor' h _ _
    cases h
    rfl
  | cons sale sales ih =>
    intro ps ps' processor processor' h hps hk
    obtain ⟨qs, processor₁, hsale, -, h⟩ := processSales_cons.1 h
    obtain ⟨hids, hframe⟩ := processSale_frame hsale
    rw [List.map_cons, List.mem_cons, not_or] at hk
    exact (ih h (hids ▸ hps) hk.2).trans (hframe k hps hk.1)

/-- One sale is allocated exactly if the purchases cover it. -/
theorem processSale_allocated_iff (hP : P.Exact) {sale : Transaction} {ps ps' : List Transaction}
    {processor processor' : CalculateCostOfSalesProcessor}
    (h : processSale P env fb ib sale ps processor = .ok (ps', processor'))
    (hsale : 0 < sale.amount) (hopen : sale.checked = false) (hps : ∀ p ∈ ps, Stocked p)
    (hid : sale.id ∉ ps.map Transaction.id)
    (hnew : processor.inventoryBookTransactionsToUpdateMap.get sale.id = none) :
    (QueuedAllocated processor' sale ↔ sale.amount ≤ (ps.map lot).sum) ∧
      (∀ p ∈ ps', Stocked p) ∧
      (ps'.map lot).sum = (ps.map lot).sum - min sale.amount (ps.map lot).sum := by
  obtain ⟨st, hloop, hend⟩ := processSale_cases h
  obtain ⟨hlots, hstocked, hleft⟩ := processPurchases_lots hloop hsale hps
  have hlogged := processPurchases_logged hloop
  have hframe := processPurchases_frame hloop hid
  have hlogged : loggedQuantity st.purchaseLogEntries + st.soldQuantity = sale.amount :=
    hlogged.trans (zero_add _)
  have hnonneg : 0 ≤ (ps.map lot).sum := List.sum_nonneg (lots_nonneg hps)
  have hserved : st.soldQuantity = 0 ↔ sale.amount ≤ (ps.map lot).sum := by
    simp only at hleft
    rw [hleft, sub_eq_zero, eq_comm, min_eq_left_iff]
  refine ⟨?_, hstocked, by rw [hlots, Fifo.residual_sum hsale.le (lots_nonneg hps)]⟩
  constructor
  · rintro ⟨u, hu, ⟨hchecked, entries, hentries, hsum⟩, -⟩
    refine hserved.1 ?_
    rcases hend with ⟨-, rfl⟩ | ⟨-, rfl⟩
    · have hset : u = settleSale st.saleCost st.purchaseLogEntries sale := by
        have hget := OrderedMap.get_set_self st.processor.inventoryBookTransactionsToUpdateMap
          sale.id (settleSale st.saleCost st.purchaseLogEntries sale)
        rw [← settleSale_id st.saleCost st.purchaseLogEntries sale] at hu hget
        exact Option.some.inj (hu.symm.trans hget)
      rcases settleSale_cases st.saleCost st.purchaseLogEntries sale with he | he
      · -- without entries the sale is queued as it was
        rw [hset, he, hopen] at hchecked
        cases hchecked
      · rw [hset, he] at hentries hsum
        obtain rfl : st.purchaseLogEntries = entries := Option.some.inj hentries
        have hsum : loggedQuantity st.purchaseLogEntries = sale.amount := hsum
        linarith
    · have hget : st.processor.inventoryBookTransactionsToUpdateMap.get sale.id = some u := hu
      rw [hframe, hnew] at hget
      cases hget
  · intro hcovered
    have hzero := hserved.2 hcovered
    rw [hzero, add_zero] at hlogged
    rcases hend with ⟨-, rfl⟩ | ⟨hround, -⟩
    · have hset := OrderedMap.get_set_self st.processor.inventoryBookTransactionsToUpdateMap
        sale.id (settleSale st.saleCost st.purchaseLogEntries sale)
      rw [settleSale_eq (hlogged ▸ hsale)] at hset ⊢
      exact ⟨_, hset, allocated_calculatedSale hlogged, rfl⟩
    · exact absurd (hzero ▸ hP.round_zero _) hround

/-- All sales are allocated exactly if the purchases cover them. -/
theorem processSales_allocated_iff (hP : P.Exact) :
    ∀ {sales ps ps' : List Transaction} {processor processor' : CalculateCostOfSalesProcessor},
      processSales P env fb ib sales ps processor = .ok (some (ps', processor')) →
      (∀ t ∈ sales, 0 < t.amount ∧ t.checked = false) → (∀ p ∈ ps, Stocked p) →
      ((ps ++ sales).map Transaction.id).Nodup →
      (∀ t ∈ sales, processor.inventoryBookTransactionsToUpdateMap.get t.id = none) →
      ((∀ t ∈ sales, QueuedAllocated processor' t) ↔ amounts sales ≤ (ps.map lot).sum) := by
  intro sales
  induction sales with
  | nil =>
    intro ps ps' processor processor' _ _ hps _ _
    simpa [amounts] using List.sum_nonneg (lots_nonneg hps)
  | cons sale sales ih =>
    intro ps ps' processor processor' h hsales hps hnodup hnew
    obtain ⟨qs, processor₁, hone, -, h⟩ := processSales_cons.1 h
    obtain ⟨hids, hframe⟩ := processSale_frame hone
    rw [List.map_append, List.map_cons, List.nodup_middle, List.nodup_cons, List.mem_append,
      not_or] at hnodup
    obtain ⟨⟨hsaleps, hsalesales⟩, hnodup⟩ := hnodup
    obtain ⟨hpos, hopen⟩ := hsales sale List.mem_cons_self
    obtain ⟨hhead, hstocked, hlots⟩ := processSale_allocated_iff hP hone hpos hopen hps hsaleps
      (hnew sale List.mem_cons_self)
    have hnew₁ : ∀ t ∈ sales,
        processor₁.inventoryBookTransactionsToUpdateMap.get t.id = none := by
      intro t ht
      have hmem : t.id ∈ sales.map Transaction.id := List.mem_map_of_mem ht
      rw [hframe t.id ?_ ?_]
      · exact hnew t (List.mem_cons_of_mem _ ht)
      · exact fun hp => (List.nodup_append.1 hnodup).2.2 _ hp _ hmem rfl
      · exact fun he => hsalesales (he ▸ hmem)
    have htail := ih h (fun t ht => hsales t (List.mem_cons_of_mem _ ht)) hstocked
      (by rw [List.map_append, hids]; exact hnodup) hnew₁
    -- later sales leave the update of the first one as it is
    have hkept : QueuedAllocated processor' sale ↔ QueuedAllocated processor₁ sale := by
      unfold QueuedAllocated
      rw [processSales_frame h (hids ▸ hsaleps) hsalesales]
    have hrest : 0 ≤ amounts sales := by
      refine List.sum_nonneg fun q hq => ?_
      obtain ⟨t, ht, rfl⟩ := List.mem_map.1 hq
      exact (hsales t (List.mem_cons_of_mem _ ht)).1.le
    have hsum : amounts (sale :: sales) = sale.amount + amounts sales := by
      rw [amounts, List.map_cons, List.sum_cons]
      rfl
    rw [List.forall_mem_cons, hkept, hhead, htail, hlots, hsum]
    constructor
    · rintro ⟨hle, hrestle⟩
      rw [min_eq_left hle] at hrestle
      linarith
    · intro hle
      have hle' : sale.amount ≤ (ps.map lot).sum := by linarith
      rw [min_eq_left hle']
      exact ⟨hle', by linarith⟩

/-- The credit notes keep the ids of the purchases, and queue updates of them and of themselves
    only. -/
theorem processCreditNotes_frame :
    ∀ {notes : List (Option String × Transaction)}
      {purchases purchases' : OrderedMap (Option String) Transaction}
      {processor processor' : CalculateCostOfSalesProcessor},
      processCreditNotes P notes purchases processor = .ok (.done purchases' processor') →
      purchases'.values.map Transaction.id = purchases.values.map Transaction.id ∧
        ∀ k, k ∉ purchases.values.map Transaction.id → k ∉ (notes.map fun e => e.2.id) →
          processor'.inventoryBookTransactionsToUpdateMap.get k =
            processor.inventoryBookTransactionsToUpdateMap.get k := by
  intro notes
  induction notes with
  | nil =>
    intro purchases purchases' processor processor' h
    cases h
    exact ⟨rfl, fun _ _ _ => rfl⟩
  | cons e notes ih =>
    obtain ⟨number, note⟩ := e
    intro purchases purchases' processor processor' h
    rcases processCreditNotes_cons h with ⟨-, h⟩ | ⟨p, code, hp, -, -, h⟩
    · obtain ⟨hids, hframe⟩ := ih h
      refine ⟨hids, fun k hk hn => ?_⟩
      rw [List.map_cons, List.mem_cons, not_or] at hn
      exact hframe k hk hn.2
    · obtain ⟨hids, hframe⟩ := ih h
      have hsame : (purchases.set (some code) (credited P note p)).values.map Transaction.id =
          purchases.values.map Transaction.id := OrderedMap.map_values_set _ hp (by rfl)
      rw [hsame] at hids hframe
      refine ⟨hids, fun k hk hn => ?_⟩
      rw [List.map_cons, List.mem_cons, not_or] at hn
      have hkp : k ≠ p.id := fun he =>
        hk (he ▸ List.mem_map_of_mem (OrderedMap.mem_values_of_get hp))
      exact (hframe k hk hn.2).trans
        ((OrderedMap.get_set_of_ne _ _ hn.1).trans (OrderedMap.get_set_of_ne _ _ hkp))

variable {s : State} {goodAccount a : Account} {toDate : Date} {sales ps : List Transaction}
  {purchases : OrderedMap (Option String) Transaction}
  {processor₀ processor : CalculateCostOfSalesProcessor}

/-- The credit notes queue no update of a listed sale. -/
theorem processCreditNotes_sales
    (hids : (s.inventoryBook.transactions.map Transaction.id).Nodup)
    (hkind : ∀ t ∈ s.inventoryBook.transactions, t.moves goodAccount.name → OneKind t)
    (hnotes : processCreditNotes P
      (listingOf P s.inventoryBook goodAccount toDate).goodAccountCreditNoteTransactionsMap.entries
      (listingOf P s.inventoryBook goodAccount toDate).goodAccountPurchaseTransactionsMap {} =
        .ok (.done purchases processor₀)) {t : Transaction}
    (ht : t ∈ (listingOf P s.inventoryBook goodAccount toDate).goodAccountSaleTransactions) :
    processor₀.inventoryBookTransactionsToUpdateMap.get t.id = none := by
  obtain ⟨-, hframe⟩ := processCreditNotes_frame hnotes
  obtain ⟨hsp, hsn, -⟩ := listing_disjoint P toDate hids hkind
  rw [hframe t.id ?_ ?_]
  · exact OrderedMap.get_empty _
  · intro hid
    obtain ⟨p, hp, hid⟩ := List.mem_map.1 hid
    exact hsp t ht p hp hid
  · intro hid
    obtain ⟨e, he, hid⟩ := List.mem_map.1 hid
    exact hsn t ht e he hid

/-- What a run queues for an update is listed: an open purchase, sale or credit note. -/
theorem queued_listed
    (hnotes : processCreditNotes P
      (listingOf P s.inventoryBook goodAccount toDate).goodAccountCreditNoteTransactionsMap.entries
      (listingOf P s.inventoryBook goodAccount toDate).goodAccountPurchaseTransactionsMap {} =
        .ok (.done purchases processor₀))
    (hsales : processSales P env fb ib
        (BotService.sortFIFO P
          (listingOf P s.inventoryBook goodAccount toDate).goodAccountSaleTransactions)
        (BotService.sortFIFO P purchases.values) processor₀ = .ok (some (ps, processor)))
    {k : String} {w : Transaction}
    (hw : processor.inventoryBookTransactionsToUpdateMap.get k = some w) :
    ∃ t ∈ s.inventoryBook.transactions, t.id = k ∧ t.moves goodAccount.name ∧ t.checked = false ∧
      (t ∈ (listingOf P s.inventoryBook goodAccount toDate).goodAccountSaleTransactions ∨
        BotService.isPurchase t ∨ BotService.isCreditNote t) := by
  obtain ⟨hlistedSales, hlistedPurchases, hlistedNotes⟩ := listing_mem P s goodAccount toDate
  obtain ⟨hpids, hframe⟩ := processCreditNotes_frame hnotes
  have hpperm := (sortFIFO_perm (P := P) purchases.values).map Transaction.id
  have hsperm := (sortFIFO_perm (P := P) (listingOf P s.inventoryBook goodAccount
    toDate).goodAccountSaleTransactions).map Transaction.id
  by_cases hp : k ∈ (listingOf P s.inventoryBook goodAccount
      toDate).goodAccountPurchaseTransactionsMap.values.map Transaction.id
  · obtain ⟨p, hp, hid⟩ := List.mem_map.1 hp
    obtain ⟨code, hcode⟩ := OrderedMap.mem_values_iff.1 hp
    obtain ⟨hin, hopen, -⟩ := hlistedPurchases code p hcode
    exact ⟨p, hin.stored, hid, hin.moves, hopen, Or.inr (Or.inl hin.kind)⟩
  · by_cases hs : k ∈ (listingOf P s.inventoryBook goodAccount
        toDate).goodAccountSaleTransactions.map Transaction.id
    · obtain ⟨t, ht, hid⟩ := List.mem_map.1 hs
      obtain ⟨hin, hopen⟩ := hlistedSales t ht
      exact ⟨t, hin.stored, hid, hin.moves, hopen, Or.inl ht⟩
    · by_cases hn : k ∈ ((listingOf P s.inventoryBook goodAccount
          toDate).goodAccountCreditNoteTransactionsMap.entries.map fun e => e.2.id)
      · obtain ⟨e, he, hid⟩ := List.mem_map.1 hn
        obtain ⟨hin, hopen, -⟩ := hlistedNotes e he
        exact ⟨e.2, hin.stored, hid, hin.moves, hopen, Or.inr (Or.inr hin.kind)⟩
      · rw [processSales_frame hsales (by rwa [hpperm.mem_iff, hpids]) (by rwa [hsperm.mem_iff]),
          hframe k hp hn, OrderedMap.get_empty] at hw
        cases hw

/-- A run queues all its sales as allocated exactly if its listing is covered. -/
theorem planListing_allocated_iff (hP : P.Exact)
    (hids : (s.inventoryBook.transactions.map Transaction.id).Nodup)
    (hkind : ∀ t ∈ s.inventoryBook.transactions, t.moves goodAccount.name → OneKind t)
    (hpos : PositiveListing (listTransactions s.inventoryBook goodAccount toDate))
    (h : planListing P env fb ib goodAccount (listingOf P s.inventoryBook goodAccount toDate) =
      .ok (.fire a sales processor)) :
    (∀ t ∈ (listTransactions s.inventoryBook goodAccount toDate).filter isOpenSale,
        QueuedAllocated processor t) ↔
      Covered (listTransactions s.inventoryBook goodAccount toDate) := by
  obtain ⟨-, rfl, purchases, processor₁, ps, hnotes, hsales⟩ := planListing_fire h
  obtain ⟨hpids, -⟩ := processCreditNotes_frame hnotes
  obtain ⟨hlistedSales, -⟩ := listing_mem P s goodAccount toDate
  have hnodup := listing_sorted_nodup P toDate hids hkind hpids
  have hiff := processSales_allocated_iff hP hsales ?_ ?_ hnodup ?_
  · have hlots := ((sortFIFO_perm (P := P) purchases.values).map lot).sum_eq
    rw [hlots, lots_after_notes hP hnotes, amounts_perm (sortFIFO_perm _), collect_sales] at hiff
    simp only [(sortFIFO_perm (P := P) _).mem_iff] at hiff
    exact hiff
  · intro t ht
    have ht := (sortFIFO_perm _).mem_iff.1 ht
    refine ⟨?_, (hlistedSales t ht).2⟩
    rw [collect_sales] at ht
    exact hpos.sale ht
  · exact fun p hp => hpos.stocked hP hnotes p ((sortFIFO_perm _).mem_iff.1 hp)
  · exact fun t ht => processCreditNotes_sales hids hkind hnotes ((sortFIFO_perm _).mem_iff.1 ht)

end Loops

end InventoryBot.Menu
