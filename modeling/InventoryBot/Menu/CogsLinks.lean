import InventoryBot.Menu.ResetRoundTrip
import InventoryBot.Menu.QuantityGuard
import InventoryBot.Menu.QuantityLedger

/-!
# One cost of sales transaction for a calculated sale

A sale and its cost of sales transaction are linked by the id of the sale alone. Over
calculations, resets and new transactions of the webhook, a sale has exactly one such
transaction while it is calculated and none while it is open.

* `SaleLinked`: the two ways a sale is linked.
* `Move.saleLinked`, `CalculationFires.linkState`: a calculation.
* `ResetDone.linkState`: a reset finds every cost of sales transaction by the first hit.
* `one_cogs_per_sale`: over any sequence of these steps.
-/

namespace InventoryBot.Menu

open Lib CostOfSalesService

/-! ## Links -/

/-- The amounts of the transactions that carry an id as remote id. -/
def cogsAmounts (id : String) (l : List Transaction) : List ℚ :=
  (l.filter (Query.remoteId id).selects).map Transaction.amount

theorem cogsAmounts_append (id : String) (l l' : List Transaction) :
    cogsAmounts id (l ++ l') = cogsAmounts id l ++ cogsAmounts id l' := by
  rw [cogsAmounts, List.filter_append, List.map_append]
  rfl

theorem cogsAmounts_singleton {id : String} {c : Transaction} {saleId : String}
    (h : c.remoteIds = [saleId]) : cogsAmounts id [c] = if saleId = id then [c.amount] else [] := by
  have hselects : (Query.remoteId id).selects c = decide (saleId = id) := by
    simp [Query.selects, h, eq_comm]
  unfold cogsAmounts
  by_cases hid : saleId = id <;> simp [hselects, hid]

/-- Posting changes no link. -/
theorem cogsAmounts_postAll (id : String) (newId : ℕ → String) (now : ℕ) (l : List Transaction) :
    cogsAmounts id (Book.postAll newId now l) = cogsAmounts id l := by
  induction l generalizing newId with
  | nil => rfl
  | cons c l ih =>
    have hrest := ih fun k => newId (k + 1)
    have hselects : (Query.remoteId id).selects (Book.post (newId 0) now c) =
        (Query.remoteId id).selects c := rfl
    rw [Book.postAll_cons]
    unfold cogsAmounts at hrest ⊢
    rw [List.filter_cons, List.filter_cons, hselects]
    split
    · rw [List.map_cons, List.map_cons, hrest]
      rfl
    · exact hrest

theorem cogsAmounts_eq_nil {id : String} {l : List Transaction} (h : ∀ c ∈ l, id ∉ c.remoteIds) :
    cogsAmounts id l = [] := by
  rw [cogsAmounts, List.map_eq_nil_iff, List.filter_eq_nil_iff]
  intro c hc
  simpa [Query.selects] using h c hc

/-- How a sale is linked to the financial transactions `l`: calculated, to exactly one of its
    total cost, or open, to none. -/
inductive SaleLinked (l : List Transaction) (t : Transaction) : Prop
  | calculated {cost : ℚ} (hallocated : Allocated t) (hcost : t.totalCost = some cost)
      (hcogs : cogsAmounts t.id l = [cost])
  | unsold (hopen : t.checked = false) (hlog : t.purchaseLog = none)
      (hcogs : cogsAmounts t.id l = [])

theorem SaleLinked.of_unchecked {l : List Transaction} {t : Transaction} (h : SaleLinked l t)
    (hopen : t.checked = false) : t.purchaseLog = none ∧ cogsAmounts t.id l = [] := by
  cases h with
  | calculated hallocated =>
    rw [hallocated.1] at hopen
    cases hopen
  | unsold _ hlog hcogs => exact ⟨hlog, hcogs⟩

/-! ## A calculation -/

section Moves

variable {P : Platform} {env : RunEnv} {fb : Book} {digits : ℕ} {account : String} {before : Date}
  {d d' : Desk}

/-- Every sale of the account is linked to the ledger and what is posted after it. -/
def SalesLinked (account : String) (ledger : List Transaction) (d : Desk) : Prop :=
  ∀ t ∈ d.stored, t.moves account → BotService.isSale t → SaleLinked (ledger ++ d.posted) t

/-- A move that closes a sale links it to what it posts, and no other sale. -/
theorem Move.saleLinked (hround : P.round 0 digits = 0) {ledger : List Transaction}
    (h : Move P env fb digits account before (· = 0) d d') (hd : SalesDesk account before d)
    (hlinked : SalesLinked account ledger d) : SalesLinked account ledger d' := by
  rcases h.sale_cases hround hd with
    ⟨hsame, hsales⟩ | ⟨sale, cost, entries, hsale, hopen, hlogged, hstored, hnew⟩
  · intro t ht hmoves hkind
    rw [hsame]
    exact hlinked t ((hsales t hkind).1 ht) hmoves hkind
  · intro t ht hmoves hkind
    have hpost : ∀ id, cogsAmounts id (ledger ++ d'.posted) =
        cogsAmounts id (ledger ++ d.posted) ++ if sale.id = id then [cost] else [] := by
      intro id
      rw [hnew, ← List.append_assoc, cogsAmounts_append,
        cogsAmounts_singleton (c := costOfSaleTransaction P env fb sale cost) (by rfl)]
      rfl
    rw [hstored] at ht
    rcases mem_replaceRow.1 ht with ⟨rfl, -⟩ | ⟨ht, hne⟩
    · obtain ⟨-, hcogs⟩ := (hlinked sale hsale.stored hsale.moves hsale.kind).of_unchecked hopen
      refine .calculated (allocated_calculatedSale hlogged) rfl ?_
      have hid : (calculatedSale sale cost entries).id = sale.id := rfl
      rw [hid, hpost, if_pos rfl]
      exact congrArg (· ++ [cost]) hcogs
    · have hother : cogsAmounts t.id (ledger ++ d'.posted) =
          cogsAmounts t.id (ledger ++ d.posted) := by
        rw [hpost, if_neg (fun hid => hne hid.symm), List.append_nil]
      cases hlinked t ht hmoves hkind with
      | calculated hallocated hcost hcogs => exact .calculated hallocated hcost (hother.trans hcogs)
      | unsold hopen hlog hcogs => exact .unsold hopen hlog (hother.trans hcogs)

theorem Moves.salesLinked (hround : P.round 0 digits = 0) {ledger : List Transaction}
    (h : Moves P env fb digits account before (· = 0) d d') (hd : SalesDesk account before d)
    (hlinked : SalesLinked account ledger d) : SalesLinked account ledger d' := by
  have hkept := h.preserves
    (I := fun e => SalesDesk account before e ∧ SalesLinked account ledger e)
    (fun _ _ hmove he => ⟨hmove.salesDesk he.1, hmove.saleLinked hround he.1 he.2⟩) ⟨hd, hlinked⟩
  exact hkept.2

end Moves

/-! ## Between runs -/

/-- What the steps keep about an account whose transactions the bot posted. -/
structure LinkState (goodAccountId account : String) (s : State) : Prop where
  wellFormed : WellFormed s.inventoryBook
  found : ∃ a, s.inventoryBook.getAccount goodAccountId = some a ∧ a.name = account
  rows : ∀ t ∈ s.inventoryBook.transactions, t.moves account → AccountRow t
  positive : ∀ t ∈ s.inventoryBook.transactions, t.moves account →
    0 < t.amount ∧ ∀ q, t.originalQuantity = some q → 0 < q
  splits : ∀ t ∈ s.inventoryBook.transactions, t.moves account → BotService.isPurchase t →
    t.checked = false → t.parentId = none
  codes : ∀ p ∈ s.inventoryBook.transactions, ∀ q ∈ s.inventoryBook.transactions,
    p.moves account → q.moves account → BotService.isPurchase p → BotService.isPurchase q →
    p.parentId = none → q.parentId = none → p.purchaseCode = q.purchaseCode → p = q
  sales : ∀ t ∈ s.inventoryBook.transactions, t.moves account → BotService.isSale t →
    SaleLinked s.financialBook.transactions t

section Steps

variable {P : Platform} {collection : Option (List BookInfo)} {env : RunEnv} {s s' : State}
  {goodAccountId account : String} {goodAccount : Account} {day : Date}

/-- A transaction of the account is a purchase, a sale or a credit note. -/
theorem RowForm.kind {t : Transaction} (h : RowForm t) :
    BotService.isPurchase t ∨ BotService.isSale t ∨ BotService.isCreditNote t := by
  cases h with
  | purchase hkind => exact Or.inl hkind
  | sale hkind => exact Or.inr (Or.inl hkind)
  | creditNote hkind => exact Or.inr (Or.inr hkind)
  | split hkind => exact Or.inl hkind

/-- The guard covers the listing of an account with different purchase codes. -/
theorem LinkState.covered (hP : P.Exact) (hs : LinkState goodAccountId account s)
    (ha : goodAccount.name = account) (hpassed : Passed P s goodAccountId day goodAccount) :
    PositiveListing (listTransactions s.inventoryBook goodAccount day) ∧
      Covered (listTransactions s.inventoryBook goodAccount day) := by
  have hlisted : ∀ t ∈ listTransactions s.inventoryBook goodAccount day,
      t ∈ s.inventoryBook.transactions ∧ t.moves account := by
    intro t ht
    obtain ⟨hst, hmoves, -⟩ := mem_listTransactions.1 ht
    exact ⟨hst, ha ▸ hmoves⟩
  have hpos : ∀ t ∈ listTransactions s.inventoryBook goodAccount day, 0 < t.amount :=
    fun t ht => (hs.positive t (hlisted t ht).1 (hlisted t ht).2).1
  refine ⟨fun t ht _ => hpos t ht, covered_of_guard ?_ (fun t ht _ => (hpos t ht).le) ?_⟩
  · refine List.Nodup.map_on ?_ ?_
    · intro p hp q hq hcode
      have hroot : ∀ r ∈ (listTransactions s.inventoryBook goodAccount day).filter isOpenPurchase,
          r ∈ s.inventoryBook.transactions ∧ r.moves account ∧ BotService.isPurchase r ∧
            r.parentId = none := by
        intro r hr
        obtain ⟨hmem, hkind⟩ := List.mem_filter.1 hr
        simp only [isOpenPurchase, Bool.and_eq_true, Bool.not_eq_true'] at hkind
        obtain ⟨hst, hmoves⟩ := hlisted r hmem
        exact ⟨hst, hmoves, hkind.2, hs.splits r hst hmoves hkind.2 hkind.1⟩
      obtain ⟨hp, hpm, hpk, hpr⟩ := hroot p hp
      obtain ⟨hq, hqm, hqk, hqr⟩ := hroot q hq
      exact hs.codes p hp q hq hpm hqm hpk hqk hpr hqr hcode
    · exact (hs.wellFormed.ids.of_map.filter _).filter _
  · have hcovered := hpassed.covered
    rwa [(collect_totals _ hP).1, (collect_totals _ hP).2] at hcovered

/-- A calculation keeps the links. -/
theorem CalculationFires.linkState {d : Desk} (hP : P.Exact)
    (hs : LinkState goodAccountId goodAccount.name s) (hfresh : env.Fresh s)
    (h : CalculationFires P env s goodAccountId day (· = 0) goodAccount d s') :
    LinkState goodAccountId goodAccount.name s' := by
  obtain ⟨a', ha', hsame', -⟩ := h.account
  have hwf' := h.wellFormed hs.wellFormed hfresh
  have hside : ∀ t ∈ s.inventoryBook.transactions, t.moves goodAccount.name → OneSided t :=
    fun t ht hmoves =>
      hs.wellFormed.oneSided h.passed.account h.passed.notIncoming h.passed.notOutgoing ht hmoves
  have hquantity := (h.moves.quantity hP.keepsSign ⟨hs.wellFormed.ids,
    fun t ht hm _ => (hs.positive t ht hm).1, fun t ht hm _ => (hs.positive t ht hm).1, hs.splits,
    by simp [Desk.start], by simp [Desk.start]⟩).1
  obtain ⟨hstored, -⟩ := moves_rows hs.wellFormed.ids
    (fun t ht hm => ⟨hs.rows t ht hm, hside t ht hm⟩) h.moves
  have hdesk : SalesDesk goodAccount.name (BotService.getBeforeDateIsoString day)
      (Desk.start s.inventoryBook.transactions) :=
    salesDesk_start hs.wellFormed h.passed.account h.passed.notIncoming h.passed.notOutgoing
      fun t hin _ => (hs.positive t hin.stored hin.moves).1
  have hlinked : SalesLinked goodAccount.name s.financialBook.transactions d :=
    h.moves.salesLinked (hP.round_zero _) hdesk
      fun t ht hm hk => by simpa [Desk.start] using hs.sales t ht hm hk
  -- the transactions of the desk, and those that were split off
  have hcases : ∀ t ∈ s'.inventoryBook.transactions, t.moves goodAccount.name →
      (t ∈ d.stored ∧ ∃ t₀ ∈ s.inventoryBook.transactions, SameIdentity t₀ t ∧
          t₀.moves goodAccount.name) ∨
        (AccountRow t ∧ 0 < t.amount ∧ t.originalQuantity = none ∧ t.checked = true ∧
          t.parentId ≠ none ∧ ¬BotService.isSale t) := by
    intro t ht hmoves
    rcases h.mem_cases ht with ⟨hst, t₀, ht₀, htrace⟩ | ⟨k, u, hu, rfl, p, hp, hsplit, hkind⟩
    · have hsame := sameIdentity_of_trace htrace
      exact Or.inl ⟨hst, t₀, ht₀, hsame, hsame.moves goodAccount.name ▸ hmoves⟩
    · have hpm : p.moves goodAccount.name := (hsplit.moves goodAccount.name).symm.trans hmoves
      refine Or.inr ⟨(hs.rows p hp hpm).split hfresh hsplit hkind, hquantity.created u hu,
        hsplit.originalQuantity, hsplit.checked, ?_, fun hsale => ?_⟩
      · show u.parentId ≠ none
        rw [hsplit.parentId]
        simp
      · obtain ⟨-, r, hr, htype⟩ := isSale_iff.1 hsale
        exact (hside p hp hpm hkind r (hsplit.debitAccount.symm.trans hr)).2 htype
  refine ⟨hwf', ⟨a', ha', hsame'.name⟩, ?_, ?_, ?_, ?_, ?_⟩
  · intro t ht hmoves
    rcases hcases t ht hmoves with ⟨hst, -⟩ | ⟨hrow, -⟩
    · exact (hstored t hst hmoves).1
    · exact hrow
  · intro t ht hmoves
    rcases hcases t ht hmoves with ⟨hst, t₀, ht₀, hsame, hm₀⟩ | ⟨-, hpos, hnone, -⟩
    · rw [hsame.originalQuantity]
      refine ⟨?_, (hs.positive t₀ ht₀ hm₀).2⟩
      rcases (hstored t hst hmoves).1.form.kind with hk | hk | hk
      · exact hquantity.bought t hst hmoves hk
      · exact hquantity.ordered t hst hmoves (Or.inl hk)
      · exact hquantity.ordered t hst hmoves (Or.inr hk)
    · exact ⟨hpos, by simp [hnone]⟩
  · intro t ht hmoves hkind hopen
    rcases hcases t ht hmoves with ⟨hst, -⟩ | ⟨-, -, -, hchecked, -⟩
    · exact hquantity.roots t hst hmoves hkind hopen
    · rw [hopen] at hchecked
      cases hchecked
  · intro p hp q hq hpm hqm hpk hqk hpr hqr hcode
    rcases hcases p hp hpm with ⟨-, p₀, hp₀, hpsame, hpm₀⟩ | ⟨-, -, -, -, hne, -⟩
    · rcases hcases q hq hqm with ⟨-, q₀, hq₀, hqsame, hqm₀⟩ | ⟨-, -, -, -, hne, -⟩
      · have hroots : p₀ = q₀ := by
          refine hs.codes p₀ hp₀ q₀ hq₀ hpm₀ hqm₀ (hpsame.isPurchase ▸ hpk)
            (hqsame.isPurchase ▸ hqk) (hpsame.parentId ▸ hpr) (hqsame.parentId ▸ hqr) ?_
          rw [← hpsame.purchaseCode, ← hqsame.purchaseCode, hcode]
        refine List.inj_on_of_nodup_map hwf'.ids hp hq ?_
        rw [hpsame.id, hqsame.id, hroots]
      · exact absurd hqr hne
    · exact absurd hpr hne
  · intro t ht hmoves hkind
    rcases hcases t ht hmoves with ⟨hst, -⟩ | ⟨-, -, -, -, -, hsale⟩
    · have hcogs : cogsAmounts t.id s'.financialBook.transactions =
          cogsAmounts t.id (s.financialBook.transactions ++ d.posted) := by
        rw [h.financial, cogsAmounts_append, cogsAmounts_postAll, cogsAmounts_append]
      cases hlinked t hst hmoves hkind with
      | calculated hallocated hcost hone => exact .calculated hallocated hcost (hcogs.trans hone)
      | unsold hopen hlog hnone => exact .unsold hopen hlog (hcogs.trans hnone)
    · exact absurd hkind hsale

/-! ## A reset -/

/-- The loop of a reset queues the first cost of sales transaction of every calculated sale. -/
theorem foldlM_resetTransaction_cogs {fb : Book} {l : List Transaction}
    {processor processor' : ResetCostOfSalesProcessor}
    (h : l.foldlM (resetTransaction P fb) processor = .ok processor') :
    (∀ k ∈ processor.financialBookTransactionsToTrashMap.keys,
        k ∈ processor'.financialBookTransactionsToTrashMap.keys) ∧
      ∀ t ∈ l, ∀ c, resetCogs fb t = some c →
        c.id ∈ processor'.financialBookTransactionsToTrashMap.keys := by
  induction l generalizing processor with
  | nil =>
    cases h
    exact ⟨fun k hk => hk, by simp⟩
  | cons tx l ih =>
    rw [List.foldlM_cons] at h
    obtain ⟨processor₁, htx, h⟩ := bind_eq_ok.1 h
    obtain ⟨hkept, hqueued⟩ := ih h
    have hone := (resetTransaction_queues htx).2.2
    refine ⟨fun k hk => hkept k ?_, ?_⟩
    · rw [hone]
      exact mem_keys_enqueue.2 (Or.inr hk)
    · intro t ht c hc
      rcases List.mem_cons.1 ht with rfl | ht
      · refine hkept c.id ?_
        rw [hone]
        exact mem_keys_enqueue.2 (Or.inl ⟨c, hc, rfl⟩)
      · exact hqueued t ht c hc

/-- After a reset nothing is linked to a sale that was linked. -/
theorem ResetDone.cogsAmounts (h : ResetDone P s goodAccountId goodAccount s') {t : Transaction}
    (ht : t ∈ s.inventoryBook.transactions) (hmoves : t.moves goodAccount.name)
    (hagent : t.agentId = some "inventory-bot")
    (hlinked : SaleLinked s.financialBook.transactions t) :
    Menu.cogsAmounts t.id s'.financialBook.transactions = [] := by
  obtain ⟨processor, hloop, hfinancial⟩ := h.loop
  obtain ⟨-, -, hkeyed⟩ := foldlM_resetTransaction_keyed hloop Book.keyedById_empty
    Book.keyedById_empty Book.keyedById_empty
  have hfilter : Menu.cogsAmounts t.id s'.financialBook.transactions =
      ((s.financialBook.transactions.filter (Query.remoteId t.id).selects).filter fun c =>
        !processor.financialBookTransactionsToTrashMap.values.any (·.id == c.id)).map
          Transaction.amount := by
    rw [hfinancial, Menu.cogsAmounts, Book.batchTrashTransactions, List.filter_filter,
      List.filter_filter]
    congr 2
    funext c
    exact Bool.and_comm _ _
  rw [hfilter]
  cases hlinked with
  | unsold _ _ hcogs =>
    rw [List.map_eq_nil_iff.1 hcogs]
    rfl
  | @calculated cost hallocated hcost hcogs =>
    obtain ⟨entries, hlog, -⟩ := hallocated.2
    obtain ⟨c, hc, -⟩ := List.map_eq_singleton_iff.1 hcogs
    have hqueued : resetCogs s.financialBook t = some { c with checked := false } := by
      unfold resetCogs
      rw [if_pos ⟨hagent, by simp [hlog]⟩, Book.getTransactions, hc]
      rfl
    have hkey := (foldlM_resetTransaction_cogs hloop).2 t (List.mem_filter.2 ⟨ht, hmoves⟩) _ hqueued
    rw [hc, List.filter_cons_of_neg]
    · rfl
    · rw [(Book.any_id_values hkeyed c.id).2 hkey]
      simp

/-- A transaction of the account after a reset was not split off, and has been reset. -/
theorem ResetDone.mem_moves (hs : LinkState goodAccountId goodAccount.name s)
    (h : ResetDone P s goodAccountId goodAccount s') {t' : Transaction}
    (ht' : t' ∈ s'.inventoryBook.transactions) (hmoves : t'.moves goodAccount.name) :
    ∃ t ∈ s.inventoryBook.transactions, t.moves goodAccount.name ∧ t.parentId = none ∧
      SameIdentity t t' ∧ t' = resetRow P goodAccount.name t := by
  obtain ⟨t, ht, hkept, rfl⟩ := h.mem ht'
  have hsame := resetRow_sameIdentity P goodAccount.name t
  rw [hsame.moves] at hmoves
  have hparent := hkept hmoves
  rw [resetTrash_eq (hs.rows t ht hmoves), Bool.not_eq_false', Option.isNone_iff_eq_none] at hparent
  exact ⟨t, ht, hmoves, hparent, hsame, rfl⟩

/-- After a reset no sale of the account is checked. -/
theorem ResetDone.sales_open (hs : LinkState goodAccountId goodAccount.name s)
    (h : ResetDone P s goodAccountId goodAccount s') {t' : Transaction}
    (ht' : t' ∈ s'.inventoryBook.transactions) (hmoves : t'.moves goodAccount.name)
    (hkind : BotService.isSale t') : t'.checked = false ∧ t'.purchaseLog = none := by
  obtain ⟨t, ht, hm, hparent, hsame, rfl⟩ := h.mem_moves hs ht' hmoves
  have hrow := hs.rows t ht hm
  have hsale : BotService.isSale t := hsame.isSale ▸ hkind
  rw [resetRow_eq_baseRow hrow hparent hm]
  cases hrow.form with
  | purchase _ _ hlog hquantity =>
    rw [baseRow_of_quantity hquantity]
    exact ⟨rfl, hlog⟩
  | sale _ _ hquantity =>
    rw [baseRow_of_sale hquantity hsale]
    exact ⟨rfl, rfl⟩
  | creditNote _ _ hquantity =>
    rw [baseRow_of_sale hquantity hsale]
    exact ⟨rfl, rfl⟩
  | split _ _ hquantity =>
    rw [baseRow_of_sale hquantity hsale]
    exact ⟨rfl, rfl⟩

/-- A reset keeps the links. -/
theorem ResetDone.linkState (hs : LinkState goodAccountId goodAccount.name s)
    (h : ResetDone P s goodAccountId goodAccount s') :
    LinkState goodAccountId goodAccount.name s' := by
  have hcases : ∀ t' ∈ s'.inventoryBook.transactions, t'.moves goodAccount.name →
      ∃ t ∈ s.inventoryBook.transactions, t.moves goodAccount.name ∧ t.parentId = none ∧
        SameIdentity t t' ∧ t' = resetRow P goodAccount.name t :=
    fun _ ht' hmoves => h.mem_moves hs ht' hmoves
  refine ⟨h.wellFormed hs.wellFormed, ⟨_, h.cleared, rfl⟩, ?_, ?_, ?_, ?_, ?_⟩
  · intro t' ht' hmoves
    obtain ⟨t, ht, hm, -, -, rfl⟩ := hcases t' ht' hmoves
    exact (hs.rows t ht hm).reset hm
  · intro t' ht' hmoves
    obtain ⟨t, ht, hm, -, hsame, rfl⟩ := hcases t' ht' hmoves
    obtain ⟨hpos, horiginal⟩ := hs.positive t ht hm
    rw [hsame.originalQuantity]
    refine ⟨?_, horiginal⟩
    rcases resetRow_amount P goodAccount.name t with ha | ha
    · exact ha ▸ hpos
    · exact horiginal _ ha
  · intro t' ht' hmoves _ _
    obtain ⟨t, -, -, hparent, hsame, -⟩ := hcases t' ht' hmoves
    exact hsame.parentId.trans hparent
  · intro p' hp' q' hq' hpm' hqm' hpk hqk _ _ hcode
    obtain ⟨p, hp, hpm, hpr, hpsame, rfl⟩ := hcases p' hp' hpm'
    obtain ⟨q, hq, hqm, hqr, hqsame, rfl⟩ := hcases q' hq' hqm'
    rw [hpsame.purchaseCode, hqsame.purchaseCode] at hcode
    rw [hs.codes p hp q hq hpm hqm (hpsame.isPurchase ▸ hpk) (hqsame.isPurchase ▸ hqk) hpr hqr hcode]
  · intro t' ht' hmoves hkind
    obtain ⟨hopen, hlog⟩ := h.sales_open hs ht' hmoves hkind
    obtain ⟨t, ht, hm, -, hsame, rfl⟩ := hcases t' ht' hmoves
    have hcogs := h.cogsAmounts ht hm (hs.rows t ht hm).agent
      (hs.sales t ht hm (hsame.isSale ▸ hkind))
    exact .unsold hopen hlog (hsame.id ▸ hcogs)

/-! ## New transactions -/

/-- The webhook has replicated a purchase, a sale or a credit note. It may have changed the
    accounts on the way, and the financial book may have changed except for what is linked to
    the sales. -/
structure Replicates (goodAccountId account : String) (s : State) (t : Transaction) (s' : State) :
    Prop where
  replicated : Events.Replicated t
  positive : 0 < t.amount
  inventory : s'.inventoryBook.transactions = s.inventoryBook.transactions ++ [t]
  wellFormed : WellFormed s'.inventoryBook
  found : ∃ a, s'.inventoryBook.getAccount goodAccountId = some a ∧ a.name = account
  code : t.moves account → BotService.isPurchase t → ∀ p ∈ s.inventoryBook.transactions,
    p.moves account → BotService.isPurchase p → p.parentId = none → p.purchaseCode ≠ t.purchaseCode
  unlinked : ∀ c ∈ s'.financialBook.transactions, t.id ∉ c.remoteIds
  linked : ∀ u ∈ s.inventoryBook.transactions, u.moves account → BotService.isSale u →
    s'.financialBook.getTransactions (.remoteId u.id) =
      s.financialBook.getTransactions (.remoteId u.id)

/-- A new transaction keeps the links. -/
theorem Replicates.linkState {t : Transaction} (hs : LinkState goodAccountId account s)
    (h : Replicates goodAccountId account s t s') : LinkState goodAccountId account s' := by
  have hmem : ∀ u ∈ s'.inventoryBook.transactions, u ∈ s.inventoryBook.transactions ∨ u = t := by
    intro u hu
    rw [h.inventory, List.mem_append, List.mem_singleton] at hu
    exact hu
  refine ⟨h.wellFormed, h.found, ?_, ?_, ?_, ?_, ?_⟩
  · intro u hu hmoves
    rcases hmem u hu with hu | rfl
    · exact hs.rows u hu hmoves
    · exact .of_replicated h.replicated
  · intro u hu hmoves
    rcases hmem u hu with hu | rfl
    · exact hs.positive u hu hmoves
    · have horiginal : u.originalQuantity = none ∨ u.originalQuantity = some u.amount := by
        cases h.replicated with
        | sale => exact Or.inl rfl
        | purchase => exact Or.inr rfl
        | creditNote => exact Or.inl rfl
      refine ⟨h.positive, fun q hq => ?_⟩
      rcases horiginal with hnone | hsome
      · rw [hnone] at hq
        cases hq
      · rw [hsome] at hq
        exact Option.some.inj hq ▸ h.positive
  · intro u hu hmoves hkind hopen
    rcases hmem u hu with hu | rfl
    · exact hs.splits u hu hmoves hkind hopen
    · cases h.replicated <;> rfl
  · intro p hp q hq hpm hqm hpk hqk hpr hqr hcode
    rcases hmem p hp with hp | rfl <;> rcases hmem q hq with hq | rfl
    · exact hs.codes p hp q hq hpm hqm hpk hqk hpr hqr hcode
    · exact absurd hcode (h.code hqm hqk p hp hpm hpk hpr)
    · exact absurd hcode.symm (h.code hpm hpk q hq hqm hqk hqr)
    · rfl
  · intro u hu hmoves hkind
    rcases hmem u hu with hu | rfl
    · have hcogs : cogsAmounts u.id s'.financialBook.transactions =
          cogsAmounts u.id s.financialBook.transactions :=
        congrArg (List.map Transaction.amount) (h.linked u hu hmoves hkind)
      cases hs.sales u hu hmoves hkind with
      | calculated hallocated hcost hone => exact .calculated hallocated hcost (hcogs.trans hone)
      | unsold hopen hlog hnone => exact .unsold hopen hlog (hcogs.trans hnone)
    · refine .unsold ?_ ?_ (cogsAmounts_eq_nil h.unlinked)
      · cases h.replicated <;> rfl
      · cases h.replicated <;> rfl

/-- What happens to an account: a completed calculation, a reset, or a new transaction. -/
inductive LinkStep (P : Platform) (collection : Option (List BookInfo))
    (goodAccountId account : String) : State → State → Prop
  | calculate {s s' : State} (h : Calculates P collection goodAccountId s s') :
      LinkStep P collection goodAccountId account s s'
  | reset {s : State} : LinkStep P collection goodAccountId account s
      (resetCostOfSalesForAccount P collection s goodAccountId).1
  | replicate {s s' : State} {t : Transaction} (h : Replicates goodAccountId account s t s') :
      LinkStep P collection goodAccountId account s s'

theorem linkState_reset (hs : LinkState goodAccountId account s) :
    LinkState goodAccountId account (resetCostOfSalesForAccount P collection s goodAccountId).1 := by
  rcases reset_cases (P := P) collection goodAccountId hs.wellFormed.ids with
    ⟨hsame, -⟩ | ⟨-, goodAccount, hdone⟩
  · rwa [hsame]
  · obtain ⟨a, ha, rfl⟩ := hs.found
    obtain rfl : a = goodAccount := Option.some.inj (ha.symm.trans hdone.account)
    exact hdone.linkState hs

/-- Every step keeps the links. -/
theorem LinkStep.linkState (hP : P.Exact)
    (hstep : LinkStep P collection goodAccountId account s s')
    (hs : LinkState goodAccountId account s) : LinkState goodAccountId account s' := by
  cases hstep with
  | calculate h =>
    cases h with
    | run env toDate hfresh =>
      rcases calculate_cases P collection env s goodAccountId toDate with
        hsame | hsame | ⟨-, hreset⟩ | ⟨goodAccount, sales, processor, hplan, -⟩
      · rwa [hsame]
      · rw [hsame]
        exact { hs with }
      · rw [hreset]
        exact linkState_reset hs
      · obtain ⟨a, ha, rfl⟩ := hs.found
        obtain ⟨hpassed, -⟩ := planCalculation_fire hplan
        obtain rfl : a = goodAccount := Option.some.inj (ha.symm.trans hpassed.account)
        obtain ⟨hpos, hcovered⟩ := hs.covered hP rfl hpassed
        obtain ⟨d, hfires⟩ := calculation_fires (· = 0) hs.wellFormed hfresh hplan
          fun _ _ hnotes => hcovered.enough hP hpos hnotes
        exact hfires.linkState hP hs hfresh
  | reset => exact linkState_reset hs
  | replicate h => exact h.linkState hs

/-- An account whose transactions the bot posted and of which no sale is calculated. -/
structure NothingCalculated (account : String) (s : State) : Prop where
  rows : ∀ t ∈ s.inventoryBook.transactions, t.moves account → AccountRow t
  positive : ∀ t ∈ s.inventoryBook.transactions, t.moves account →
    0 < t.amount ∧ ∀ q, t.originalQuantity = some q → 0 < q
  splits : ∀ t ∈ s.inventoryBook.transactions, t.moves account → BotService.isPurchase t →
    t.checked = false → t.parentId = none
  codes : ∀ p ∈ s.inventoryBook.transactions, ∀ q ∈ s.inventoryBook.transactions,
    p.moves account → q.moves account → BotService.isPurchase p → BotService.isPurchase q →
    p.parentId = none → q.parentId = none → p.purchaseCode = q.purchaseCode → p = q
  unsold : ∀ t ∈ s.inventoryBook.transactions, t.moves account → BotService.isSale t →
    t.checked = false ∧ t.purchaseLog = none ∧
      s.financialBook.getTransactions (.remoteId t.id) = []

/-- The links of an account of which no sale is calculated. -/
theorem NothingCalculated.linkState {a : Account} (h : NothingCalculated a.name s)
    (hwf : WellFormed s.inventoryBook) (ha : s.inventoryBook.getAccount goodAccountId = some a) :
    LinkState goodAccountId a.name s := by
  refine ⟨hwf, ⟨a, ha, rfl⟩, h.rows, h.positive, h.splits, h.codes, ?_⟩
  intro t ht hmoves hkind
  obtain ⟨hopen, hlog, hnone⟩ := h.unsold t ht hmoves hkind
  exact .unsold hopen hlog (congrArg (List.map Transaction.amount) hnone)

/-- **One cost of sales transaction for a calculated sale.** Over calculations, resets and new
    transactions, in exact arithmetic: a sale is checked exactly if it has a purchase log, and
    exactly if one financial transaction carries its id; otherwise none does. That transaction
    has the total cost of the sale, and the log adds up to the amount of the sale. -/
theorem one_cogs_per_sale (hP : P.Exact) {s₀ : State} {a : Account}
    (hwf : WellFormed s₀.inventoryBook)
    (ha : s₀.inventoryBook.getAccount goodAccountId = some a)
    (hstart : NothingCalculated a.name s₀)
    (hsteps : Relation.ReflTransGen (LinkStep P collection goodAccountId a.name) s₀ s) :
    ∀ t ∈ s.inventoryBook.transactions, t.moves a.name → BotService.isSale t →
      (t.checked = true ↔ t.purchaseLog.isSome = true) ∧
      (t.checked = true ↔ ∃ c, s.financialBook.getTransactions (.remoteId t.id) = [c]) ∧
      (t.checked = false → s.financialBook.getTransactions (.remoteId t.id) = []) ∧
      ∀ c, s.financialBook.getTransactions (.remoteId t.id) = [c] →
        t.totalCost = some c.amount ∧
          ∃ entries, t.purchaseLog = some entries ∧ loggedQuantity entries = t.amount := by
  have hs : LinkState goodAccountId a.name s := by
    induction hsteps with
    | refl => exact hstart.linkState hwf ha
    | tail _ hstep ih => exact hstep.linkState hP ih
  intro t ht hmoves hkind
  cases hs.sales t ht hmoves hkind with
  | @calculated cost hallocated hcost hcogs =>
    obtain ⟨hchecked, entries, hlog, hlogged⟩ := hallocated
    obtain ⟨c, hc, hamount⟩ := List.map_eq_singleton_iff.1 hcogs
    have hone : s.financialBook.getTransactions (.remoteId t.id) = [c] := hc
    refine ⟨by simp [hchecked, hlog], by simp [hchecked, hone], by simp [hchecked], ?_⟩
    intro c' hc'
    obtain rfl : c = c' := by simpa [hone] using hc'
    exact ⟨hamount ▸ hcost, entries, hlog, hlogged⟩
  | unsold hopen hlog hcogs =>
    have hnone : s.financialBook.getTransactions (.remoteId t.id) = [] :=
      List.map_eq_nil_iff.1 hcogs
    refine ⟨by simp [hopen, hlog], by simp [hopen, hnone], fun _ => hnone, ?_⟩
    intro c hc
    rw [hnone] at hc
    cases hc

end Steps

theorem Sample.start_nothingCalculated : NothingCalculated "Widgets" Sample.start where
  rows := fun t ht _ => .of_replicated (Sample.start_replicated t ht)
  positive := by decide +kernel
  splits := by decide +kernel
  codes := by decide +kernel
  unsold := by decide +kernel

/-- The links after a calculation of the sample account and after a reset of it. -/
theorem one_cogs_per_sale_sample :
    ∃ s s', LinkStep exactPlatform Sample.collection "a-widgets" "Widgets" Sample.start s ∧
      LinkStep exactPlatform Sample.collection "a-widgets" "Widgets" s s' ∧
      (∀ t ∈ s.inventoryBook.transactions, BotService.isSale t → t.checked = true) ∧
      ∀ t ∈ s'.inventoryBook.transactions, t.moves "Widgets" → BotService.isSale t →
        (t.checked = true ↔ ∃ c, s'.financialBook.getTransactions (.remoteId t.id) = [c]) := by
  have hstep : LinkStep exactPlatform Sample.collection "a-widgets" "Widgets" Sample.start _ :=
    .calculate (.run (Sample.env 9) none Sample.env_fresh)
  refine ⟨_, _, hstep, .reset, by decide +kernel, fun t ht hmoves hkind => ?_⟩
  exact (one_cogs_per_sale exactPlatform_exact Sample.start_wellFormed Sample.getAccount_start
    Sample.start_nothingCalculated ((Relation.ReflTransGen.single hstep).tail .reset) t ht hmoves
    hkind).2.1

end InventoryBot.Menu
