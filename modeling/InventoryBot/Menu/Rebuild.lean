import InventoryBot.Menu.AccountView
import InventoryBot.Menu.CogsLinks
import InventoryBot.Menu.Rows

/-!
# A rebuild is a first calculation

Whatever has been calculated and reset while transactions arrived: a reset leaves both books as if
they had only arrived, and the next calculation is the first one of these books.

* `restored`: the inventory transactions before any calculation of an account.
* `Twin`: the books of a history next to the books in which nothing was calculated.
* `Twin.calculate`, `Twin.reset`, `Twin.arrive`: the steps of a history.
* `rebuild_is_first_calculation`: over any history.
-/

namespace InventoryBot.Menu

open Lib CostOfSalesService

/-! ## The inventory book before any calculation -/

/-- What a transaction contributes to the book before any calculation of the account. -/
def restoredRow (account : String) (t : Transaction) : Option Transaction :=
  if t.moves account then baseOf account t else some t

/-- The transactions of the book before any calculation of the account. -/
def restored (account : String) (l : List Transaction) : List Transaction :=
  l.filterMap (restoredRow account)

theorem restored_append (account : String) (l l' : List Transaction) :
    restored account (l ++ l') = restored account l ++ restored account l' :=
  List.filterMap_append

/-- Transactions that the webhook has posted are as they were. -/
theorem restored_of_replicated {account : String} {l : List Transaction}
    (h : ∀ t ∈ l, t.moves account → Events.Replicated t) : restored account l = l := by
  unfold restored
  conv_rhs => rw [← List.filterMap_some (l := l)]
  refine List.filterMap_congr fun t ht => ?_
  unfold restoredRow
  split
  · rename_i hmoves
    exact baseOf_of_replicated (h t ht hmoves) hmoves
  · rfl

/-- What is split off the account does not count. -/
theorem restored_postAll {newId : ℕ → String} {now : ℕ} {account : String} {l : List Transaction}
    (hparents : ∀ t ∈ l, t.parentId ≠ none) (hmoves : ∀ t ∈ l, t.moves account = true) :
    restored account (Book.postAll newId now l) = [] := by
  have hbase : base account (Book.postAll newId now l) = [] := base_postAll hparents
  have hnone := List.filterMap_eq_nil_iff.1 hbase
  refine List.filterMap_eq_nil_iff.2 fun t ht => ?_
  obtain ⟨k, u, hu, rfl⟩ := Book.mem_postAll ht
  have hmoved : (Book.post (newId k) now u).moves account = true := hmoves u hu
  rw [restoredRow, if_pos hmoved]
  exact hnone _ ht

section Rows

variable {P : Platform} {env : RunEnv} {s s' : State} {goodAccountId account : String}
  {goodAccount : Account} {day : Date} {d : Desk} {closes : ℚ → Prop}

/-- Moves keep what the book was before any calculation. -/
theorem moves_restored {fb : Book} {digits : ℕ} {before : Date} {store : List Transaction}
    (hids : (store.map Transaction.id).Nodup)
    (hrows : ∀ t ∈ store, t.moves account → AccountRow t ∧ OneSided t)
    (h : Moves P env fb digits account before closes (Desk.start store) d) :
    restored account d.stored = restored account store := by
  have hkeeps := h.preserves (I := fun e => (e.stored.map Transaction.id).Nodup ∧
    (∀ t ∈ e.stored, t.moves account → AccountRow t ∧ OneSided t) ∧
    e.stored.map (restoredRow account) = store.map (restoredRow account)) ?_ ⟨hids, hrows, rfl⟩
  · have hmap : ∀ l, restored account l = (l.map (restoredRow account)).filterMap id := by
      intro l
      rw [List.filterMap_map]
      rfl
    rw [hmap, hkeeps.2.2, ← hmap]
  · rintro e e' hmove ⟨hids, hrows, hbase⟩
    refine ⟨hmove.ids ▸ hids, ?_, ?_⟩
    · intro t ht hmoves
      rcases hmove.stored_cases ht with ht | ⟨p, hp, hw⟩
      · exact hrows t ht hmoves
      · obtain ⟨hrow, hone⟩ := hrows p hp (hw.sameIdentity.moves account ▸ hmoves)
        exact ⟨hrow.written hone hw, hone.congr hw.sameIdentity⟩
    · rw [← hbase]
      refine hmove.map_stored hids fun p hp hmoves t hw => ?_
      obtain ⟨hrow, hone⟩ := hrows p hp hmoves
      rw [restoredRow, restoredRow, hw.sameIdentity.moves, if_pos hmoves, if_pos hmoves,
        hw.baseOf hrow.form hone account]

/-- A calculation keeps what the book was before. -/
theorem CalculationFires.restored (hs : LinkState goodAccountId goodAccount.name s)
    (h : CalculationFires P env s goodAccountId day closes goodAccount d s') :
    Menu.restored goodAccount.name s'.inventoryBook.transactions =
      Menu.restored goodAccount.name s.inventoryBook.transactions := by
  have hrows : ∀ t ∈ s.inventoryBook.transactions, t.moves goodAccount.name →
      AccountRow t ∧ OneSided t := fun t ht hmoves => ⟨hs.rows t ht hmoves,
    hs.wellFormed.oneSided h.passed.account h.passed.notIncoming h.passed.notOutgoing ht hmoves⟩
  have hcreated := Moves.created_moves h.moves (by simp [Desk.start])
  rw [h.inventory, restored_append, restored_postAll h.created_parent hcreated, List.append_nil]
  exact moves_restored hs.wellFormed.ids hrows h.moves

/-- What a reset leaves of the book is what it was before. -/
theorem ResetDone.restored (hs : LinkState goodAccountId goodAccount.name s)
    (h : ResetDone P s goodAccountId goodAccount s') :
    s'.inventoryBook.transactions = Menu.restored goodAccount.name s.inventoryBook.transactions := by
  unfold Menu.restored
  rw [h.inventory, ← List.filterMap_eq_map, List.filterMap_filter]
  refine List.filterMap_congr fun t ht => ?_
  unfold restoredRow
  cases hmoves : t.moves goodAccount.name with
  | false => simp [resetRow, hmoves]
  | true =>
    have hrow := hs.rows t ht hmoves
    cases hparent : t.parentId with
    | none =>
      have hreset := resetRow_eq_baseRow (P := P) hrow hparent hmoves
      simp [resetTrash_eq hrow, hparent, baseOf, hmoves, hreset]
    | some parent => simp [resetTrash_eq hrow, hparent, baseOf]

end Rows

/-! ## The financial book before any calculation -/

/-- A financial transaction carries the id of a sale of the account. -/
def costsSale (account : String) (l : List Transaction) (c : Transaction) : Bool :=
  l.any fun t => t.moves account && BotService.isSale t && c.remoteIds.contains t.id

theorem costsSale_iff {account : String} {l : List Transaction} {c : Transaction} :
    costsSale account l c = true ↔
      ∃ t ∈ l, t.moves account ∧ BotService.isSale t ∧ t.id ∈ c.remoteIds := by
  simp [costsSale, and_assoc]

/-- The financial transactions that are not costs of the account. -/
def uncosted (account : String) (s : State) : List Transaction :=
  s.financialBook.transactions.filter fun c => !costsSale account s.inventoryBook.transactions c

section Costs

variable {P : Platform} {env : RunEnv} {s s' : State} {goodAccountId account : String}
  {goodAccount : Account} {day : Date} {d : Desk} {closes : ℚ → Prop}

/-- A calculation neither adds a sale nor drops one. -/
theorem CalculationFires.costsSale (hs : LinkState goodAccountId goodAccount.name s)
    (h : CalculationFires P env s goodAccountId day closes goodAccount d s') (c : Transaction) :
    Menu.costsSale goodAccount.name s'.inventoryBook.transactions c =
      Menu.costsSale goodAccount.name s.inventoryBook.transactions c := by
  rw [Bool.eq_iff_iff, costsSale_iff, costsSale_iff]
  constructor
  · rintro ⟨t', ht', hmoves, hkind, hid⟩
    rcases h.mem_cases ht' with ⟨-, t, ht, htrace⟩ | ⟨k, u, hu, rfl, p, hp, hsplit, hpurchase⟩
    · have hsame := sameIdentity_of_trace htrace
      exact ⟨t, ht, hsame.moves _ ▸ hmoves, hsame.isSale ▸ hkind, hsame.id ▸ hid⟩
    · -- what is split off is debited as the purchase is
      have hone := hs.wellFormed.oneSided h.passed.account h.passed.notIncoming
        h.passed.notOutgoing hp ((hsplit.moves goodAccount.name).symm.trans hmoves)
      obtain ⟨-, r, hr, htype⟩ := isSale_iff.1 hkind
      exact absurd htype (hone hpurchase r (hsplit.debitAccount.symm.trans hr)).2
  · rintro ⟨t, ht, hmoves, hkind, hid⟩
    obtain ⟨t', ht', hsame⟩ := h.forward hs.wellFormed ht
    exact ⟨t', ht', (hsame.moves _).trans hmoves, hsame.isSale.trans hkind, hsame.id ▸ hid⟩

/-- What a calculation posts are costs of the account. -/
theorem CalculationFires.uncosted (hP : P.Exact) (hs : LinkState goodAccountId goodAccount.name s)
    (h : CalculationFires P env s goodAccountId day (· = 0) goodAccount d s') :
    Menu.uncosted goodAccount.name s' = Menu.uncosted goodAccount.name s := by
  have hdesk : SalesDesk goodAccount.name (BotService.getBeforeDateIsoString day)
      (Desk.start s.inventoryBook.transactions) :=
    salesDesk_start hs.wellFormed h.passed.account h.passed.notIncoming h.passed.notOutgoing
      fun t hin _ => (hs.positive t hin.stored hin.moves).1
  have hposted := h.moves.postedForAllocated (hP.round_zero _) hdesk (by simp [PostedForAllocated,
    Desk.start])
  have hcosts : (Book.postAll env.financialId env.now d.posted).filter (fun c =>
      !Menu.costsSale goodAccount.name s.inventoryBook.transactions c) = [] := by
    refine List.filter_eq_nil_iff.2 fun c hc => ?_
    obtain ⟨k, u, hu, rfl⟩ := Book.mem_postAll hc
    obtain ⟨t, ht, hmoves, hkind, -, hid, -⟩ := hposted u hu
    rw [← h.costsSale hs, Bool.not_eq_true', Bool.not_eq_false, costsSale_iff]
    refine ⟨t, h.inventory ▸ List.mem_append_left _ ht, hmoves, hkind, ?_⟩
    show t.id ∈ u.remoteIds
    rw [hid]
    exact List.mem_singleton_self _
  unfold Menu.uncosted
  simp only [h.costsSale hs]
  rw [h.financial, List.filter_append, hcosts, List.append_nil]

/-- What the loop of a reset has queued is the cost of one of the transactions. -/
theorem foldlM_resetTransaction_queued {fb : Book} {l : List Transaction}
    {processor processor' : ResetCostOfSalesProcessor} {k : String}
    (h : l.foldlM (resetTransaction P fb) processor = .ok processor')
    (hnew : k ∉ processor.financialBookTransactionsToTrashMap.keys)
    (hk : k ∈ processor'.financialBookTransactionsToTrashMap.keys) :
    ∃ t ∈ l, ∃ c, resetCogs fb t = some c ∧ c.id = k := by
  induction l generalizing processor with
  | nil =>
    cases h
    exact absurd hk hnew
  | cons tx l ih =>
    rw [List.foldlM_cons] at h
    obtain ⟨processor₁, htx, h⟩ := bind_eq_ok.1 h
    by_cases hone : k ∈ processor₁.financialBookTransactionsToTrashMap.keys
    · rw [(resetTransaction_queues htx).2.2] at hone
      rcases mem_keys_enqueue.1 hone with ⟨c, hc, rfl⟩ | hold
      · exact ⟨tx, List.mem_cons_self, c, hc, rfl⟩
      · exact absurd hold hnew
    · obtain ⟨t, ht, hrest⟩ := ih h hone
      exact ⟨t, List.mem_cons_of_mem _ ht, hrest⟩

theorem resetCogs_some {fb : Book} {t c : Transaction} (h : resetCogs fb t = some c) :
    t.purchaseLog.isSome ∧ ∃ c₀ ∈ fb.getTransactions (.remoteId t.id),
      c = { c₀ with checked := false } := by
  unfold resetCogs at h
  split at h
  · rename_i hlog
    obtain ⟨c₀, hc₀, rfl⟩ := Option.map_eq_some_iff.1 h
    exact ⟨hlog.2, c₀, List.mem_of_mem_head? hc₀, rfl⟩
  · cases h

theorem RowForm.sale_of_log {t : Transaction} (h : RowForm t) (hlog : t.purchaseLog.isSome) :
    BotService.isSale t := by
  cases h with
  | sale hkind => exact hkind
  | purchase _ _ hnone => simp [hnone] at hlog
  | creditNote _ _ _ hnone => simp [hnone] at hlog
  | split _ _ _ hnone => simp [hnone] at hlog

/-- The cost that a reset finds for a sale with a cost. -/
theorem SaleLinked.resetCogs {fb : Book} {t c : Transaction} (h : SaleLinked fb.transactions t)
    (hagent : t.agentId = some "inventory-bot") (hc : c ∈ fb.transactions)
    (hid : t.id ∈ c.remoteIds) : Menu.resetCogs fb t = some { c with checked := false } := by
  have hselected : c ∈ fb.transactions.filter (Query.remoteId t.id).selects :=
    List.mem_filter.2 ⟨hc, by simpa [Query.selects] using hid⟩
  cases h with
  | unsold _ _ hcogs =>
    rw [List.map_eq_nil_iff.1 hcogs] at hselected
    cases hselected
  | calculated hallocated _ hcogs =>
    obtain ⟨entries, hlog, -⟩ := hallocated.2
    obtain ⟨c', hone, -⟩ := List.map_eq_singleton_iff.1 hcogs
    rw [hone, List.mem_singleton] at hselected
    unfold Menu.resetCogs
    rw [if_pos ⟨hagent, by simp [hlog]⟩, Book.getTransactions, hone, hselected]
    rfl

/-- A reset trashes the costs of the account and nothing else. -/
theorem ResetDone.uncosted (hs : LinkState goodAccountId goodAccount.name s)
    (hids : (s.financialBook.transactions.map Transaction.id).Nodup)
    (h : ResetDone P s goodAccountId goodAccount s') :
    s'.financialBook.transactions = Menu.uncosted goodAccount.name s := by
  obtain ⟨processor, hloop, hfinancial⟩ := h.loop
  obtain ⟨-, -, hkeyed⟩ := foldlM_resetTransaction_keyed hloop Book.keyedById_empty
    Book.keyedById_empty Book.keyedById_empty
  rw [hfinancial]
  refine List.filter_congr fun c hc => congrArg (! ·) ?_
  rw [Bool.eq_iff_iff, Book.any_id_values hkeyed, costsSale_iff]
  constructor
  · intro hqueued
    obtain ⟨t, ht, c', hc', hid⟩ := foldlM_resetTransaction_queued hloop (by simp) hqueued
    obtain ⟨ht, hmoves⟩ := List.mem_filter.1 ht
    obtain ⟨hlog, c₀, hc₀, rfl⟩ := resetCogs_some hc'
    obtain ⟨hstored, hlinked⟩ := List.mem_filter.1 hc₀
    obtain rfl : c₀ = c := List.inj_on_of_nodup_map hids hstored hc hid
    refine ⟨t, ht, hmoves, (hs.rows t ht hmoves).form.sale_of_log hlog, ?_⟩
    simpa [Query.selects] using hlinked
  · rintro ⟨t, ht, hmoves, hkind, hid⟩
    have hfound := (hs.sales t ht hmoves hkind).resetCogs (hs.rows t ht hmoves).agent hc hid
    have hqueued := (foldlM_resetTransaction_cogs hloop).2 t (List.mem_filter.2 ⟨ht, hmoves⟩) _
      hfound
    exact hqueued

end Costs

/-! ## Histories -/

/-- A user has posted `new` in the financial book, and the webhook has posted the copy `t` of one
    of these transactions. -/
structure Arrives (goodAccountId account : String) (t : Transaction) (new : List Transaction)
    (s s' : State) : Prop where
  replicates : Replicates goodAccountId account s t s'
  info : s'.inventoryBook.info = s.inventoryBook.info
  financial : s'.financialBook.transactions = s.financialBook.transactions ++ new
  financialIds : (s'.financialBook.transactions.map Transaction.id).Nodup

/-- The account and what a calculation reads next to the transactions are the same, and the account
    of the cost of goods sold exists. -/
structure SameSetup (goodAccountId : String) (s b : State) : Prop where
  account : ∃ a a', b.inventoryBook.getAccount goodAccountId = some a ∧
    s.inventoryBook.getAccount goodAccountId = some a' ∧ SameAccount a a'
  info : s.inventoryBook.info = b.inventoryBook.info
  accounts : s.financialBook.accounts = b.financialBook.accounts
  costOfSales : b.financialBook.getAccount cogsAccount ≠ none

/-- A calculation finds the account of the cost of goods sold. -/
theorem SameSetup.found {goodAccountId : String} {s b : State} (h : SameSetup goodAccountId s b) :
    s.financialBook.getAccount cogsAccount ≠ none := by
  unfold Book.getAccount
  rw [h.accounts]
  exact h.costOfSales

/-- A history of an account next to the books in which nothing is calculated: a calculation or a
    reset changes the former only, new transactions arrive in both. -/
inductive RebuildStep (P : Platform) (collection : Option (List BookInfo))
    (goodAccountId account : String) : State × State → State × State → Prop
  | calculate {s s' b : State} (h : Calculates P collection goodAccountId s s') :
      RebuildStep P collection goodAccountId account (s, b) (s', b)
  | reset {s b : State} : RebuildStep P collection goodAccountId account (s, b)
      ((resetCostOfSalesForAccount P collection s goodAccountId).1, b)
  | arrive {s s' b b' : State} {t : Transaction} {new : List Transaction}
      (h : Arrives goodAccountId account t new s s')
      (hbare : Arrives goodAccountId account t new b b')
      (hsetup : SameSetup goodAccountId s' b') :
      RebuildStep P collection goodAccountId account (s, b) (s', b')

/-- The books of a history and the books in which nothing was calculated. -/
structure Twin (goodAccountId account : String) (s b : State) : Prop where
  links : LinkState goodAccountId account s
  financialIds : (s.financialBook.transactions.map Transaction.id).Nodup
  setup : SameSetup goodAccountId s b
  posted : ∀ t ∈ b.inventoryBook.transactions, t.moves account → Events.Replicated t
  inventory : restored account s.inventoryBook.transactions = b.inventoryBook.transactions
  financial : uncosted account s = b.financialBook.transactions

section Histories

variable {P : Platform} {collection : Option (List BookInfo)} {s s' b b' : State}
  {goodAccountId account : String}

/-- A completed calculation of a linked account changes nothing, resets it, or closes its sales. -/
theorem LinkState.calculate_cases (hP : P.Exact) (hs : LinkState goodAccountId account s)
    (hcost : s.financialBook.getAccount cogsAccount ≠ none)
    (h : Calculates P collection goodAccountId s s') :
    s' = s ∨
      (∃ goodAccount, goodAccount.name = account ∧ ResetDone P s goodAccountId goodAccount s') ∨
      ∃ env day goodAccount d, goodAccount.name = account ∧ RunEnv.Fresh env s ∧
        CalculationFires P env s goodAccountId day (· = 0) goodAccount d s' := by
  obtain ⟨a, ha, rfl⟩ := hs.found
  cases h with
  | run env toDate hfresh =>
    rcases Menu.calculate_cases P collection env s goodAccountId toDate with
      hsame | hsame | ⟨-, hreset⟩ | ⟨goodAccount, sales, processor, hplan, -⟩
    · exact Or.inl hsame
    · exact Or.inl (hsame.trans (withCostOfSalesAccount_of_found hcost))
    · rw [hreset]
      rcases reset_cases (P := P) collection goodAccountId hs.wellFormed.ids with
        ⟨hsame, -⟩ | ⟨-, goodAccount, hdone⟩
      · exact Or.inl hsame
      · obtain rfl : a = goodAccount := Option.some.inj (ha.symm.trans hdone.account)
        exact Or.inr (Or.inl ⟨a, rfl, hdone⟩)
    · obtain ⟨hpassed, -⟩ := planCalculation_fire hplan
      obtain rfl : a = goodAccount := Option.some.inj (ha.symm.trans hpassed.account)
      obtain ⟨hpos, hcovered⟩ := hs.covered hP rfl hpassed
      obtain ⟨d, hfires⟩ := calculation_fires (· = 0) hs.wellFormed hfresh hplan
        fun _ _ hnotes => hcovered.enough hP hpos hnotes
      exact Or.inr (Or.inr ⟨env, _, a, d, rfl, hfresh, hfires⟩)

/-- A reset makes the books of a history those in which nothing was calculated. -/
theorem Twin.reset {goodAccount : Account} (ht : Twin goodAccountId goodAccount.name s b)
    (h : ResetDone P s goodAccountId goodAccount s') :
    s'.inventoryBook.transactions = b.inventoryBook.transactions ∧
      s'.financialBook.transactions = b.financialBook.transactions ∧
      Twin goodAccountId goodAccount.name s' b := by
  have hinventory := (h.restored ht.links).trans ht.inventory
  have hfinancial := (h.uncosted ht.links ht.financialIds).trans ht.financial
  obtain ⟨processor, -, hbook⟩ := h.loop
  have hlinks := h.linkState ht.links
  have hposted : ∀ t ∈ s'.inventoryBook.transactions, t.moves goodAccount.name →
      Events.Replicated t := fun t hmem => ht.posted t (hinventory ▸ hmem)
  refine ⟨hinventory, hfinancial, hlinks, ?_, ?_, ht.posted, ?_, ?_⟩
  · rw [h.uncosted ht.links ht.financialIds]
    exact ht.financialIds.sublist (List.filter_sublist.map _)
  · obtain ⟨a, a', ha, ha', hsame⟩ := ht.setup.account
    obtain rfl : a' = goodAccount := Option.some.inj (ha'.symm.trans h.account)
    refine ⟨⟨a, _, ha, h.cleared, hsame.trans (clearAccount_same a')⟩, h.info.trans ht.setup.info,
      ?_, ht.setup.costOfSales⟩
    rw [hbook]
    exact ht.setup.accounts
  · rw [restored_of_replicated hposted, hinventory]
  · -- a sale that is not calculated has no cost
    rw [← hfinancial]
    refine List.filter_eq_self.2 fun c hc => ?_
    rw [Bool.not_eq_true', ← Bool.not_eq_true, costsSale_iff]
    rintro ⟨t, hmem, hmoves, hkind, hid⟩
    have hopen : t.checked = false := by
      cases hposted t hmem hmoves <;> rfl
    have hnone := ((hlinks.sales t hmem hmoves hkind).of_unchecked hopen).2
    have hselected := List.filter_eq_nil_iff.1 (List.map_eq_nil_iff.1 hnone) c hc
    exact hselected (by simpa [Query.selects] using hid)

/-- A calculation goes on with the history. -/
theorem Twin.calculate (hP : P.Exact) (ht : Twin goodAccountId account s b)
    (h : Calculates P collection goodAccountId s s') : Twin goodAccountId account s' b := by
  rcases ht.links.calculate_cases hP ht.setup.found h with
    rfl | ⟨goodAccount, rfl, hdone⟩ | ⟨env, day, goodAccount, d, rfl, hfresh, hfires⟩
  · exact ht
  · exact (ht.reset hdone).2.2
  · obtain ⟨a', ha', hsame', -⟩ := hfires.account
    refine ⟨hfires.linkState hP ht.links hfresh, ?_, ?_, ht.posted, ?_, ?_⟩
    · rw [hfires.financial]
      exact Book.nodup_append_postAll ht.financialIds hfresh.financialIds
    · obtain ⟨a, a₀, ha, ha₀, hsame⟩ := ht.setup.account
      obtain rfl : a₀ = goodAccount := Option.some.inj (ha₀.symm.trans hfires.passed.account)
      have haccounts := hfires.financialAccounts
      rw [costOfSalesBook, createCostOfSalesAccount_of_found ht.setup.found] at haccounts
      exact ⟨⟨a, a', ha, ha', hsame.trans hsame'⟩, hfires.info.trans ht.setup.info,
        haccounts.trans ht.setup.accounts, ht.setup.costOfSales⟩
    · exact (hfires.restored ht.links).trans ht.inventory
    · exact (hfires.uncosted hP ht.links).trans ht.financial

/-- Transactions arrive in both. -/
theorem Twin.arrive {t : Transaction} {new : List Transaction} (ht : Twin goodAccountId account s b)
    (h : Arrives goodAccountId account t new s s') (hbare : Arrives goodAccountId account t new b b')
    (hsetup : SameSetup goodAccountId s' b') : Twin goodAccountId account s' b' := by
  have hreplicated : ∀ u ∈ [t], u.moves account → Events.Replicated u := by
    intro u hu _
    rw [List.mem_singleton.1 hu]
    exact h.replicates.replicated
  refine ⟨h.replicates.linkState ht.links, h.financialIds, hsetup, ?_, ?_, ?_⟩
  · intro u hu
    rw [hbare.replicates.inventory, List.mem_append] at hu
    exact hu.elim (ht.posted u) (hreplicated u)
  · rw [h.replicates.inventory, restored_append, ht.inventory, restored_of_replicated hreplicated,
      hbare.replicates.inventory]
  · -- what is new costs no sale, and what was there does not cost the new one
    have hold : ∀ c ∈ s'.financialBook.transactions,
        costsSale account s'.inventoryBook.transactions c =
          costsSale account s.inventoryBook.transactions c := by
      intro c hc
      have hid : c.remoteIds.contains t.id = false := by simpa using h.replicates.unlinked c hc
      rw [costsSale, h.replicates.inventory, List.any_append, List.any_cons, hid]
      simp [costsSale]
    have hnew : ∀ c ∈ new, costsSale account s.inventoryBook.transactions c = false := by
      intro c hc
      rw [← Bool.not_eq_true, costsSale_iff]
      rintro ⟨u, hu, hmoves, hkind, hid⟩
      have hlinked := h.replicates.linked u hu hmoves hkind
      unfold Book.getTransactions at hlinked
      rw [h.financial, List.filter_append, List.append_right_eq_self, List.filter_eq_nil_iff]
        at hlinked
      exact hlinked c hc (by simpa [Query.selects] using hid)
    have hall : new.filter (fun c => !costsSale account s.inventoryBook.transactions c) = new :=
      List.filter_eq_self.2 fun c hc => by simp [hnew c hc]
    have hkept : uncosted account s' = s'.financialBook.transactions.filter fun c =>
        !costsSale account s.inventoryBook.transactions c :=
      List.filter_congr fun c hc => by rw [hold c hc]
    rw [hkept, h.financial, List.filter_append, hall, hbare.financial, ← ht.financial]
    rfl

/-- Every history keeps the two next to each other. -/
theorem twin_of_steps (hP : P.Exact) {r : State × State}
    (hsteps : Relation.ReflTransGen (RebuildStep P collection goodAccountId account) r (s', b'))
    (ht : Twin goodAccountId account r.1 r.2) : Twin goodAccountId account s' b' := by
  have hkept : ∀ q, Relation.ReflTransGen (RebuildStep P collection goodAccountId account) r q →
      Twin goodAccountId account q.1 q.2 := by
    intro q hq
    induction hq with
    | refl => exact ht
    | tail _ hstep ih =>
      cases hstep with
      | calculate h => exact ih.calculate hP h
      | @reset s b =>
        rcases reset_cases (P := P) collection goodAccountId ih.links.wellFormed.ids with
          ⟨hsame, -⟩ | ⟨-, goodAccount, hdone⟩
        · show Twin goodAccountId account
            (resetCostOfSalesForAccount P collection s goodAccountId).1 b
          rw [hsame]
          exact ih
        · obtain ⟨a, ha, rfl⟩ := ih.links.found
          obtain rfl : a = goodAccount := Option.some.inj (ha.symm.trans hdone.account)
          exact (ih.reset hdone).2.2
      | arrive h hbare hsetup => exact ih.arrive h hbare hsetup
  exact hkept (s', b') hsteps

/-- An account as the webhook has posted it, of which nothing is calculated. -/
theorem twin_start {a : Account} (hwf : WellFormed s.inventoryBook)
    (ha : s.inventoryBook.getAccount goodAccountId = some a)
    (hcost : s.financialBook.getAccount cogsAccount ≠ none) (hstart : NothingCalculated a.name s)
    (hposted : ∀ t ∈ s.inventoryBook.transactions, t.moves a.name → Events.Replicated t)
    (hids : (s.financialBook.transactions.map Transaction.id).Nodup) :
    Twin goodAccountId a.name s s where
  links := hstart.linkState hwf ha
  financialIds := hids
  setup := ⟨⟨a, a, ha, ha, .refl a⟩, rfl, rfl, hcost⟩
  posted := hposted
  inventory := restored_of_replicated hposted
  financial := by
    refine List.filter_eq_self.2 fun c hc => ?_
    rw [Bool.not_eq_true', ← Bool.not_eq_true, costsSale_iff]
    rintro ⟨t, ht, hmoves, hkind, hid⟩
    obtain ⟨-, -, hnone⟩ := hstart.unsold t ht hmoves hkind
    exact List.filter_eq_nil_iff.1 hnone c hc (by simpa [Query.selects] using hid)

/-- A reset takes the rebuild flag away. -/
theorem needsRebuild_clearAccount (a : Account) :
    GoodAccount.needsRebuild (clearAccount a) = false := by
  have hget : (clearAccount a).properties.get needsRebuildProp = none := by
    unfold clearAccount GoodAccount.setCOGSCalculationDate GoodAccount.clearNeedsRebuild
    rw [OrderedMap.get_set_of_ne _ _ (by decide), OrderedMap.get_erase]
    exact if_pos rfl
  rw [GoodAccount.needsRebuild, hget]
  rfl

/-- **A rebuild is a first calculation.** From an account as the webhook has posted it, with positive
    amounts and a purchase code of its own for every purchase, where the account of the cost of goods
    sold exists, in exact arithmetic, over any history of calculations, resets and arriving
    transactions: a reset that is carried out leaves exactly the transactions of both books in which
    the same transactions arrived and nothing was ever calculated or reset. A calculation after it
    ends and writes as the first calculation of those books does. -/
theorem rebuild_is_first_calculation (hP : P.Exact) {s₀ : State} {a : Account}
    (hwf : WellFormed s₀.inventoryBook)
    (ha : s₀.inventoryBook.getAccount goodAccountId = some a)
    (hcost : s₀.financialBook.getAccount cogsAccount ≠ none)
    (hstart : NothingCalculated a.name s₀)
    (hposted : ∀ t ∈ s₀.inventoryBook.transactions, t.moves a.name → Events.Replicated t)
    (hids : (s₀.financialBook.transactions.map Transaction.id).Nodup)
    (hsteps : Relation.ReflTransGen (RebuildStep P collection goodAccountId a.name)
      (s₀, s₀) (s, b))
    (hreset : resetCostOfSalesForAccount P collection s goodAccountId =
      (s', .returned .resetingAsync)) :
    s'.inventoryBook.transactions = b.inventoryBook.transactions ∧
      s'.financialBook.transactions = b.financialBook.transactions ∧
      ∀ env toDate, (∀ a', b.inventoryBook.getAccount goodAccountId = some a' →
          GoodAccount.needsRebuild a' = false) →
        SameResult (calculateCostOfSalesForAccount P collection env b goodAccountId toDate)
          (calculateCostOfSalesForAccount P collection env s' goodAccountId toDate) := by
  have ht := twin_of_steps hP hsteps (twin_start hwf ha hcost hstart hposted hids)
  rcases reset_cases (P := P) collection goodAccountId ht.links.wellFormed.ids with
    ⟨-, hnot⟩ | ⟨-, goodAccount, hdone⟩
  · rw [hreset] at hnot
    exact absurd rfl hnot
  · obtain ⟨a₁, ha₁, hname⟩ := ht.links.found
    obtain rfl : a₁ = goodAccount := Option.some.inj (ha₁.symm.trans hdone.account)
    rw [hreset] at hdone
    rw [← hname] at ht
    obtain ⟨hinventory, hfinancial, ht'⟩ := ht.reset hdone
    refine ⟨hinventory, hfinancial, fun env toDate hcalm => ?_⟩
    obtain ⟨b₁, a', hb₁, ha', hsame⟩ := ht'.setup.account
    refine calculation_transactions ht'.setup.info ht'.setup.accounts hinventory hfinancial hb₁ ha'
      hsame (hcalm b₁ hb₁) ?_ toDate
    obtain rfl : clearAccount a₁ = a' := Option.some.inj (hdone.cleared.symm.trans ha')
    exact needsRebuild_clearAccount a₁

end Histories

/-- The sample account, with an account of the cost of goods sold. -/
def Sample.opened : State := withCostOfSalesAccount (Sample.env 9) Sample.start

/-- The sample account after an earlier purchase has arrived late. -/
def Sample.late (s : State) : State :=
  { s with inventoryBook := { s.inventoryBook with
      transactions := s.inventoryBook.transactions ++ [Sample.purchase "3" "P3" 1 5 40] } }

/-- The books after a calculation of the sample account. -/
def Sample.sold : State :=
  (calculateCostOfSalesForAccount exactPlatform Sample.collection (Sample.env 9) Sample.opened
    Sample.good.id none).1

theorem Sample.late_arrives {s : State} (hwf : WellFormed (Sample.late s).inventoryBook)
    (hfound : ∃ a, s.inventoryBook.getAccount Sample.good.id = some a ∧ a.name = "Widgets")
    (hcode : ∀ p ∈ s.inventoryBook.transactions, p.purchaseCode ≠ some "P3")
    (hunlinked : ∀ c ∈ s.financialBook.transactions, "3" ∉ c.remoteIds)
    (hids : (s.financialBook.transactions.map Transaction.id).Nodup) :
    Arrives Sample.good.id "Widgets" (Sample.purchase "3" "P3" 1 5 40) [] s (Sample.late s) where
  replicates :=
    { replicated := Sample.purchase_replicated _ _ _ _ (by decide)
      positive := by decide
      inventory := rfl
      wellFormed := hwf
      found := hfound
      code := fun _ _ p hp _ _ _ => hcode p hp
      unlinked := hunlinked
      linked := fun _ _ _ _ => rfl }
  info := rfl
  financial := (List.append_nil _).symm
  financialIds := hids

/-- A purchase that arrives late, and the rebuild of the account. -/
theorem rebuild_is_first_calculation_sample :
    ∃ s, resetCostOfSalesForAccount exactPlatform Sample.collection (Sample.late Sample.sold)
        Sample.good.id = (s, .returned .resetingAsync) ∧
      s.inventoryBook.transactions = (Sample.late Sample.opened).inventoryBook.transactions ∧
      SameResult (calculateCostOfSalesForAccount exactPlatform Sample.collection (Sample.env 12)
          (Sample.late Sample.opened) Sample.good.id none)
        (calculateCostOfSalesForAccount exactPlatform Sample.collection (Sample.env 12) s
          Sample.good.id none) := by
  have hfresh : (Sample.env 9).Fresh Sample.opened :=
    ⟨Sample.env_fresh.uuids, Sample.env_fresh.inventoryIds, Sample.env_fresh.financialIds⟩
  have hwf : WellFormed Sample.opened.inventoryBook := Sample.start_wellFormed
  have hopened : Sample.opened.inventoryBook.getAccount Sample.good.id = some Sample.good :=
    Sample.getAccount_start
  have hcost : Sample.opened.financialBook.getAccount cogsAccount ≠ none :=
    getAccount_createCostOfSalesAccount _ _
  have hnothing : NothingCalculated Sample.good.name Sample.opened :=
    { Sample.start_nothingCalculated with }
  have hruns : Calculates exactPlatform Sample.collection Sample.good.id Sample.opened Sample.sold :=
    .run (Sample.env 9) none hfresh
  have hstart : Twin Sample.good.id Sample.good.name Sample.opened Sample.opened :=
    twin_start hwf hopened hcost hnothing
      (fun t ht _ => Sample.start_replicated t ht) (by decide +kernel)
  have hsetup := (hstart.calculate exactPlatform_exact hruns).setup
  have hcalculated : RebuildStep exactPlatform Sample.collection Sample.good.id Sample.good.name
      (Sample.opened, Sample.opened) (Sample.sold, Sample.opened) := .calculate hruns
  have hlate : RebuildStep exactPlatform Sample.collection Sample.good.id Sample.good.name
      (Sample.sold, Sample.opened) (Sample.late Sample.sold, Sample.late Sample.opened) :=
    .arrive
      (Sample.late_arrives ⟨by decide +kernel, by decide +kernel⟩ (by decide +kernel)
        (by decide +kernel) (by decide +kernel) (by decide +kernel))
      (Sample.late_arrives ⟨by decide +kernel, by decide +kernel⟩ (by decide +kernel)
        (by decide +kernel) (by decide +kernel) (by decide +kernel))
      ⟨hsetup.account, hsetup.info, hsetup.accounts, hcost⟩
  have houtcome : (resetCostOfSalesForAccount exactPlatform Sample.collection
      (Sample.late Sample.sold) Sample.good.id).2 = .returned .resetingAsync := by
    decide +kernel
  obtain ⟨hinventory, -, hcalculation⟩ := rebuild_is_first_calculation exactPlatform_exact
    hwf hopened hcost hnothing
    (fun t ht _ => Sample.start_replicated t ht) (by decide +kernel)
    ((Relation.ReflTransGen.single hcalculated).tail hlate) (Prod.ext rfl houtcome)
  exact ⟨_, Prod.ext rfl houtcome, hinventory, hcalculation (Sample.env 12) none (by decide +kernel)⟩

end InventoryBot.Menu
