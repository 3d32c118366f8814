import InventoryBot.Menu.OtherIds
import InventoryBot.Menu.QuantityGuard
import InventoryBot.Menu.ResetRoundTrip
import InventoryBot.Menu.Splits

/-!
# A calculation that is run again after a failed batch

The three batches of a calculation are calls of their own. When one of them throws, the next
run starts from what the earlier ones have written.

* `planCalculation_otherIds`: run again on the same books, a calculation queues the same.
* `retry_safe_iff`: the failed calls after which a second run completes the first one.
-/

namespace InventoryBot.Menu

open Lib CostOfSalesService

section Plan

variable {P : Platform} {collection : Option (List BookInfo)} {env env' : RunEnv} {s : State}
  {goodAccountId : String} {toDate : Option Date} {goodAccount : Account}
  {sales : List Transaction} {processor : CalculateCostOfSalesProcessor}

/-- The credit notes of a listing queue splits under their numbers. -/
theorem named_of_notes (env : RunEnv) {day : Date}
    (hids : (s.inventoryBook.transactions.map Transaction.id).Nodup)
    (hkind : ∀ t ∈ s.inventoryBook.transactions, t.moves goodAccount.name → OneKind t)
    {purchases : OrderedMap (Option String) Transaction}
    (h : processCreditNotes P
      (listingOf P s.inventoryBook goodAccount day).goodAccountCreditNoteTransactionsMap.entries
      (listingOf P s.inventoryBook goodAccount day).goodAccountPurchaseTransactionsMap {} =
        .ok (.done purchases processor)) :
    Named env (creditNoteNumbers s.inventoryBook) processor := by
  obtain ⟨d, -, hd, -⟩ := processCreditNotes_moves s.financialBook 0 (fun _ => True) h
    (notesInvariant_start P env day hids hkind)
  exact hd.coherent.createKeys

/-- Run again on the same books, a calculation queues the same under other generated ids. -/
theorem planCalculation_otherIds (hwf : WellFormed s.inventoryBook)
    (hfresh : Book.FreshIds env.uuid (creditNoteNumbers s.inventoryBook))
    (hfresh' : Book.FreshIds env'.uuid (creditNoteNumbers s.inventoryBook))
    (hcogs : env'.cogsAccountId = env.cogsAccountId)
    (hday : toDate.getD env'.today = toDate.getD env.today)
    (h : planCalculation P collection env s goodAccountId toDate =
      .ok (.fire goodAccount sales processor)) :
    ∃ processor', planCalculation P collection env' s goodAccountId toDate =
        .ok (.fire goodAccount sales processor') ∧
      SameQueues env env' (creditNoteNumbers s.inventoryBook) processor processor' := by
  obtain ⟨hpassed, hlisting⟩ := planCalculation_fire h
  have hkind : ∀ t ∈ s.inventoryBook.transactions, t.moves goodAccount.name → OneKind t :=
    fun t ht hm => hwf.oneKind hpassed.account hpassed.notIncoming hpassed.notOutgoing ht hm
  obtain ⟨-, rfl, purchases, processor₁, ps, hnotes, hsales⟩ := planListing_fire hlisting
  have hstart : SameQueues env env' (creditNoteNumbers s.inventoryBook) processor₁ processor₁ :=
    ⟨rfl, rfl, rfl, rfl, named_of_notes env hwf.ids hkind hnotes,
      named_of_notes env' hwf.ids hkind hnotes⟩
  have hbook : costOfSalesBook env' s = costOfSalesBook env s :=
    createCostOfSalesAccount_congr hcogs s.financialBook
  have hagree : Agree _ (processSales P env (costOfSalesBook env s) s.inventoryBook _ _ processor₁)
      (processSales P env' (costOfSalesBook env s) s.inventoryBook _ _ processor₁) :=
    processSales_agree hfresh hfresh' hcogs (BotService.sortFIFO P (listingOf P s.inventoryBook
      goodAccount (toDate.getD env.today)).goodAccountSaleTransactions)
      (BotService.sortFIFO P purchases.values) hstart
  rw [hsales] at hagree
  obtain ⟨result, hsales', hrel⟩ := hagree.of_ok
  cases hrel with
  | some hsame =>
    rename_i r
    refine ⟨r.2, ?_, hsame.2⟩
    rw [planCalculation_passed
      (openAccount_of_resolves hpassed.account (planCalculation_resolves h)) (hday ▸ hpassed), hday]
    unfold planListing
    rw [hnotes]
    show (processSales P env' (costOfSalesBook env' s) s.inventoryBook _ _ processor₁ >>= _) = _
    rw [hbook, hsales']
    rfl

/-- With the account of the cost of goods sold in its book a run fires as it does without it. -/
theorem planCalculation_created (hcogs : env'.cogsAccountId = env.cogsAccountId)
    (h : planCalculation P collection env' s goodAccountId toDate =
      .ok (.fire goodAccount sales processor)) :
    planCalculation P collection env' (withCostOfSalesAccount env s) goodAccountId toDate =
      .ok (.fire goodAccount sales processor) := by
  obtain ⟨hpassed, hlisting⟩ := planCalculation_fire h
  have hopen : openAccount collection (withCostOfSalesAccount env s) goodAccountId =
      .ok (goodAccount, some (withCostOfSalesAccount env s).financialBook) :=
    openAccount_of_resolves hpassed.account (planCalculation_resolves h)
  have hbook : costOfSalesBook env' (withCostOfSalesAccount env s) = costOfSalesBook env' s :=
    (createCostOfSalesAccount_twice env env' _).trans (createCostOfSalesAccount_congr hcogs _).symm
  rw [planCalculation_passed hopen
    ⟨hpassed.account, hpassed.notIncoming, hpassed.notOutgoing, hpassed.current, hpassed.selling,
      hpassed.covered⟩, hbook]
  exact hlisting

/-- What a run that fires writes. -/
theorem fired_books (hwf : WellFormed s.inventoryBook) (hfresh : env.Fresh s)
    (hplan : planCalculation P collection env s goodAccountId toDate =
      .ok (.fire goodAccount sales processor)) :
    (calculateCostOfSalesForAccount P collection env s goodAccountId
        toDate).1.inventoryBook.transactions =
      s.inventoryBook.transactions.map
          (Book.updated processor.inventoryBookTransactionsToUpdateMap.values) ++
        Book.postAll env.inventoryId env.now
          processor.inventoryBookTransactionsToCreateMap.values ∧
    (calculateCostOfSalesForAccount P collection env s goodAccountId
        toDate).1.financialBook.transactions =
      s.financialBook.transactions ++ Book.postAll env.financialId env.now
        processor.financialBookTransactionsToCreateMap.values := by
  obtain ⟨-, d, -, -, hcoherent⟩ := planCalculation_moves (fun _ => True) hwf hfresh hplan
    fun _ _ _ => Or.inl fun _ => trivial
  obtain ⟨hinventory, hfinancial⟩ := fireBatchOperations_desk hcoherent hfresh.inventoryIds
  rw [hcoherent.stored, hcoherent.created] at hinventory
  rw [hcoherent.posted] at hfinancial
  rw [calculate_of_fire hplan]
  exact ⟨(storeLastCalcTxDate_transactions _ _ _).trans hinventory, hfinancial⟩

/-- What a run creates in the inventory book is checked. -/
theorem fired_created (hwf : WellFormed s.inventoryBook) (hfresh : env.Fresh s)
    (hplan : planCalculation P collection env s goodAccountId toDate =
      .ok (.fire goodAccount sales processor)) :
    ∀ t ∈ Book.postAll env.inventoryId env.now
      processor.inventoryBookTransactionsToCreateMap.values, t.checked = true := by
  obtain ⟨-, d, hmoves, -, hcoherent⟩ := planCalculation_moves (fun _ => True) hwf hfresh hplan
    fun _ _ _ => Or.inl fun _ => trivial
  intro t ht
  obtain ⟨k, v, hv, rfl⟩ := Book.mem_postAll ht
  obtain ⟨p, -, hsplit, -⟩ := created_split hmoves (hcoherent.created ▸ hv)
  exact hsplit.checked

end Plan

/-! ## The same books up to generated ids -/

/-- A split without what is generated for it. -/
def blankSplit (t : Transaction) : Transaction :=
  { t with id := "", createdAt := none, remoteIds := [] }

/-- A cost of sales without what is generated for it. -/
def blankCogs (t : Transaction) : Transaction := { t with id := "", createdAt := none }

/-- A transaction as it is if it was known before, and else without what was generated for it. -/
def anonymous (known : List String) (blank : Transaction → Transaction) (t : Transaction) :
    Transaction ⊕ Transaction :=
  if t.id ∈ known then .inl t else .inr (blank t)

/-- Two ways on from `s` end with the same inventory transactions and the same costs of sales,
    up to what was generated for new ones. -/
structure SameBooks (s s' s'' : State) : Prop where
  inventory : (s'.inventoryBook.transactions.map
      (anonymous (s.inventoryBook.transactions.map Transaction.id) blankSplit)).Perm
    (s''.inventoryBook.transactions.map
      (anonymous (s.inventoryBook.transactions.map Transaction.id) blankSplit))
  cogs : (s'.financialBook.transactions.map
      (anonymous (s.financialBook.transactions.map Transaction.id) blankCogs)).Perm
    (s''.financialBook.transactions.map
      (anonymous (s.financialBook.transactions.map Transaction.id) blankCogs))

/-- A failed batch has done no harm: run again on what it left, `s₁`, the calculation ends as the
    one that was not interrupted, or the account is flagged for rebuild. -/
def RetrySafe (P : Platform) (collection : Option (List BookInfo)) (env env' : RunEnv)
    (s s₁ : State) (goodAccountId : String) (toDate : Option Date) : Prop :=
  SameBooks s (calculateCostOfSalesForAccount P collection env s goodAccountId toDate).1
      (calculateCostOfSalesForAccount P collection env' s₁ goodAccountId toDate).1 ∨
    ∃ a, (calculateCostOfSalesForAccount P collection env' s₁ goodAccountId
        toDate).1.inventoryBook.getAccount goodAccountId = some a ∧
      GoodAccount.needsRebuild a = true

/-- New transactions are compared without their ids and the time of their creation. -/
theorem map_anonymous_postAll {known : List String} {blank : Transaction → Transaction}
    {newId : ℕ → String} (hnew : ∀ k, newId k ∉ known) (now : ℕ)
    (hblank : ∀ id now t, blank (Book.post id now t) = blank (Book.post "" 0 t))
    (l : List Transaction) :
    (Book.postAll newId now l).map (anonymous known blank) =
      l.map fun t => .inr (blank (Book.post "" 0 t)) := by
  refine List.ext_getElem (by simp [Book.postAll]) fun i h₁ h₂ => ?_
  have hi : i < l.length := by simpa using h₂
  simp only [Book.postAll, List.getElem_map, List.getElem_mapIdx]
  have hid : (Book.post (newId i) now l[i]).id = newId i := rfl
  rw [anonymous, hid, if_neg (hnew i), hblank]

/-- Where nothing but the account of the cost of goods sold has been written, a second run does what
    the first one would have done. -/
theorem retry_created {P : Platform} {collection : Option (List BookInfo)} {env env' : RunEnv}
    {s s₁ : State} {goodAccountId : String} {toDate : Option Date} {goodAccount : Account}
    {sales : List Transaction} {processor : CalculateCostOfSalesProcessor}
    (hwf : WellFormed s.inventoryBook) (hfresh : env.Fresh s)
    (hs₁ : s₁ = withCostOfSalesAccount env s) (hfresh₁ : env'.Fresh s₁)
    (hcogs : env'.cogsAccountId = env.cogsAccountId)
    (hday : toDate.getD env'.today = toDate.getD env.today)
    (hplan : planCalculation P collection env s goodAccountId toDate =
      .ok (.fire goodAccount sales processor)) :
    RetrySafe P collection env env' s s₁ goodAccountId toDate := by
  subst hs₁
  have hfresh' : env'.Fresh s := ⟨hfresh₁.uuids, hfresh₁.inventoryIds, hfresh₁.financialIds⟩
  obtain ⟨processor', hplan', hqueues⟩ := planCalculation_otherIds hwf hfresh.uuids hfresh'.uuids
    hcogs hday hplan
  obtain ⟨hinventory, hfinancial⟩ := fired_books hwf hfresh hplan
  obtain ⟨hinventory', hfinancial'⟩ := fired_books (s := withCostOfSalesAccount env s) hwf hfresh₁
    (planCalculation_created hcogs hplan')
  have hsplits : processor'.inventoryBookTransactionsToCreateMap.values.map
      (fun t => (Sum.inr (blankSplit (Book.post "" 0 t)) : Transaction ⊕ Transaction)) =
      processor.inventoryBookTransactionsToCreateMap.values.map
        fun t => .inr (blankSplit (Book.post "" 0 t)) := by
    have hmap := congrArg (List.map fun t =>
      (Sum.inr (blankSplit (Book.post "" 0 t)) : Transaction ⊕ Transaction)) hqueues.created
    rw [List.map_map, List.map_map] at hmap
    exact hmap
  have hnew : ∀ {e : RunEnv}, e.Fresh s → ∀ k,
      e.inventoryId k ∉ s.inventoryBook.transactions.map Transaction.id :=
    fun h k hk => h.inventoryIds.new k (List.mem_cons_of_mem _ hk)
  refine Or.inl ⟨?_, ?_⟩
  · rw [hinventory, hinventory', List.map_append, List.map_append,
      map_anonymous_postAll (hnew hfresh) _ fun _ _ _ => rfl,
      map_anonymous_postAll (hnew hfresh') _ fun _ _ _ => rfl, hsplits, hqueues.updated]
    exact .refl _
  · rw [hfinancial, hfinancial', List.map_append, List.map_append,
      map_anonymous_postAll hfresh.financialIds.new _ fun _ _ _ => rfl,
      map_anonymous_postAll hfresh'.financialIds.new _ fun _ _ _ => rfl, hqueues.posted]
    exact .refl _


/-! ## What the sales of a run do in any case -/

section Sales

variable {P : Platform} {env : RunEnv} {fb ib : Book}

/-- The sales keep the ids of the purchases. -/
theorem processSales_ids :
    ∀ {sales ps ps' : List Transaction} {processor processor' : CalculateCostOfSalesProcessor},
      processSales P env fb ib sales ps processor = .ok (some (ps', processor')) →
      ps'.map Transaction.id = ps.map Transaction.id := by
  intro sales
  induction sales with
  | nil =>
    intro ps ps' processor processor' h
    cases h
    rfl
  | cons sale sales ih =>
    intro ps ps' processor processor' h
    obtain ⟨qs, processor₁, hone, -, h⟩ := processSales_cons.1 h
    exact (ih h).trans (processSale_frame hone).1

/-- The loop over one sale queues its cost. -/
theorem processSale_posted {sale : Transaction} {ps ps' : List Transaction}
    {processor processor' : CalculateCostOfSalesProcessor}
    (h : processSale P env fb ib sale ps processor = .ok (ps', processor')) :
    ∃ cost, processor'.financialBookTransactionsToCreateMap =
      processor.financialBookTransactionsToCreateMap.set sale.id
        (costOfSaleTransaction P env fb sale cost) := by
  obtain ⟨st, hloop, hend⟩ := processSale_cases h
  refine ⟨st.saleCost, ?_⟩
  rcases hend with ⟨-, rfl⟩ | ⟨-, rfl⟩
  · exact congrArg (fun m => OrderedMap.set m sale.id _) (processPurchases_posted hloop)
  · exact congrArg (fun m => OrderedMap.set m sale.id _) (processPurchases_posted hloop)

/-- A cost is posted for every sale, and for these only. -/
theorem processSales_posted :
    ∀ {sales ps ps' : List Transaction} {processor processor' : CalculateCostOfSalesProcessor},
      processSales P env fb ib sales ps processor = .ok (some (ps', processor')) →
      ∀ k, k ∈ processor'.financialBookTransactionsToCreateMap.keys ↔
        k ∈ processor.financialBookTransactionsToCreateMap.keys ∨
          k ∈ sales.map Transaction.id := by
  intro sales
  induction sales with
  | nil =>
    intro ps ps' processor processor' h k
    cases h
    simp
  | cons sale sales ih =>
    intro ps ps' processor processor' h k
    obtain ⟨qs, processor₁, hone, -, h⟩ := processSales_cons.1 h
    obtain ⟨cost, hposted⟩ := processSale_posted hone
    rw [ih h k, hposted, OrderedMap.mem_keys_set, List.map_cons, List.mem_cons]
    tauto

/-- The loop over the sales posts costs of these sales. -/
theorem processSales_costs :
    ∀ {sales ps ps' : List Transaction} {processor processor' : CalculateCostOfSalesProcessor},
      processSales P env fb ib sales ps processor = .ok (some (ps', processor')) →
      ∀ t ∈ processor'.financialBookTransactionsToCreateMap.values,
        t ∈ processor.financialBookTransactionsToCreateMap.values ∨
          ∃ sale ∈ sales, ∃ cost, t = costOfSaleTransaction P env fb sale cost := by
  intro sales
  induction sales with
  | nil =>
    intro ps ps' processor processor' h t ht
    cases h
    exact Or.inl ht
  | cons sale sales ih =>
    intro ps ps' processor processor' h t ht
    obtain ⟨qs, processor₁, hone, -, h⟩ := processSales_cons.1 h
    obtain ⟨cost₁, hposted⟩ := processSale_posted hone
    rcases ih h t ht with ht | ⟨later, hlater, cost, rfl⟩
    · rw [hposted] at ht
      rcases OrderedMap.mem_values_set ht with rfl | ht
      · exact Or.inr ⟨sale, List.mem_cons_self, _, rfl⟩
      · exact Or.inl ht
    · exact Or.inr ⟨later, List.mem_cons_of_mem _ hlater, cost, rfl⟩

end Sales

/-! ## A run that fires rewrites a purchase -/

section Rewrites

variable {P : Platform} {collection : Option (List BookInfo)} {env : RunEnv} {s : State}
  {goodAccountId : String} {toDate : Option Date} {goodAccount : Account}
  {sales : List Transaction} {processor : CalculateCostOfSalesProcessor}

/-- A run that splits nothing takes a listed purchase whole, so it rewrites an unchecked
    transaction. -/
theorem fire_rewrites (hwf : WellFormed s.inventoryBook) (hfresh : env.Fresh s)
    (hplan : planCalculation P collection env s goodAccountId toDate =
      .ok (.fire goodAccount sales processor)) (hno : NoSplit processor)
    (hlisted : (listTransactions s.inventoryBook goodAccount (toDate.getD env.today)).filter
      isOpenPurchase ≠ []) :
    ∃ p ∈ s.inventoryBook.transactions, p.checked = false ∧
      ∃ p' ∈ (calculateCostOfSalesForAccount P collection env s goodAccountId
        toDate).1.inventoryBook.transactions, p'.id = p.id ∧ p' ≠ p := by
  obtain ⟨hpassed, hlisting⟩ := planCalculation_fire hplan
  have hkind : ∀ t ∈ s.inventoryBook.transactions, t.moves goodAccount.name → OneKind t :=
    fun t ht hm => hwf.oneKind hpassed.account hpassed.notIncoming hpassed.notOutgoing ht hm
  obtain ⟨purchases, processor₁, ps, d, hnotes, hsales, -, hd⟩ := planListing_end hwf.ids hkind
    hfresh.uuids hlisting fun _ _ _ => Or.inl fun q => (trivial : (fun _ : ℚ => True) q)
  obtain ⟨rfl, hwhole⟩ := (planListing_splits hnotes hsales).2 hno
  obtain ⟨-, hpurchases, -⟩ := listing_mem P s goodAccount (toDate.getD env.today)
  set l := listingOf P s.inventoryBook goodAccount (toDate.getD env.today) with hl
  by_contra hkept
  push Not at hkept
  have hopen : ∀ p ∈ l.goodAccountPurchaseTransactionsMap.values,
      p ∈ s.inventoryBook.transactions ∧ p.checked = false := by
    intro p hp
    obtain ⟨k, hk⟩ := OrderedMap.mem_values_iff.1 hp
    exact ⟨(hpurchases k p hk).1.stored, (hpurchases k p hk).2.1⟩
  -- the purchases that the loop hands on are stored after the run
  have hids : (ps.map Transaction.id).Perm
      (l.goodAccountPurchaseTransactionsMap.values.map Transaction.id) := by
    rw [processSales_ids hsales]
    exact (sortFIFO_perm _).map _
  have hstored : ∀ p ∈ ps, p ∈ (calculateCostOfSalesForAccount P collection env s goodAccountId
      toDate).1.inventoryBook.transactions := by
    intro p hp
    rw [(fired_books hwf hfresh hplan).1, ← hd.coherent.stored]
    exact List.mem_append_left _ (hd.offered p hp).stored
  have hunchanged : ∀ p ∈ ps, p ∈ l.goodAccountPurchaseTransactionsMap.values := by
    intro p hp
    obtain ⟨q, hq, hid⟩ := List.mem_map.1 (hids.subset (List.mem_map_of_mem hp))
    rwa [hkept q (hopen q hq).1 (hopen q hq).2 p (hstored p hp) hid.symm]
  -- so they are all open, but the first sale has taken one
  have hlength := Fifo.takeAllWhole_length_lt ?_ ?_ hwhole
  · rw [openAmounts_of_open fun p hp => (hopen p (hunchanged p hp)).2, List.length_map,
      List.length_map, ← List.length_map (f := Transaction.id), processSales_ids hsales,
      List.length_map] at hlength
    exact lt_irrefl _ hlength
  · exact fun hnil => hpassed.sales_ne_nil (List.map_eq_nil_iff.1 hnil)
  · intro hnil
    obtain ⟨p, hp⟩ := List.exists_mem_of_ne_nil _ hlisted
    have hkey : p.purchaseCode ∈ l.goodAccountPurchaseTransactionsMap.keys := by
      rw [hl, listingOf, collect_purchases, OrderedMap.mem_keys_ofList]
      exact List.mem_map_of_mem hp
    have hvalues : l.goodAccountPurchaseTransactionsMap.values = [] :=
      ((List.map_eq_nil_iff.1 hnil) ▸ sortFIFO_perm (P := P) _).nil_eq.symm
    rw [OrderedMap.keys, List.map_eq_nil_iff.1 hvalues] at hkey
    cases hkey

end Rewrites

/-! ## What the first batches leave to list -/

section Left

variable {P : Platform} {collection : Option (List BookInfo)} {env : RunEnv} {s s' : State}
  {goodAccountId account : String} {before : Date} {goodAccount : Account} {d : Desk}

/-- No listed sale and no listed credit note has a negative amount. -/
def NoNegative (txs : List Transaction) : Prop :=
  ∀ t ∈ txs, isOpenSale t ∨ isOpenCreditNote t → 0 ≤ t.amount

/-- A transaction has no negative amount if a run lists it as a sale or a credit note. -/
def NoNegativeRow (account : String) (before : Date) (t : Transaction) : Prop :=
  t.checked = false → t.moves account → t.date < before →
    BotService.isSale t ∨ BotService.isCreditNote t → 0 ≤ t.amount

theorem noNegative_iff {b : Book} {a : Account} {day : Date} :
    NoNegative (listTransactions b a day) ↔
      ∀ t ∈ b.transactions, NoNegativeRow a.name (BotService.getBeforeDateIsoString day) t := by
  constructor
  · intro h t ht hopen hmoves hdate hkind
    refine h t (mem_listTransactions.2 ⟨ht, hmoves, hdate⟩) ?_
    simpa [isOpenSale, isOpenCreditNote, hopen] using hkind
  · intro h t ht hkind
    obtain ⟨ht, hmoves, hdate⟩ := mem_listTransactions.1 ht
    simp only [isOpenSale, isOpenCreditNote, Bool.and_eq_true, Bool.not_eq_true'] at hkind
    have hopen : t.checked = false := hkind.elim And.left And.left
    exact h t ht hopen hmoves hdate (hkind.imp And.right And.right)

/-- Rewriting makes no amount negative. -/
theorem Written.noNegativeRow (hP : P.KeepsSign) {p t : Transaction} (h : Written P p t)
    (hp : NoNegativeRow account before p) : NoNegativeRow account before t := by
  intro hopen hmoves hdate hkind
  cases h with
  | credited _ _ hleft => exact ((hP _).1 hleft).le
  | applied => cases hopen
  | taken => cases hopen
  | reduced _ _ hlt => exact (sub_pos.2 hlt).le
  | @settled cost entries hsale _ =>
    rcases settleSale_cases cost entries p with he | he
    · rw [he] at hopen hmoves hdate hkind ⊢
      exact hp hopen hmoves hdate hkind
    · rw [he] at hopen
      cases hopen

/-- The first batches make no listed amount negative. -/
theorem PartlyFires.noNegative (hP : P.KeepsSign) {day : Date}
    (h : PartlyFires P collection env s goodAccountId before goodAccount d s')
    (hpos : NoNegative (listTransactions s.inventoryBook goodAccount day)) :
    NoNegative (listTransactions s'.inventoryBook goodAccount day) := by
  rw [noNegative_iff] at hpos ⊢
  have hdesk := h.moves.forall_rows
    (Q := NoNegativeRow goodAccount.name (BotService.getBeforeDateIsoString day))
    (fun p t hw hp => hw.noNegativeRow hP hp)
    (fun p t hs _ hopen => by rw [hs.isSplit.checked] at hopen; cases hopen)
    (fun t ht => ht.elim (hpos t) (by simp [Desk.start]))
  intro t ht
  rcases h.mem_cases ht with ht | ht | ⟨k, u, -, rfl, p, -, hsplit, -⟩
  · exact hpos t ht
  · exact hdesk t (Or.inl ht)
  · intro hopen
    have hchecked : u.checked = false := hopen
    rw [hsplit.checked] at hchecked
    cases hchecked

/-- Checked transactions are not collected. -/
theorem collect_append_of_checked (txs : List Transaction) {txs' : List Transaction}
    (h : ∀ t ∈ txs', t.checked = true) : collect P (txs ++ txs') = collect P txs := by
  induction txs' using List.reverseRecOn with
  | nil => rw [List.append_nil]
  | append_singleton txs' t ih =>
    rw [← List.append_assoc, collect_append_singleton, Listing.add,
      if_pos (h t (List.mem_append_right _ (List.mem_singleton_self t))),
      ih fun u hu => h u (List.mem_append_left _ hu)]

end Left

/-! ## The retry -/

section Retry

variable {P : Platform} {collection : Option (List BookInfo)} {env env' : RunEnv} {s s₁ : State}
  {goodAccountId : String} {toDate : Option Date} {goodAccount : Account}
  {sales : List Transaction} {processor : CalculateCostOfSalesProcessor}

/-- A run that fires posts a cost of sales. -/
theorem fire_posts
    (hplan : planCalculation P collection env s goodAccountId toDate =
      .ok (.fire goodAccount sales processor)) :
    processor.financialBookTransactionsToCreateMap.values ≠ [] := by
  obtain ⟨hpassed, hlisting⟩ := planCalculation_fire hplan
  obtain ⟨-, rfl, purchases, processor₁, ps, -, hsales⟩ := planListing_fire hlisting
  obtain ⟨t, ht⟩ := List.exists_mem_of_ne_nil _ hpassed.sales_ne_nil
  have hmem : t.id ∈ processor.financialBookTransactionsToCreateMap.keys :=
    (processSales_posted hsales t.id).2 (Or.inr (List.mem_map_of_mem ht))
  intro hnil
  rw [OrderedMap.keys, List.map_eq_nil_iff.1 hnil] at hmem
  cases hmem

/-- Where costs of sales are still to be posted, a retry that does no harm fires its batches. -/
theorem RetrySafe.fires (hwf : WellFormed s.inventoryBook) (hfresh : env.Fresh s)
    (hplan : planCalculation P collection env s goodAccountId toDate =
      .ok (.fire goodAccount sales processor))
    (hwf₁ : WellFormed s₁.inventoryBook) (hfresh₁ : env'.Fresh s₁)
    (haccount : s₁.inventoryBook.getAccount goodAccountId = some goodAccount)
    (hfinancial : s₁.financialBook.transactions = s.financialBook.transactions)
    (h : RetrySafe P collection env env' s s₁ goodAccountId toDate) :
    ∃ sales' processor', planCalculation P collection env' s₁ goodAccountId toDate =
        .ok (.fire goodAccount sales' processor') ∧
      SameBooks s (calculateCostOfSalesForAccount P collection env s goodAccountId toDate).1
        (calculateCostOfSalesForAccount P collection env' s₁ goodAccountId toDate).1 := by
  have hcalm := (planCalculation_fire hplan).1.current
  -- a run that leaves the transactions as they are does not complete the first one
  have hidle : ∀ s' : State, s'.inventoryBook = s₁.inventoryBook →
      s'.financialBook.transactions = s₁.financialBook.transactions →
      (calculateCostOfSalesForAccount P collection env' s₁ goodAccountId toDate).1 ≠ s' := by
    intro s' hinventory htransactions hsame
    rw [RetrySafe, hsame] at h
    rcases h with h | ⟨a, ha, hflag⟩
    · have hlength := h.cogs.length_eq
      rw [(fired_books hwf hfresh hplan).2, htransactions, hfinancial] at hlength
      simp only [List.length_map, List.length_append, Book.postAll, List.length_mapIdx,
        Nat.add_eq_left] at hlength
      exact absurd (List.length_eq_zero_iff.1 hlength) (fire_posts hplan)
    · rw [hinventory] at ha
      obtain rfl : a = goodAccount := Option.some.inj (ha.symm.trans haccount)
      rw [hcalm] at hflag
      cases hflag
  rcases calculate_cases P collection env' s₁ goodAccountId toDate with
    hsame | hsame | ⟨hreset, -⟩ | ⟨a, sales', processor', hplan', -⟩
  · exact absurd hsame (hidle _ rfl rfl)
  · exact absurd hsame (hidle _ rfl rfl)
  · obtain ⟨a, ha, hflag⟩ := planCalculation_reset hreset
    obtain rfl : a = goodAccount := Option.some.inj (ha.symm.trans haccount)
    rw [hcalm] at hflag
    cases hflag
  · obtain rfl : a = goodAccount :=
      Option.some.inj ((planCalculation_fire hplan').1.account.symm.trans haccount)
    refine ⟨sales', processor', hplan', h.resolve_right ?_⟩
    rintro ⟨b, hb, hflag⟩
    obtain ⟨d, hfires⟩ := calculation_fires (fun _ => True) hwf₁ hfresh₁ hplan'
      fun _ _ _ => Or.inl fun _ => trivial
    obtain ⟨b', hb', -, hunflagged⟩ := hfires.account
    obtain rfl : b' = b := Option.some.inj (hb'.symm.trans hb)
    rw [hunflagged] at hflag
    cases hflag

/-- Where the splits of the first run are stored, a retry that does no harm creates none. -/
theorem RetrySafe.noSplit (hwf : WellFormed s.inventoryBook) (hfresh : env.Fresh s)
    (hplan : planCalculation P collection env s goodAccountId toDate =
      .ok (.fire goodAccount sales processor))
    (hwf₁ : WellFormed s₁.inventoryBook) (hfresh₁ : env'.Fresh s₁)
    (haccount : s₁.inventoryBook.getAccount goodAccountId = some goodAccount)
    (hfinancial : s₁.financialBook.transactions = s.financialBook.transactions)
    (hstored : s₁.inventoryBook.transactions.length = s.inventoryBook.transactions.length +
      processor.inventoryBookTransactionsToCreateMap.values.length)
    (h : RetrySafe P collection env env' s s₁ goodAccountId toDate) :
    ∃ sales' processor', planCalculation P collection env' s₁ goodAccountId toDate =
        .ok (.fire goodAccount sales' processor') ∧ NoSplit processor' ∧
      SameBooks s (calculateCostOfSalesForAccount P collection env s goodAccountId toDate).1
        (calculateCostOfSalesForAccount P collection env' s₁ goodAccountId toDate).1 := by
  obtain ⟨sales', processor', hplan', hsame⟩ := h.fires hwf hfresh hplan hwf₁ hfresh₁ haccount
    hfinancial
  refine ⟨sales', processor', hplan', ?_, hsame⟩
  have hlength := hsame.inventory.length_eq
  rw [(fired_books hwf hfresh hplan).1, (fired_books hwf₁ hfresh₁ hplan').1] at hlength
  simp only [List.length_map, List.length_append, Book.postAll, List.length_mapIdx, hstored,
    Nat.left_eq_add] at hlength
  rw [OrderedMap.values, List.length_map, List.length_eq_zero_iff] at hlength
  rw [NoSplit, OrderedMap.keys, hlength]
  rfl

/-- Where the first batch has created splits, the retry creates them again. -/
theorem retry_after_create (hwf : WellFormed s.inventoryBook) (hfresh : env.Fresh s)
    (hday : toDate.getD env'.today = toDate.getD env.today)
    (hplan : planCalculation P collection env s goodAccountId toDate =
      .ok (.fire goodAccount sales processor))
    (hs₁ : s₁ = processor.fireBatchOperations env 1 (withCostOfSalesAccount env s))
    (hfresh₁ : env'.Fresh s₁) (h : RetrySafe P collection env env' s s₁ goodAccountId toDate) :
    NothingSplit P (listingOf P s.inventoryBook goodAccount (toDate.getD env.today)) := by
  obtain ⟨d, hcoherent, hpartly⟩ := partlyFires_of_fire hwf hfresh hplan
  have hinventory : (processor.fireBatchOperations env 1
      (withCostOfSalesAccount env s)).inventoryBook.transactions =
        s.inventoryBook.transactions ++ Book.postAll env.inventoryId env.now d.created :=
    fireBatchOperations_one (s := s) hcoherent
  subst hs₁
  obtain ⟨sales', processor', hplan', hno, -⟩ := h.noSplit hwf hfresh hplan
    ((hpartly 0).wellFormed hwf hfresh) hfresh₁ (planCalculation_fire hplan).1.account rfl
    (by rw [hinventory, List.length_append, Book.postAll, List.length_mapIdx, hcoherent.created])
  obtain ⟨-, rfl, purchases, processor₁, ps, hnotes, hsales⟩ :=
    planListing_fire (planCalculation_fire hplan').2
  have hnothing := (planListing_splits hnotes hsales).1.1 hno
  -- the splits are checked, so the retry collects what the first run did
  have hlisting : listTransactions
      (processor.fireBatchOperations env 1 (withCostOfSalesAccount env s)).inventoryBook goodAccount
      (toDate.getD env'.today) = listTransactions s.inventoryBook goodAccount
        (toDate.getD env.today) ++ (Book.postAll env.inventoryId env.now d.created).filter
          (Query.selects (helper.getAccountQuery goodAccount.name
            (some (BotService.getBeforeDateIsoString (toDate.getD env.today))) none)) := by
    unfold listTransactions Book.getTransactions
    rw [hinventory, List.filter_append, hday]
  have hchecked : ∀ t ∈ (Book.postAll env.inventoryId env.now d.created).filter
      (Query.selects (helper.getAccountQuery goodAccount.name
        (some (BotService.getBeforeDateIsoString (toDate.getD env.today))) none)),
      t.checked = true := by
    intro t ht
    exact fired_created hwf hfresh hplan t (hcoherent.created ▸ List.mem_of_mem_filter ht)
  rwa [hlisting, collect_append_of_checked _ hchecked] at hnothing

/-- After the second batch the retry does not post the costs of the sales that are settled. -/
theorem retry_after_update (hP : P.KeepsOrder) (hwf : WellFormed s.inventoryBook)
    (hfresh : env.Fresh s) (hday : toDate.getD env'.today = toDate.getD env.today)
    (hamounts : NoNegative (listTransactions s.inventoryBook goodAccount
      (toDate.getD env.today)))
    (hplan : planCalculation P collection env s goodAccountId toDate =
      .ok (.fire goodAccount sales processor))
    (hs₁ : s₁ = processor.fireBatchOperations env 2 (withCostOfSalesAccount env s))
    (hfresh₁ : env'.Fresh s₁) : ¬RetrySafe P collection env env' s s₁ goodAccountId toDate := by
  intro h
  obtain ⟨d, hcoherent, hpartly⟩ := partlyFires_of_fire hwf hfresh hplan
  have hwf₁ := (hpartly 1).wellFormed hwf hfresh
  have hinventory : (processor.fireBatchOperations env 2
      (withCostOfSalesAccount env s)).inventoryBook.transactions =
        d.stored ++ Book.postAll env.inventoryId env.now d.created :=
    fireBatchOperations_two (s := s) hcoherent hfresh.inventoryIds
  have hids := (hpartly 1).moves.ids
  subst hs₁
  obtain ⟨sales', processor', hplan', hno, hsame⟩ := h.noSplit hwf hfresh hplan hwf₁ hfresh₁
    (planCalculation_fire hplan).1.account rfl (by
      rw [hinventory, List.length_append, Book.postAll, List.length_mapIdx, hcoherent.created,
        ← List.length_map (f := Transaction.id), hids, List.length_map]
      rfl)
  obtain ⟨hpassed', -⟩ := planCalculation_fire hplan'
  have hamounts' := (hpartly 1).noNegative hP.keepsSign hamounts
  rw [← hday] at hamounts'
  -- there is something to sell, so a purchase is listed
  have hlisted : (listTransactions (processor.fireBatchOperations env 2
      (withCostOfSalesAccount env s)).inventoryBook goodAccount
        (toDate.getD env'.today)).filter isOpenPurchase ≠ [] := by
    intro hnone
    have hbought := collect_totalPurchased_nonpos P _ hP hnone
      fun t ht hnote => hamounts' t ht (Or.inr hnote)
    have hsold := collect_totalSales_nonneg P _ hP fun t ht hsale => hamounts' t ht (Or.inl hsale)
    exact hpassed'.selling (le_antisymm (hpassed'.covered.trans hbought) hsold)
  obtain ⟨p, hp, hopen, p', hp', hid, hne⟩ := fire_rewrites hwf₁ hfresh₁ hplan' hno hlisted
  -- the rewritten transaction was known before, as the splits are checked
  have hknown : p.id ∈ s.inventoryBook.transactions.map Transaction.id := by
    rcases (hpartly 1).mem_cases hp with hp | hp | ⟨k, u, -, rfl, q, -, hsplit, -⟩
    · exact List.mem_map_of_mem hp
    · exact hids ▸ List.mem_map_of_mem hp
    · have hchecked : u.checked = false := hopen
      rw [hsplit.checked] at hchecked
      cases hchecked
  have hmem := hsame.inventory.symm.subset (List.mem_map_of_mem hp')
  rw [anonymous, if_pos (hid ▸ hknown)] at hmem
  obtain ⟨q, hq, hanon⟩ := List.mem_map.1 hmem
  have hqp : q = p' := by
    unfold anonymous at hanon
    split at hanon <;> cases hanon
    rfl
  have hbooks : (calculateCostOfSalesForAccount P collection env s goodAccountId
      toDate).1.inventoryBook.transactions = (processor.fireBatchOperations env 2
        (withCostOfSalesAccount env s)).inventoryBook.transactions := by
    rw [(fired_books hwf hfresh hplan).1, hinventory, hcoherent.stored, hcoherent.created]
  rw [hqp, hbooks] at hq
  exact hne (List.inj_on_of_nodup_map hwf₁.ids hq hp hid)

/-- **Running a calculation again after a failed batch.** For a calculation that would succeed
    and a batch call that throws, the second run ends as the first one would have, exactly if
    it was the first call, or the second and there was nothing to split. Only for the third call
    amounts matter: there no sale and no credit note is negative. -/
theorem retry_safe_iff (hwf : WellFormed s.inventoryBook) (hfresh : env.Fresh s)
    (haccount : s.inventoryBook.getAccount goodAccountId = some goodAccount)
    (hrun : (calculateCostOfSalesForAccount P collection env s goodAccountId toDate).2 =
      .returned .calculatingAsync) {calls : ℕ} (hcalls : calls < 3)
    (hamounts : calls = 2 → P.KeepsOrder ∧
      NoNegative (listTransactions s.inventoryBook goodAccount (toDate.getD env.today)))
    (hs₁ : s₁ = interruptedCalculation P collection env calls s goodAccountId toDate)
    (hfresh₁ : env'.Fresh s₁) (hcogs : env'.cogsAccountId = env.cogsAccountId)
    (hday : toDate.getD env'.today = toDate.getD env.today) :
    RetrySafe P collection env env' s s₁ goodAccountId toDate ↔
      calls = 0 ∨ (calls = 1 ∧
        NothingSplit P (listingOf P s.inventoryBook goodAccount (toDate.getD env.today))) := by
  obtain ⟨a, sales, processor, hplan⟩ := calculate_fired (Prod.ext rfl hrun)
  obtain ⟨hpassed, hlisting⟩ := planCalculation_fire hplan
  obtain rfl : a = goodAccount := Option.some.inj (hpassed.account.symm.trans haccount)
  unfold interruptedCalculation at hs₁
  rw [hplan, booksAfterPlan_fire hplan] at hs₁
  dsimp only at hs₁
  match calls with
  | 0 => exact iff_of_true (retry_created hwf hfresh hs₁ hfresh₁ hcogs hday hplan) (Or.inl rfl)
  | 1 =>
    constructor
    · exact fun h => Or.inr ⟨rfl, retry_after_create hwf hfresh hday hplan hs₁ hfresh₁ h⟩
    · rintro (h | ⟨-, hnothing⟩)
      · cases h
      · obtain ⟨-, rfl, purchases, processor₁, ps, hnotes, hsales⟩ := planListing_fire hlisting
        have hno := (planListing_splits hnotes hsales).1.2 hnothing
        have hvalues : processor.inventoryBookTransactionsToCreateMap.values = [] := by
          rw [OrderedMap.values, List.map_eq_nil_iff.1 hno]
          rfl
        refine retry_created hwf hfresh ?_ hfresh₁ hcogs hday hplan
        rw [hs₁, CalculateCostOfSalesProcessor.fireBatchOperations,
          CalculateCostOfSalesProcessor.fireBatchCreateInventoryBookTransactions, hvalues,
          Book.batchCreateTransactions, Book.postAll, List.mapIdx_nil, List.append_nil]
  | 2 =>
    obtain ⟨hP, hamounts⟩ := hamounts rfl
    refine iff_of_false (retry_after_update hP hwf hfresh hday hamounts hplan hs₁ hfresh₁) ?_
    rintro (h | ⟨h, -⟩) <;> cases h

end Retry

/-! ## A split and a whole purchase -/

namespace Sample

/-- The ids of a second run. -/
def retryEnv : RunEnv :=
  { env 9 with
    uuid := Book.unaryId 'v', inventoryId := Book.unaryId 'j', financialId := Book.unaryId 'g' }

/-- A purchase of ten that is sold in full. -/
def soldOut : State := state [purchase "1" "P1" 1 10 100, sale "2" "S1" 2 10 80] []

end Sample

/-- For a purchase of ten and a sale of four the retry creates the split a second time when the
    update failed, and posts no cost of sales when that call failed. -/
theorem retry_unsafe_split :
    ¬RetrySafe exactPlatform Sample.collection (Sample.env 9) Sample.retryEnv Sample.start
        (interruptedCalculation exactPlatform Sample.collection (Sample.env 9) 1 Sample.start
          "a-widgets" none) "a-widgets" none ∧
      ¬RetrySafe exactPlatform Sample.collection (Sample.env 9) Sample.retryEnv Sample.start
        (interruptedCalculation exactPlatform Sample.collection (Sample.env 9) 2 Sample.start
          "a-widgets" none) "a-widgets" none := by
  have hcalm : ∀ calls ∈ [1, 2], ((calculateCostOfSalesForAccount exactPlatform Sample.collection
      Sample.retryEnv (interruptedCalculation exactPlatform Sample.collection (Sample.env 9) calls
        Sample.start "a-widgets" none) "a-widgets" none).1.inventoryBook.getAccount
          "a-widgets").any GoodAccount.needsRebuild = false := by
    decide +kernel
  constructor
  · rintro (hsame | ⟨a, ha, hflag⟩)
    · exact absurd hsame.inventory.length_eq (by decide +kernel)
    · have hfalse := hcalm 1 (by decide)
      rw [ha, Option.any_some, hflag] at hfalse
      cases hfalse
  · rintro (hsame | ⟨a, ha, hflag⟩)
    · exact absurd hsame.cogs.length_eq (by decide +kernel)
    · have hfalse := hcalm 2 (by decide)
      rw [ha, Option.any_some, hflag] at hfalse
      cases hfalse

/-- Where the purchase is sold in full, the retry after a failed update completes the run, and the
    retry after the third call does not. -/
theorem retry_safe_iff_sample :
    RetrySafe exactPlatform Sample.collection (Sample.env 9) Sample.retryEnv Sample.soldOut
        (interruptedCalculation exactPlatform Sample.collection (Sample.env 9) 1 Sample.soldOut
          "a-widgets" none) "a-widgets" none ∧
      ¬RetrySafe exactPlatform Sample.collection (Sample.env 9) Sample.retryEnv Sample.soldOut
        (interruptedCalculation exactPlatform Sample.collection (Sample.env 9) 2 Sample.soldOut
          "a-widgets" none) "a-widgets" none := by
  have hwf : WellFormed Sample.soldOut.inventoryBook := ⟨by decide, by decide⟩
  have hfresh : (Sample.env 9).Fresh Sample.soldOut :=
    ⟨Book.freshIds_unaryId (by decide), Book.freshIds_unaryId (by decide),
      Book.freshIds_unaryId (by decide)⟩
  have hfresh₁ : ∀ calls ∈ [1, 2], Sample.retryEnv.Fresh (interruptedCalculation exactPlatform
      Sample.collection (Sample.env 9) calls Sample.soldOut "a-widgets" none) := by
    intro calls hcalls
    simp only [List.mem_cons, List.not_mem_nil, or_false] at hcalls
    rcases hcalls with rfl | rfl
    · exact ⟨Book.freshIds_unaryId (by decide +kernel), Book.freshIds_unaryId (by decide +kernel),
        Book.freshIds_unaryId (by decide +kernel)⟩
    · exact ⟨Book.freshIds_unaryId (by decide +kernel), Book.freshIds_unaryId (by decide +kernel),
        Book.freshIds_unaryId (by decide +kernel)⟩
  have hamounts : NoNegative (listTransactions Sample.soldOut.inventoryBook Sample.good 9) := by
    unfold NoNegative
    decide +kernel
  have haccount : Sample.soldOut.inventoryBook.getAccount "a-widgets" = some Sample.good := rfl
  constructor
  · exact (retry_safe_iff hwf hfresh haccount (by decide +kernel) (by decide)
      (fun _ => ⟨exactPlatform_exact.keepsOrder, by exact hamounts⟩) rfl (hfresh₁ 1 (by decide)) rfl
      rfl).2 (Or.inr ⟨rfl, by decide +kernel⟩)
  · rw [retry_safe_iff hwf hfresh haccount (by decide +kernel) (by decide)
      (fun _ => ⟨exactPlatform_exact.keepsOrder, by exact hamounts⟩) rfl (hfresh₁ 2 (by decide)) rfl
      rfl]
    decide +kernel

end InventoryBot.Menu
