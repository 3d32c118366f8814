import InventoryBot.Menu.CogsLinks
import InventoryBot.Menu.FifoOrder
import InventoryBot.System.Memory
import Mathlib.Order.Bounds.Basic

/-!
# The frontier of the calculated sales

`cogs_calc_date` is what the webhook compares a late transaction with. It is the latest date of a
checked sale of the account, and there is none exactly while no sale is checked.

* `Frontier`: how a date value relates to a set of dates.
* `sortFIFO_getLast_date`: the last of the sorted sales has the latest date.
* `CalculationFires.calculatedDates`: a calculation adds the dates of the sales it lists.
* `cogs_calc_date_frontier`: over calculations, resets and new transactions.
-/

namespace InventoryBot.System

open Lib Menu CostOfSalesService

/-! ## Dates -/

/-- A date value that shows how far a set of dates reaches. -/
inductive Frontier (dates : Set Date) : Option (Option Date) → Prop
  | absent (hnone : dates = ∅) : Frontier dates none
  | date {date : Date} (hgreatest : IsGreatest dates date) : Frontier dates (some (some date))

/-- The dates of the checked sales of an account. -/
def calculatedDates (account : String) (l : List Transaction) : Set Date :=
  {date | ∃ t ∈ l, t.moves account ∧ BotService.isSale t ∧ t.checked = true ∧ t.date = date}

/-- The dates of the open sales that a calculation lists. -/
def listedDates (l : List Transaction) : Set Date := {date | ∃ t ∈ l.filter isOpenSale, t.date = date}

section Dates

variable {P : Platform} {account : String} {l : List Transaction}

/-- No sale is checked exactly if there is no date of one. -/
theorem calculatedDates_eq_empty : calculatedDates account l = ∅ ↔
    ∀ t ∈ l, t.moves account → BotService.isSale t → t.checked = false := by
  rw [Set.eq_empty_iff_forall_notMem]
  constructor
  · intro h t ht hmoves hkind
    by_contra hchecked
    exact h t.date ⟨t, ht, hmoves, hkind, Bool.eq_true_of_not_eq_false hchecked, rfl⟩
  · rintro h date ⟨t, ht, hmoves, hkind, hchecked, -⟩
    rw [h t ht hmoves hkind] at hchecked
    cases hchecked

/-- An open transaction adds no date. -/
theorem calculatedDates_append_open {t : Transaction} (hopen : t.checked = false) :
    calculatedDates account (l ++ [t]) = calculatedDates account l := by
  refine Set.Subset.antisymm ?_ ?_
  · rintro _ ⟨u, hu, hmoves, hkind, hchecked, rfl⟩
    rw [List.mem_append, List.mem_singleton] at hu
    rcases hu with hu | rfl
    · exact ⟨u, hu, hmoves, hkind, hchecked, rfl⟩
    · rw [hopen] at hchecked
      cases hchecked
  · rintro _ ⟨u, hu, hmoves, hkind, hchecked, rfl⟩
    exact ⟨u, List.mem_append_left _ hu, hmoves, hkind, hchecked, rfl⟩

/-- The sales are sorted by their dates first. -/
theorem sortFIFO_dates (h : ∀ t ∈ l, Sortable P t) :
    (BotService.sortFIFO P l).Pairwise fun a b => a.date ≤ b.date := by
  rw [sortFIFO_eq h]
  refine (List.pairwise_insertionSort _ l).imp ?_
  intro a b hkey
  rcases fifoKey_le.1 hkey with hlt | ⟨hdate, -⟩
  · exact hlt.le
  · exact hdate.le

/-- The last of the sorted sales has the latest date. -/
theorem sortFIFO_getLast_date (h : ∀ t ∈ l, Sortable P t) {lastSaleTx : Transaction}
    (hlast : (BotService.sortFIFO P l).getLast? = some lastSaleTx) :
    IsGreatest {date | ∃ t ∈ l, t.date = date} lastSaleTx.date := by
  have hmem : ∀ t, t ∈ BotService.sortFIFO P l ↔ t ∈ l := fun t => (sortFIFO_perm l).mem_iff
  have hsorted := sortFIFO_dates h
  refine ⟨⟨lastSaleTx, (hmem _).1 (List.mem_of_getLast? hlast), rfl⟩, ?_⟩
  obtain ⟨others, hl⟩ := List.getLast?_eq_some_iff.1 hlast
  rintro _ ⟨t, ht, rfl⟩
  have ht := (hmem t).2 ht
  rw [hl, List.mem_append, List.mem_singleton] at ht
  rw [hl, List.pairwise_append] at hsorted
  rcases ht with ht | rfl
  · exact hsorted.2.2 t ht lastSaleTx List.mem_cons_self
  · exact le_rfl

end Dates

/-! ## The date of an account -/

section Account

variable {P : Platform} {a : Account} {dates new : Set Date}

theorem calculationDate_setCOGSCalculationDate (hdates : ReadsDates P) (a : Account) (date : Date) :
    GoodAccount.getCOGSCalculationDateValue P
      (GoodAccount.setCOGSCalculationDate a (P.dateText date)) = some (some date) := by
  simp [GoodAccount.getCOGSCalculationDateValue, GoodAccount.getCOGSCalculationDate,
    GoodAccount.setCOGSCalculationDate, truthy, hdates date]

theorem calculationDate_clearAccount (P : Platform) (a : Account) :
    GoodAccount.getCOGSCalculationDateValue P (clearAccount a) = none := by
  simp [GoodAccount.getCOGSCalculationDateValue, GoodAccount.getCOGSCalculationDate, clearAccount,
    GoodAccount.setCOGSCalculationDate, truthy]

/-- There is no date value exactly if the property is absent or empty. -/
theorem calculationDate_eq_none : GoodAccount.getCOGSCalculationDateValue P a = none ↔
    GoodAccount.getCOGSCalculationDate a = none ∨ GoodAccount.getCOGSCalculationDate a = some "" := by
  unfold GoodAccount.getCOGSCalculationDateValue truthy
  cases GoodAccount.getCOGSCalculationDate a with
  | none => simp
  | some date =>
    by_cases hempty : date = ""
    · simp [hempty]
    · simp [hempty]

/-- The date that a calculation writes back is the frontier with the dates of its sales. -/
theorem Frontier.stored (hdates : ReadsDates P) {b : Book} {key : String} {sales : List Transaction}
    {lastSaleTx : Transaction} (ha : b.getAccount key = some a)
    (hlast : sales.getLast? = some lastSaleTx) (hnew : IsGreatest new lastSaleTx.date)
    (h : Frontier dates (GoodAccount.getCOGSCalculationDateValue P a)) :
    ∃ a', (storeLastCalcTxDate P b a sales).getAccount key = some a' ∧ a'.name = a.name ∧
      Frontier (dates ∪ new) (GoodAccount.getCOGSCalculationDateValue P a') := by
  have hwritten : IsGreatest (dates ∪ new) lastSaleTx.date → ∃ a',
      (b.updateAccount (GoodAccount.setCOGSCalculationDate a
        (P.dateText lastSaleTx.date))).getAccount key = some a' ∧ a'.name = a.name ∧
        Frontier (dates ∪ new) (GoodAccount.getCOGSCalculationDateValue P a') := by
    intro hgreatest
    refine ⟨_, getAccount_updateAccount ha rfl rfl, rfl, ?_⟩
    rw [calculationDate_setCOGSCalculationDate hdates]
    exact .date hgreatest
  unfold storeLastCalcTxDate
  rw [hlast]
  dsimp only
  generalize hvalue : GoodAccount.getCOGSCalculationDateValue P a = value at h
  cases h with
  | absent hnone =>
    refine hwritten ?_
    rwa [hnone, Set.empty_union]
  | @date date hgreatest =>
    have hunion := hgreatest.union hnew
    dsimp only
    split
    · rename_i hlt
      rw [max_eq_right hlt.le] at hunion
      exact hwritten hunion
    · rename_i hge
      rw [max_eq_left (not_lt.1 hge)] at hunion
      refine ⟨a, ha, rfl, ?_⟩
      rw [hvalue]
      exact .date hunion

end Account

/-! ## What a calculation checks -/

section Calculation

variable {P : Platform} {env : RunEnv} {s s' : State} {goodAccountId account : String}
  {goodAccount : Account} {day : Date} {d d' : Desk}

/-- Only sales before the date are checked on the desk. -/
def ChecksBefore (account : String) (before : Date) (store : List Transaction) (d : Desk) : Prop :=
  ∀ t ∈ d.stored, t.moves account → BotService.isSale t → t.checked = true →
    t ∈ store ∨ t.date < before

theorem Move.checksBefore {fb : Book} {digits : ℕ} {before : Date} {store : List Transaction}
    (hround : P.round 0 digits = 0) (hd : SalesDesk account before d)
    (h : Move P env fb digits account before (· = 0) d d')
    (hbefore : ChecksBefore account before store d) : ChecksBefore account before store d' := by
  intro t ht hmoves hkind hchecked
  rcases h.sale_cases hround hd with
    ⟨-, hsales⟩ | ⟨sale, cost, entries, hsale, -, -, hstored, -⟩
  · exact hbefore t ((hsales t hkind).1 ht) hmoves hkind hchecked
  · rw [hstored] at ht
    rcases mem_overwrite ht with rfl | ht
    · exact Or.inr hsale.date
    · exact hbefore t ht hmoves hkind hchecked

theorem Moves.checksBefore {fb : Book} {digits : ℕ} {before : Date} {store : List Transaction}
    (hround : P.round 0 digits = 0) (hd : SalesDesk account before d)
    (h : Moves P env fb digits account before (· = 0) d d')
    (hbefore : ChecksBefore account before store d) : ChecksBefore account before store d' := by
  have hkept := h.preserves
    (I := fun e => SalesDesk account before e ∧ ChecksBefore account before store e)
    (fun _ _ hmove he => ⟨hmove.salesDesk he.1, Move.checksBefore hround he.1 hmove he.2⟩)
    ⟨hd, hbefore⟩
  exact hkept.2

/-- A checked transaction is stored after a calculation as it was. -/
theorem CalculationFires.keeps_checked {closes : ℚ → Prop} (hwf : WellFormed s.inventoryBook)
    (h : CalculationFires P env s goodAccountId day closes goodAccount d s') {t : Transaction}
    (ht : t ∈ s.inventoryBook.transactions) (hchecked : t.checked = true) :
    t ∈ s'.inventoryBook.transactions := by
  have hid : t.id ∈ d.stored.map Transaction.id := h.moves.ids ▸ List.mem_map_of_mem ht
  obtain ⟨t', ht', hid⟩ := List.mem_map.1 hid
  obtain ⟨u, hu, htrace⟩ := h.moves.stored_trace t' ht'
  have hsame := sameIdentity_of_trace htrace
  obtain rfl : u = t := List.inj_on_of_nodup_map hwf.ids hu ht (hsame.id.symm.trans hid)
  rw [eq_of_trace_of_checked htrace hchecked] at ht'
  rw [h.inventory]
  exact List.mem_append_left _ ht'

/-- A sale of the account after a calculation was stored before it. -/
theorem CalculationFires.sale_trace {closes : ℚ → Prop} (hwf : WellFormed s.inventoryBook)
    (hfresh : env.Fresh s)
    (h : CalculationFires P env s goodAccountId day closes goodAccount d s') {t' : Transaction}
    (ht' : t' ∈ s'.inventoryBook.transactions) (hmoves : t'.moves goodAccount.name)
    (hkind : BotService.isSale t') :
    t' ∈ d.stored ∧ ∃ t ∈ s.inventoryBook.transactions, t.moves goodAccount.name ∧
      BotService.isSale t ∧ Relation.ReflTransGen (Written P) t t' := by
  rcases h.mem_cases ht' with ⟨hstored, t, ht, htrace⟩ | ⟨k, u, -, rfl, p, -, hsplit, hpurchase⟩
  · have hsame := sameIdentity_of_trace htrace
    exact ⟨hstored, t, ht, hsame.moves goodAccount.name ▸ hmoves, hsame.isSale ▸ hkind, htrace⟩
  · obtain ⟨a', ha', hsame, -⟩ := h.account
    have hside : OneSided (Book.post (env.inventoryId k) env.now u) :=
      (h.wellFormed hwf hfresh).oneSided ha' (hsame.type ▸ h.passed.notIncoming)
        (hsame.type ▸ h.passed.notOutgoing) ht' (hsame.name ▸ hmoves)
    exact absurd hkind (hside.not_sale (isPurchase_post _ _ hsplit hpurchase))

theorem sortable_resetRow {account : String} {t : Transaction} (ht : Sortable P t) :
    Sortable P (resetRow P account t) := by
  rcases resetRow_cases P account t with h | ⟨-, h⟩
  · rwa [h]
  · rcases resetUpdate_cases h with ⟨-, he⟩ | ⟨-, _, _, -, -, he⟩ | ⟨-, -, -, he⟩ <;>
      exact he ▸ ⟨ht.order, ht.createdAt⟩

/-- A calculation that closes its sales adds their dates to those of the checked sales. -/
theorem CalculationFires.calculatedDates (hP : P.Exact) (hwf : WellFormed s.inventoryBook)
    (hfresh : env.Fresh s) (hpos : PositiveListing (listTransactions s.inventoryBook goodAccount day))
    (h : CalculationFires P env s goodAccountId day (· = 0) goodAccount d s')
    (hallocated : ∀ t ∈ (listTransactions s.inventoryBook goodAccount day).filter isOpenSale,
      ∃ t' ∈ s'.inventoryBook.transactions, t'.id = t.id ∧ Allocated t' ∧ t'.amount = t.amount) :
    System.calculatedDates goodAccount.name s'.inventoryBook.transactions =
      System.calculatedDates goodAccount.name s.inventoryBook.transactions ∪
        listedDates (listTransactions s.inventoryBook goodAccount day) := by
  have hstart : SalesDesk goodAccount.name (BotService.getBeforeDateIsoString day)
      (Desk.start s.inventoryBook.transactions) :=
    salesDesk_start hwf h.passed.account h.passed.notIncoming h.passed.notOutgoing
      fun t hin hopen =>
        have hlisted := mem_openSales.2 ⟨hin, hopen⟩
        hpos t (List.mem_of_mem_filter hlisted) (Or.inl (List.of_mem_filter hlisted))
  have hbefore : ChecksBefore goodAccount.name (BotService.getBeforeDateIsoString day)
      s.inventoryBook.transactions d :=
    Moves.checksBefore (hP.round_zero _) hstart h.moves fun t ht _ _ _ => Or.inl ht
  have hids := (h.wellFormed hwf hfresh).ids
  refine Set.Subset.antisymm ?_ (Set.union_subset ?_ ?_)
  · rintro _ ⟨t', ht', hmoves, hkind, hchecked, rfl⟩
    obtain ⟨hstored, t, ht, hm, hk, htrace⟩ :=
      CalculationFires.sale_trace hwf hfresh h ht' hmoves hkind
    have hsame := sameIdentity_of_trace htrace
    cases hopen : t.checked with
    | true =>
      rw [eq_of_trace_of_checked htrace hopen]
      exact Or.inl ⟨t, ht, hm, hk, hopen, rfl⟩
    | false =>
      rcases hbefore t' hstored hmoves hkind hchecked with hold | hdate
      · have heq : t' = t := List.inj_on_of_nodup_map hwf.ids hold ht hsame.id
        rw [heq, hopen] at hchecked
        cases hchecked
      · exact Or.inr ⟨t, mem_openSales.2 ⟨⟨ht, hm, hsame.date ▸ hdate, hk⟩, hopen⟩,
          hsame.date.symm⟩
  · rintro _ ⟨t, ht, hmoves, hkind, hchecked, rfl⟩
    exact ⟨t, CalculationFires.keeps_checked hwf h ht hchecked, hmoves, hkind, hchecked, rfl⟩
  · rintro _ ⟨t, ht, rfl⟩
    obtain ⟨hin, -⟩ := mem_openSales.1 ht
    obtain ⟨t', ht', hid, hdone, -⟩ := hallocated t ht
    obtain ⟨t'', ht'', hsame⟩ := h.forward hwf hin.stored
    obtain rfl : t'' = t' := List.inj_on_of_nodup_map hids ht'' ht' (hsame.id.trans hid.symm)
    exact ⟨t'', ht', hsame.moves goodAccount.name ▸ hin.moves, hsame.isSale ▸ hin.kind, hdone.1,
      hsame.date⟩

end Calculation

/-! ## Between runs -/

/-- What the steps keep about an account whose sales can be sorted. -/
structure FrontierState (P : Platform) (goodAccountId account : String) (s : State) : Prop where
  links : LinkState goodAccountId account s
  sortable : ∀ t ∈ s.inventoryBook.transactions, t.moves account → BotService.isSale t →
    Sortable P t
  frontier : ∃ a, s.inventoryBook.getAccount goodAccountId = some a ∧ a.name = account ∧
    Frontier (calculatedDates account s.inventoryBook.transactions)
      (GoodAccount.getCOGSCalculationDateValue P a)

/-- The webhook has replicated a transaction and left the properties of the account alone. A sale
    has a number or nothing as its order, and its creation time is known. -/
structure Arrives (P : Platform) (goodAccountId account : String) (s : State) (t : Transaction)
    (s' : State) : Prop where
  replicates : Replicates goodAccountId account s t s'
  sortable : t.moves account → BotService.isSale t → Sortable P t
  properties : ∀ a a', s.inventoryBook.getAccount goodAccountId = some a →
    s'.inventoryBook.getAccount goodAccountId = some a' → a'.properties = a.properties

/-- What happens to an account: a completed calculation, a reset, or a new transaction that does
    not touch the properties of the account. -/
inductive FrontierStep (P : Platform) (collection : Option (List BookInfo))
    (goodAccountId account : String) : State → State → Prop
  | calculate {s s' : State} (h : Calculates P collection goodAccountId s s') :
      FrontierStep P collection goodAccountId account s s'
  | reset {s : State} : FrontierStep P collection goodAccountId account s
      (resetCostOfSalesForAccount P collection s goodAccountId).1
  | arrive {s s' : State} {t : Transaction} (h : Arrives P goodAccountId account s t s') :
      FrontierStep P collection goodAccountId account s s'

section Steps

variable {P : Platform} {collection : Option (List BookInfo)} {s s' : State}
  {goodAccountId account : String}

/-- A calculation moves the frontier to the last sale that it lists. -/
theorem frontier_calculate (hP : P.Exact) (hdates : ReadsDates P) {env : RunEnv}
    {toDate : Option Date} (hfresh : env.Fresh s) {goodAccount : Account}
    {sales : List Transaction} {processor : CalculateCostOfSalesProcessor}
    (hplan : planCalculation P collection env s goodAccountId toDate =
      .ok (.fire goodAccount sales processor))
    (hs : FrontierState P goodAccountId goodAccount.name s) :
    FrontierState P goodAccountId goodAccount.name
      (calculateCostOfSalesForAccount P collection env s goodAccountId toDate).1 := by
  have hwf := hs.links.wellFormed
  obtain ⟨hpassed, hlisting⟩ := planCalculation_fire hplan
  obtain ⟨hpos, hcovered⟩ := hs.links.covered hP rfl hpassed
  obtain ⟨d, hfires⟩ := calculation_fires (· = 0) hwf hfresh hplan
    fun _ _ hnotes => hcovered.enough hP hpos hnotes
  have hkind : ∀ t ∈ s.inventoryBook.transactions, t.moves goodAccount.name → OneKind t :=
    fun t ht hm => hwf.oneKind hpassed.account hpassed.notIncoming hpassed.notOutgoing ht hm
  -- every listed sale is checked
  have hqueued := (planListing_allocated_iff hP hwf.ids hkind hpos hlisting).2 hcovered
  have hadded := CalculationFires.calculatedDates hP hwf hfresh hpos hfires fun t ht =>
    have hin := mem_openSales.1 ht
    (queuedAllocated_iff hwf hfresh hplan hin.1.stored hin.2).1 (hqueued t ht)
  -- and the last of them has the latest date
  have hsorted : ∀ t ∈ (listTransactions s.inventoryBook goodAccount
      (toDate.getD env.today)).filter isOpenSale, Sortable P t := by
    intro t ht
    obtain ⟨hin, -⟩ := mem_openSales.1 ht
    exact hs.sortable t hin.stored hin.moves hin.kind
  obtain ⟨-, rfl, -⟩ := planListing_fire hlisting
  refine ⟨hfires.linkState hP hs.links hfresh, ?_, ?_⟩
  · intro t' ht' hmoves hsale
    obtain ⟨-, t, ht, hm, hk, htrace⟩ := CalculationFires.sale_trace hwf hfresh hfires ht' hmoves hsale
    exact sortable_of_trace htrace (hs.sortable t ht hm hk)
  · obtain ⟨a, ha, -, hfrontier⟩ := hs.frontier
    obtain rfl : a = goodAccount := Option.some.inj (ha.symm.trans hpassed.account)
    have hresult : (calculateCostOfSalesForAccount P collection env s goodAccountId
        toDate).1.inventoryBook = storeLastCalcTxDate P
          (processor.fireBatchOperations env 3 s).inventoryBook a
          (BotService.sortFIFO P (listingOf P s.inventoryBook a
            (toDate.getD env.today)).goodAccountSaleTransactions) := by
      rw [calculate_of_fire hplan]
    have hl : (listingOf P s.inventoryBook a (toDate.getD env.today)).goodAccountSaleTransactions =
        (listTransactions s.inventoryBook a (toDate.getD env.today)).filter isOpenSale :=
      collect_sales _ _
    rw [hadded, hresult]
    cases hlast : (BotService.sortFIFO P (listingOf P s.inventoryBook a
        (toDate.getD env.today)).goodAccountSaleTransactions).getLast? with
    | none =>
      -- a calculation fires for at least one sale
      have hperm := sortFIFO_perm (P := P) (listingOf P s.inventoryBook a
        (toDate.getD env.today)).goodAccountSaleTransactions
      rw [List.getLast?_eq_none_iff.1 hlast] at hperm
      have hnil := List.nil_perm.1 hperm
      refine absurd ?_ hpassed.selling
      rw [(collect_totals _ hP).1, ← hl, hnil]
      rfl
    | some lastSaleTx =>
      have hnew := sortFIFO_getLast_date hsorted (hl ▸ hlast)
      exact Frontier.stored hdates (b := (processor.fireBatchOperations env 3 s).inventoryBook) ha
        hlast hnew hfrontier

theorem frontier_reset (hs : FrontierState P goodAccountId account s) :
    FrontierState P goodAccountId account
      (resetCostOfSalesForAccount P collection s goodAccountId).1 := by
  rcases reset_cases (P := P) collection goodAccountId hs.links.wellFormed.ids with
    ⟨hsame, -⟩ | ⟨-, goodAccount, hdone⟩
  · rwa [hsame]
  · obtain ⟨a, ha, rfl, -⟩ := hs.frontier
    obtain rfl : a = goodAccount := Option.some.inj (ha.symm.trans hdone.account)
    refine ⟨hdone.linkState hs.links, ?_, clearAccount a, hdone.cleared, rfl, ?_⟩
    · intro t' ht' hmoves hkind
      obtain ⟨t, ht, hm, -, hsame, rfl⟩ := hdone.mem_moves hs.links ht' hmoves
      exact sortable_resetRow (hs.sortable t ht hm (hsame.isSale ▸ hkind))
    · rw [calculationDate_clearAccount]
      refine .absent (calculatedDates_eq_empty.2 fun t ht hmoves hkind => ?_)
      exact (hdone.sales_open hs.links ht hmoves hkind).1

/-- A new transaction is open. -/
theorem frontier_arrive {t : Transaction} (h : Arrives P goodAccountId account s t s')
    (hs : FrontierState P goodAccountId account s) : FrontierState P goodAccountId account s' := by
  have hopen : t.checked = false := by cases h.replicates.replicated <;> rfl
  have hsame : calculatedDates account s'.inventoryBook.transactions =
      calculatedDates account s.inventoryBook.transactions := by
    rw [h.replicates.inventory, calculatedDates_append_open hopen]
  refine ⟨h.replicates.linkState hs.links, ?_, ?_⟩
  · intro u hu hmoves hkind
    rw [h.replicates.inventory, List.mem_append, List.mem_singleton] at hu
    rcases hu with hu | rfl
    · exact hs.sortable u hu hmoves hkind
    · exact h.sortable hmoves hkind
  · obtain ⟨a, ha, -, hfrontier⟩ := hs.frontier
    obtain ⟨a', ha', hname⟩ := h.replicates.found
    refine ⟨a', ha', hname, ?_⟩
    rw [hsame, calculationDate_congr P (h.properties a a' ha ha')]
    exact hfrontier

/-- Every step keeps the frontier. -/
theorem FrontierStep.frontierState (hP : P.Exact) (hdates : ReadsDates P)
    (hstep : FrontierStep P collection goodAccountId account s s')
    (hs : FrontierState P goodAccountId account s) :
    FrontierState P goodAccountId account s' := by
  cases hstep with
  | calculate h =>
    cases h with
    | run env toDate hfresh =>
      rcases calculate_cases P collection env s goodAccountId toDate with
        hsame | hsame | ⟨-, hreset⟩ | ⟨goodAccount, sales, processor, hplan, -⟩
      · rwa [hsame]
      · rw [hsame]
        exact { hs with links := { hs.links with } }
      · rw [hreset]
        exact frontier_reset hs
      · obtain ⟨a, ha, rfl, -⟩ := hs.frontier
        obtain ⟨hpassed, -⟩ := planCalculation_fire hplan
        obtain rfl : a = goodAccount := Option.some.inj (ha.symm.trans hpassed.account)
        exact frontier_calculate hP hdates hfresh hplan hs
  | reset => exact frontier_reset hs
  | arrive h => exact frontier_arrive h hs

/-- **The calculation date is the frontier of the calculated sales.** Over calculations, resets and
    new transactions, in exact arithmetic: `cogs_calc_date` is absent or empty exactly if no sale
    of the account is checked, and otherwise shows the latest date of a checked sale. -/
theorem cogs_calc_date_frontier (hP : P.Exact) (hdates : ReadsDates P) {s₀ : State} {a₀ : Account}
    (hwf : WellFormed s₀.inventoryBook)
    (ha : s₀.inventoryBook.getAccount goodAccountId = some a₀)
    (hstart : NothingCalculated a₀.name s₀)
    (hdate : GoodAccount.getCOGSCalculationDate a₀ = none)
    (hsortable : ∀ t ∈ s₀.inventoryBook.transactions, t.moves a₀.name → BotService.isSale t →
      Sortable P t)
    (hsteps : Relation.ReflTransGen (FrontierStep P collection goodAccountId a₀.name) s₀ s) :
    ∃ a, s.inventoryBook.getAccount goodAccountId = some a ∧
      ((GoodAccount.getCOGSCalculationDate a = none ∨
          GoodAccount.getCOGSCalculationDate a = some "") ↔
        ∀ t ∈ s.inventoryBook.transactions, t.moves a₀.name → BotService.isSale t →
          t.checked = false) ∧
      (¬(GoodAccount.getCOGSCalculationDate a = none ∨
          GoodAccount.getCOGSCalculationDate a = some "") →
        ∃ date, GoodAccount.getCOGSCalculationDateValue P a = some (some date) ∧
          IsGreatest {date | ∃ t ∈ s.inventoryBook.transactions, t.moves a₀.name ∧
            BotService.isSale t ∧ t.checked = true ∧ t.date = date} date) := by
  have hs : FrontierState P goodAccountId a₀.name s := by
    induction hsteps with
    | refl =>
      refine ⟨hstart.linkState hwf ha, hsortable, a₀, ha, rfl, ?_⟩
      rw [calculationDate_eq_none.2 (Or.inl hdate)]
      exact .absent (calculatedDates_eq_empty.2 fun t ht hm hk => (hstart.unsold t ht hm hk).1)
    | tail _ hstep ih => exact hstep.frontierState hP hdates ih
  obtain ⟨a, ha, -, hfrontier⟩ := hs.frontier
  refine ⟨a, ha, ?_⟩
  rw [← calculationDate_eq_none (P := P), ← calculatedDates_eq_empty]
  generalize GoodAccount.getCOGSCalculationDateValue P a = value at hfrontier
  cases hfrontier with
  | absent hnone => exact ⟨by simp [hnone], fun h => absurd rfl h⟩
  | @date date hgreatest =>
    have hsome := hgreatest.nonempty.ne_empty
    exact ⟨by simp [hsome], fun _ => ⟨date, rfl, hgreatest⟩⟩

end Steps

namespace Sample

theorem tallyPlatform_exact : tallyPlatform.Exact :=
  ⟨decimalPlatform_exact.div, decimalPlatform_exact.round_zero, decimalPlatform_exact.toNumber,
    decimalPlatform_exact.numberAdd, decimalPlatform_exact.numberSub⟩

/-- The sample account after a calculation. -/
def settled : State :=
  (calculateCostOfSalesForAccount tallyPlatform Menu.Sample.collection (Menu.Sample.env 9)
    Menu.Sample.start "a-widgets" none).1

end Sample

/-- After a calculation of the sample account its date is that of the sale. -/
theorem cogs_calc_date_frontier_sample :
    ∃ a date, Sample.settled.inventoryBook.getAccount "a-widgets" = some a ∧
      GoodAccount.getCOGSCalculationDateValue Sample.tallyPlatform a = some (some date) ∧
      IsGreatest {date | ∃ t ∈ Sample.settled.inventoryBook.transactions, t.moves "Widgets" ∧
        BotService.isSale t ∧ t.checked = true ∧ t.date = date} date := by
  have hsortable : ∀ t ∈ Menu.Sample.start.inventoryBook.transactions, t.moves "Widgets" →
      BotService.isSale t → Sortable Sample.tallyPlatform t := by
    have hplain : ∀ t ∈ Menu.Sample.start.inventoryBook.transactions,
        t.order = none ∧ t.createdAt ≠ none := by decide +kernel
    intro t ht _ _
    obtain ⟨horder, hcreated⟩ := hplain t ht
    exact ⟨⟨0, by simp [BotService.orderValue, horder]⟩, hcreated⟩
  have hstep : FrontierStep Sample.tallyPlatform Menu.Sample.collection "a-widgets" "Widgets"
      Menu.Sample.start Sample.settled :=
    .calculate (.run (Menu.Sample.env 9) none Menu.Sample.env_fresh)
  obtain ⟨a, ha, hnone, hlatest⟩ := cogs_calc_date_frontier Sample.tallyPlatform_exact
    Sample.tallyPlatform_readsDates Menu.Sample.start_wellFormed Menu.Sample.getAccount_start
    Menu.Sample.start_nothingCalculated rfl hsortable (.single hstep)
  have hchecked : ¬∀ t ∈ Sample.settled.inventoryBook.transactions, t.moves "Widgets" →
      BotService.isSale t → t.checked = false := by decide +kernel
  obtain ⟨date, hdate, hgreatest⟩ := hlatest fun h => hchecked (hnone.1 h)
  exact ⟨a, date, ha, hdate, hgreatest⟩

end InventoryBot.System
