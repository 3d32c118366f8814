import InventoryBot.Menu.Processable
import InventoryBot.Menu.SettledSales

/-!
# Is the quantity guard sound?

The guard counts every listed purchase, the maps keep one purchase of a code. A run that passes
the guard allocates its sales in full exactly if what the maps keep covers them and nothing is
missing that the run reads.

* `calculate_fired`: what a run that reports `Calculated` has planned.
* `rerun_writes_nothing`: without open sales in its listing a run writes nothing.
* `guardSound_fired_iff`: a run that fires its batches, by what the maps keep.
* `not_guardSound_of_threw`: a run that ends with an error leaves its sales open.
* `quantity_guard_sound_iff`: the runs on which the guard delivers what it is there for.
-/

namespace InventoryBot.Menu

open Lib CostOfSalesService

section Plans

variable {P : Platform} {collection : Option (List BookInfo)} {env : RunEnv} {s s' : State}
  {goodAccountId : String} {toDate : Option Date}

/-- A listing that passed the guard is stopped by a credit note or by a locked transaction. -/
theorem planListing_stop {fb ib : Book} {a : Account} {l : Listing} {summary : Summary}
    (h : planListing P env fb ib a l = .ok (.stop summary)) :
    (∃ number, summary = .creditNoteQuantityError number) ∨ summary = .lockError := by
  unfold planListing at h
  obtain ⟨result, -, h⟩ := bind_eq_ok.1 h
  cases result with
  | stop number =>
    cases h
    exact Or.inl ⟨number, rfl⟩
  | done purchases processor =>
    obtain ⟨result, -, h⟩ := bind_eq_ok.1 h
    cases result with
    | none =>
      cases h
      exact Or.inr rfl
    | some r => cases h

theorem planListing_ne_reset {fb ib : Book} {a : Account} {l : Listing} :
    planListing P env fb ib a l ≠ .ok .reset := by
  intro h
  unfold planListing at h
  obtain ⟨result, -, h⟩ := bind_eq_ok.1 h
  cases result with
  | stop number => cases h
  | done purchases processor =>
    obtain ⟨result, -, h⟩ := bind_eq_ok.1 h
    cases result <;> cases h

/-- A calculation that stops does not report `Calculated`. -/
theorem planCalculation_stop {summary : Summary}
    (h : planCalculation P collection env s goodAccountId toDate = .ok (.stop summary)) :
    summary ≠ .calculatingAsync := by
  unfold planCalculation at h
  obtain ⟨⟨a, book⟩, -, h⟩ := bind_eq_ok.1 h
  simp only at h
  split at h
  · cases h
  · split at h
    · cases h
      simp
    · split at h
      · cases h
        simp
      · split at h
        · cases h
          simp
        · rcases planListing_stop h with ⟨number, rfl⟩ | rfl <;> simp

/-- A run that reports `Calculated` has fired its batches. -/
theorem calculate_fired
    (h : calculateCostOfSalesForAccount P collection env s goodAccountId toDate =
      (s', .returned .calculatingAsync)) :
    ∃ goodAccount sales processor, planCalculation P collection env s goodAccountId toDate =
      .ok (.fire goodAccount sales processor) := by
  unfold calculateCostOfSalesForAccount at h
  cases hplan : planCalculation P collection env s goodAccountId toDate with
  | error e =>
    rw [hplan] at h
    cases h
  | ok plan =>
    rw [hplan] at h
    cases plan with
    | stop summary =>
      simp only [Prod.mk.injEq, Outcome.returned.injEq] at h
      exact absurd h.2 (planCalculation_stop hplan)
    | reset =>
      dsimp only at h
      split at h <;> simp at h
    | fire goodAccount sales processor => exact ⟨goodAccount, sales, processor, rfl⟩

/-- Without open sales in its listing a run writes nothing. -/
theorem rerun_writes_nothing
    (h : ∀ a, s.inventoryBook.getAccount goodAccountId = some a →
      GoodAccount.needsRebuild a = false ∧
        (listTransactions s.inventoryBook a (toDate.getD env.today)).filter isOpenSale = []) :
    (calculateCostOfSalesForAccount P collection env s goodAccountId toDate).1 = s := by
  have hnothing : ∀ a, s.inventoryBook.getAccount goodAccountId = some a →
      (listingOf P s.inventoryBook a (toDate.getD env.today)).totalSalesQuantity = 0 :=
    fun a ha => collect_totalSales P _ (h a ha).2
  unfold calculateCostOfSalesForAccount
  rw [booksAfterPlan_of_nothing hnothing]
  cases hplan : planCalculation P collection env s goodAccountId toDate with
  | error e => rfl
  | ok plan =>
    cases plan with
    | stop summary => rfl
    | reset =>
      obtain ⟨a, ha, hflag⟩ := planCalculation_reset hplan
      rw [(h a ha).1] at hflag
      cases hflag
    | fire goodAccount sales processor =>
      obtain ⟨hpassed, -⟩ := planCalculation_fire hplan
      exact absurd (hnothing goodAccount hpassed.account) hpassed.selling

end Plans

/-! ## What the guard is there for -/

/-- What a run from `s` to `s'` up to `toDate` does when the guard has kept its promise. -/
structure GuardSound (P : Platform) (collection : Option (List BookInfo)) (s s' : State)
    (goodAccountId : String) (goodAccount : Account) (toDate : Date) : Prop where
  /-- every unchecked sale of the run ends checked, with a log of its amount -/
  allocated : ∀ t ∈ (listTransactions s.inventoryBook goodAccount toDate).filter isOpenSale,
    ∃ t' ∈ s'.inventoryBook.transactions, t'.id = t.id ∧ Allocated t' ∧ t'.amount = t.amount
  /-- costs of sales are posted for allocated sales only -/
  posted : ∃ new, s'.financialBook.transactions = s.financialBook.transactions ++ new ∧
    ∀ c ∈ new, ∃ t ∈ s'.inventoryBook.transactions, BotService.isSale t ∧ Allocated t ∧
      c.remoteIds = [t.id]
  /-- another run up to the same day writes nothing -/
  settled : ∀ env, (calculateCostOfSalesForAccount P collection env s' goodAccountId
    (some toDate)).1 = s'

section Guard

variable {P : Platform} {collection : Option (List BookInfo)} {env : RunEnv} {s s' : State}
  {goodAccountId : String} {toDate : Option Date} {goodAccount : Account}

/-- Checked rows are not rewritten. -/
theorem eq_of_trace_of_checked {t t' : Transaction} (h : Relation.ReflTransGen (Written P) t t')
    (hchecked : t.checked = true) : t' = t := by
  induction h with
  | refl => rfl
  | tail _ hw ih =>
    have hunchecked := hw.unchecked
    rw [ih, hchecked] at hunchecked
    cases hunchecked

/-- The inventory transactions after a run that fired its batches. -/
theorem fired_inventory {sales : List Transaction} {processor : CalculateCostOfSalesProcessor}
    (hwf : WellFormed s.inventoryBook) (hfresh : env.Fresh s)
    (hplan : planCalculation P collection env s goodAccountId toDate =
      .ok (.fire goodAccount sales processor)) :
    Book.KeyedById processor.inventoryBookTransactionsToUpdateMap ∧ ∃ created,
      (calculateCostOfSalesForAccount P collection env s goodAccountId
          toDate).1.inventoryBook.transactions =
        s.inventoryBook.transactions.map
            (Book.updated processor.inventoryBookTransactionsToUpdateMap.values) ++
          Book.postAll env.inventoryId env.now created := by
  obtain ⟨-, d, -, -, hcoherent⟩ := planCalculation_moves (fun _ => True) hwf hfresh hplan
    fun _ _ _ => Or.inl fun _ => trivial
  refine ⟨hcoherent.keyed, d.created, ?_⟩
  rw [calculate_of_fire hplan, ← hcoherent.stored]
  exact (storeLastCalcTxDate_transactions _ _ _).trans
    (fireBatchOperations_desk hcoherent hfresh.inventoryIds).1

/-- A stored sale is allocated after a run exactly if the run has queued it so. -/
theorem queuedAllocated_iff {sales : List Transaction} {processor : CalculateCostOfSalesProcessor}
    (hwf : WellFormed s.inventoryBook) (hfresh : env.Fresh s)
    (hplan : planCalculation P collection env s goodAccountId toDate =
      .ok (.fire goodAccount sales processor)) {t : Transaction}
    (ht : t ∈ s.inventoryBook.transactions) (hopen : t.checked = false) :
    QueuedAllocated processor t ↔
      ∃ t' ∈ (calculateCostOfSalesForAccount P collection env s goodAccountId
        toDate).1.inventoryBook.transactions, t'.id = t.id ∧ Allocated t' ∧ t'.amount = t.amount := by
  obtain ⟨hkeyed, created, hinventory⟩ := fired_inventory hwf hfresh hplan
  rw [hinventory]
  constructor
  · rintro ⟨u, hu, hallocated, hamount⟩
    have hrow : Book.updated processor.inventoryBookTransactionsToUpdateMap.values t = u := by
      rw [Book.updated_values hkeyed, hu]
      rfl
    exact ⟨u, List.mem_append_left _ (List.mem_map.2 ⟨t, ht, hrow⟩), hkeyed _ _ hu, hallocated,
      hamount⟩
  · rintro ⟨t', ht', hid, hallocated, hamount⟩
    rcases List.mem_append.1 ht' with ht' | ht'
    · obtain ⟨u, hu, rfl⟩ := List.mem_map.1 ht'
      rw [Book.updated_values_id hkeyed] at hid
      obtain rfl : u = t := List.inj_on_of_nodup_map hwf.ids hu ht hid
      rw [Book.updated_values hkeyed] at hallocated hamount
      cases hget : processor.inventoryBookTransactionsToUpdateMap.get u.id with
      | none =>
        rw [hget] at hallocated
        have hchecked : u.checked = true := hallocated.1
        rw [hopen] at hchecked
        cases hchecked
      | some v =>
        rw [hget] at hallocated hamount
        exact ⟨v, hget, hallocated, hamount⟩
    · obtain ⟨k, v, -, rfl⟩ := Book.mem_postAll ht'
      have hk : env.inventoryId k = t.id := hid
      exact absurd (List.mem_cons_of_mem _ (hk ▸ List.mem_map_of_mem ht))
        (hfresh.inventoryIds.new k)

theorem mem_openSales {b : Book} {a : Account} {day : Date} {t : Transaction} :
    t ∈ (listTransactions b a day).filter isOpenSale ↔
      InListing BotService.isSale a.name (BotService.getBeforeDateIsoString day) b.transactions t ∧
        t.checked = false := by
  rw [List.mem_filter, mem_listTransactions, isOpenSale, Bool.and_eq_true, Bool.not_eq_true']
  constructor
  · rintro ⟨⟨ht, hmoves, hdate⟩, hopen, hkind⟩
    exact ⟨⟨ht, hmoves, hdate, hkind⟩, hopen⟩
  · rintro ⟨h, hopen⟩
    exact ⟨⟨h.stored, h.moves, h.date⟩, hopen, h.kind⟩

/-- After a run that allocated its sales, none of them is open. -/
theorem CalculationFires.no_open_sales {closes : ℚ → Prop} {day : Date} {d : Desk}
    (h : CalculationFires P env s goodAccountId day closes goodAccount d s')
    (hwf : WellFormed s.inventoryBook) (hfresh : env.Fresh s)
    (hallocated : ∀ t ∈ (listTransactions s.inventoryBook goodAccount day).filter isOpenSale,
      ∃ t' ∈ s'.inventoryBook.transactions, t'.id = t.id ∧ Allocated t' ∧ t'.amount = t.amount)
    {a : Account} (ha : a.name = goodAccount.name) :
    (listTransactions s'.inventoryBook a day).filter isOpenSale = [] := by
  refine List.filter_eq_nil_iff.2 fun t' ht' hopen => ?_
  obtain ⟨hin, hunchecked⟩ := mem_openSales.1 (List.mem_filter.2 ⟨ht', hopen⟩)
  rw [ha] at hin
  rcases h.mem_cases hin.stored with ⟨-, t, ht, htrace⟩ | ⟨k, u, hu, rfl, p, hp, hsplit, hkind⟩
  · have hsame := sameIdentity_of_trace htrace
    cases hchecked : t.checked with
    | true =>
      rw [eq_of_trace_of_checked htrace hchecked, hchecked] at hunchecked
      cases hunchecked
    | false =>
      have hlisted : InListing BotService.isSale goodAccount.name
          (BotService.getBeforeDateIsoString day) s.inventoryBook.transactions t :=
        ⟨ht, hsame.moves goodAccount.name ▸ hin.moves, hsame.date ▸ hin.date,
          hsame.isSale ▸ hin.kind⟩
      obtain ⟨t'', ht'', hid, hdone, -⟩ := hallocated t (mem_openSales.2 ⟨hlisted, hchecked⟩)
      obtain rfl : t'' = t' := List.inj_on_of_nodup_map (h.wellFormed hwf hfresh).ids ht'' hin.stored
        (hid.trans hsame.id.symm)
      rw [hdone.1] at hunchecked
      cases hunchecked
  · have hchecked : u.checked = false := hunchecked
    rw [hsplit.checked] at hchecked
    cases hchecked

/-- A run that fires its batches allocates every sale, posts no cost for another sale and leaves
    nothing to a second run, exactly if the purchases kept, less the credit notes applied to them,
    cover the sales. -/
theorem guardSound_fired_iff (hP : P.Exact) (hwf : WellFormed s.inventoryBook)
    (hfresh : env.Fresh s) (haccount : s.inventoryBook.getAccount goodAccountId = some goodAccount)
    (hpos : PositiveListing (listTransactions s.inventoryBook goodAccount (toDate.getD env.today)))
    {a : Account} {sales : List Transaction} {processor : CalculateCostOfSalesProcessor}
    (hplan : planCalculation P collection env s goodAccountId toDate =
      .ok (.fire a sales processor)) {outcome : Outcome}
    (hrun : calculateCostOfSalesForAccount P collection env s goodAccountId toDate =
      (s', outcome)) :
    GuardSound P collection s s' goodAccountId goodAccount (toDate.getD env.today) ↔
      Covered (listTransactions s.inventoryBook goodAccount (toDate.getD env.today)) := by
  obtain ⟨hpassed, hlisting⟩ := planCalculation_fire hplan
  obtain rfl : a = goodAccount := Option.some.inj (hpassed.account.symm.trans haccount)
  have hkind : ∀ t ∈ s.inventoryBook.transactions, t.moves a.name → OneKind t :=
    fun t ht hm => hwf.oneKind hpassed.account hpassed.notIncoming hpassed.notOutgoing ht hm
  have hqueued := fun t ht => queuedAllocated_iff hwf hfresh hplan (t := t) ht
  rw [hrun] at hqueued
  rw [← planListing_allocated_iff hP hwf.ids hkind hpos hlisting]
  constructor
  · intro hsound t ht
    obtain ⟨hin, hopen⟩ := mem_openSales.1 ht
    exact (hqueued t hin.stored hopen).2 (hsound.allocated t ht)
  · intro hall
    have hcovered := (planListing_allocated_iff hP hwf.ids hkind hpos hlisting).1 hall
    have hallocated : ∀ t ∈ (listTransactions s.inventoryBook a
        (toDate.getD env.today)).filter isOpenSale, ∃ t' ∈ s'.inventoryBook.transactions,
          t'.id = t.id ∧ Allocated t' ∧ t'.amount = t.amount := by
      intro t ht
      obtain ⟨hin, hopen⟩ := mem_openSales.1 ht
      exact (hqueued t hin.stored hopen).1 (hall t ht)
    obtain ⟨d, hfires⟩ := calculation_fires (· = 0) hwf hfresh hplan
      fun _ _ hnotes => hcovered.enough hP hpos hnotes
    rw [hrun] at hfires
    refine ⟨hallocated, ⟨_, hfires.financial, ?_⟩, fun env' => ?_⟩
    · intro c hc
      obtain ⟨k, u, hu, rfl⟩ := Book.mem_postAll hc
      have hstart : SalesDesk a.name (BotService.getBeforeDateIsoString (toDate.getD env.today))
          (Desk.start s.inventoryBook.transactions) :=
        salesDesk_start hwf haccount hpassed.notIncoming hpassed.notOutgoing fun t hin hopen =>
          hpos t (List.mem_of_mem_filter (mem_openSales.2 ⟨hin, hopen⟩))
            (Or.inl (List.of_mem_filter (mem_openSales.2 ⟨hin, hopen⟩)))
      obtain ⟨t, ht, -, hsale, hdone, hremote, -⟩ := hfires.moves.postedForAllocated
        (hP.round_zero _) hstart (by simp [PostedForAllocated, Desk.start]) u hu
      refine ⟨t, ?_, hsale, hdone, hremote⟩
      rw [hfires.inventory]
      exact List.mem_append_left _ ht
    · refine rerun_writes_nothing fun b hb => ?_
      obtain ⟨a', ha', hsame, hcalm⟩ := hfires.account
      obtain rfl : a' = b := Option.some.inj (ha'.symm.trans hb)
      exact ⟨hcalm, hfires.no_open_sales hwf hfresh hallocated hsame.name⟩

/-- A run that ends with an error has sales, and leaves them open. -/
theorem not_guardSound_of_threw (hwf : WellFormed s.inventoryBook)
    (hpassed : Passed P s goodAccountId (toDate.getD env.today) goodAccount) {e : Exception}
    (hplan : planCalculation P collection env s goodAccountId toDate = .error e)
    {outcome : Outcome}
    (hrun : calculateCostOfSalesForAccount P collection env s goodAccountId toDate =
      (s', outcome)) :
    ¬GuardSound P collection s s' goodAccountId goodAccount (toDate.getD env.today) := by
  intro hsound
  have hbooks : s' = booksAfterPlan P collection env s goodAccountId toDate := by
    unfold calculateCostOfSalesForAccount at hrun
    rw [hplan] at hrun
    exact (Prod.ext_iff.1 hrun).1.symm
  obtain ⟨t, ht⟩ := List.exists_mem_of_ne_nil _ fun hnone =>
    hpassed.selling (collect_totalSales P _ hnone)
  obtain ⟨hin, hopen⟩ := mem_openSales.1 ht
  obtain ⟨t', ht', hid, hallocated, -⟩ := hsound.allocated t ht
  rw [hbooks, booksAfterPlan_inventoryBook] at ht'
  obtain rfl : t' = t := List.inj_on_of_nodup_map hwf.ids ht' hin.stored hid
  rw [hallocated.1] at hopen
  cases hopen

/-- **The quantity guard.** For a run that passes the guard and that neither a credit note nor a
    locked transaction stops, every sale is allocated, no cost is posted for another sale and a
    second run writes nothing, exactly if the purchases kept, less the credit notes applied to
    them, cover the sales and nothing is missing that the run reads. -/
theorem quantity_guard_sound_iff (hP : P.Exact) (hwf : WellFormed s.inventoryBook)
    (hfresh : env.Fresh s)
    (hopen : openAccount collection s goodAccountId = .ok (goodAccount, some s.financialBook))
    (hpassed : Passed P s goodAccountId (toDate.getD env.today) goodAccount)
    (hpos : PositiveListing (listTransactions s.inventoryBook goodAccount (toDate.getD env.today)))
    {outcome : Outcome}
    (hrun : calculateCostOfSalesForAccount P collection env s goodAccountId toDate = (s', outcome))
    (hnotes : ∀ number, outcome ≠ .returned (.creditNoteQuantityError number))
    (hlock : outcome ≠ .returned .lockError) :
    GuardSound P collection s s' goodAccountId goodAccount (toDate.getD env.today) ↔
      Covered (listTransactions s.inventoryBook goodAccount (toDate.getD env.today)) ∧
        Processable P (costOfSalesBook env s)
          (listTransactions s.inventoryBook goodAccount (toDate.getD env.today)) := by
  have hlisting := planCalculation_passed hopen hpassed
  have hstop : ∀ summary, planListing P env (costOfSalesBook env s) s.inventoryBook goodAccount
      (listingOf P s.inventoryBook goodAccount (toDate.getD env.today)) ≠
        .ok (.stop summary) := by
    intro summary h
    have hreturned : outcome = .returned summary := by
      unfold calculateCostOfSalesForAccount at hrun
      rw [hlisting, h] at hrun
      exact (Prod.ext_iff.1 hrun).2.symm
    rcases planListing_stop h with ⟨number, rfl⟩ | rfl
    · exact hnotes number hreturned
    · exact hlock hreturned
  have hfires : (∃ a sales processor, planListing P env (costOfSalesBook env s) s.inventoryBook
      goodAccount (listingOf P s.inventoryBook goodAccount (toDate.getD env.today)) =
        .ok (.fire a sales processor)) ↔ Processable P (costOfSalesBook env s)
          (listTransactions s.inventoryBook goodAccount (toDate.getD env.today)) :=
    planListing_fires_iff hP hpos hstop
  rw [← hfires]
  cases hplan : planListing P env (costOfSalesBook env s) s.inventoryBook goodAccount
      (listingOf P s.inventoryBook goodAccount (toDate.getD env.today)) with
  | error e =>
    refine iff_of_false
      (not_guardSound_of_threw hwf hpassed (hlisting.trans hplan) hrun) fun h => ?_
    obtain ⟨-, a, sales, processor, hfire⟩ := h
    cases hfire
  | ok plan =>
    cases plan with
    | stop summary => exact absurd hplan (hstop summary)
    | reset => exact absurd hplan planListing_ne_reset
    | fire a sales processor =>
      rw [guardSound_fired_iff hP hwf hfresh hpassed.account hpos (hlisting.trans hplan) hrun]
      exact (and_iff_left ⟨a, sales, processor, rfl⟩).symm

end Guard

/-! ## Two purchases with one code -/

namespace Sample

/-- Two purchases of ten with one code, and a sale of fifteen. -/
def oneCode : State :=
  state [purchase "1" "P1" 1 10 100, purchase "5" "P1" 2 10 90, sale "2" "S1" 3 15 80] []

/-- The same purchases with two codes. -/
def twoCodes : State :=
  state [purchase "1" "P1" 1 10 100, purchase "5" "P2" 2 10 90, sale "2" "S1" 3 15 80] []

end Sample

/-- The guard counts both purchases, one is kept: the cost of ten is posted for a sale of fifteen,
    which stays open. -/
theorem quantity_guard_one_code :
    (calculateCostOfSalesForAccount exactPlatform Sample.collection (Sample.env 9) Sample.oneCode
        "a-widgets" none).2 = .returned .calculatingAsync ∧
      ¬GuardSound exactPlatform Sample.collection Sample.oneCode
        (calculateCostOfSalesForAccount exactPlatform Sample.collection (Sample.env 9) Sample.oneCode
          "a-widgets" none).1 "a-widgets" Sample.good 9 := by
  refine ⟨by decide +kernel, fun hsound => ?_⟩
  have hlisted : Sample.sale "2" "S1" 3 15 80 ∈ (listTransactions Sample.oneCode.inventoryBook
      Sample.good 9).filter isOpenSale := by decide +kernel
  obtain ⟨t', ht', hid, hallocated, -⟩ := hsound.allocated _ hlisted
  have hopen : ∀ t ∈ (calculateCostOfSalesForAccount exactPlatform Sample.collection (Sample.env 9)
      Sample.oneCode "a-widgets" none).1.inventoryBook.transactions, t.id = "2" →
        t.checked = false := by decide +kernel
  have hunchecked := hopen t' ht' hid
  rw [hallocated.1] at hunchecked
  cases hunchecked

/-- With two codes the sale is allocated. -/
theorem quantity_guard_sound_iff_sample :
    GuardSound exactPlatform Sample.collection Sample.twoCodes
      (calculateCostOfSalesForAccount exactPlatform Sample.collection (Sample.env 9) Sample.twoCodes
        "a-widgets" none).1 "a-widgets" Sample.good 9 := by
  have hfresh : (Sample.env 9).Fresh Sample.twoCodes :=
    ⟨Book.freshIds_unaryId (by decide), Book.freshIds_unaryId (by decide),
      Book.freshIds_unaryId (by decide)⟩
  have hrun : calculateCostOfSalesForAccount exactPlatform Sample.collection (Sample.env 9)
      Sample.twoCodes "a-widgets" none =
        ((calculateCostOfSalesForAccount exactPlatform Sample.collection (Sample.env 9)
          Sample.twoCodes "a-widgets" none).1, .returned .calculatingAsync) :=
    Prod.ext rfl (by decide +kernel)
  have hpos : PositiveListing (listTransactions Sample.twoCodes.inventoryBook Sample.good 9) := by
    unfold PositiveListing
    decide +kernel
  have hcovered : Covered (listTransactions Sample.twoCodes.inventoryBook Sample.good 9) := by
    decide +kernel
  have hwf : WellFormed Sample.twoCodes.inventoryBook := ⟨by decide, by decide⟩
  have hpassed : Passed exactPlatform Sample.twoCodes "a-widgets" 9 Sample.good :=
    ⟨by rfl, by decide, by decide, by decide, by decide +kernel, by decide +kernel⟩
  have hprocessable : Processable exactPlatform (costOfSalesBook (Sample.env 9) Sample.twoCodes)
      (listTransactions Sample.twoCodes.inventoryBook Sample.good 9) := by
    exact ⟨by decide +kernel, served_of_forall (by decide +kernel)⟩
  exact (quantity_guard_sound_iff exactPlatform_exact hwf hfresh (by rfl) hpassed hpos hrun
    (by simp) (by simp)).2 ⟨hcovered, hprocessable⟩

end InventoryBot.Menu
