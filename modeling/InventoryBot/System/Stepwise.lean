import InventoryBot.Menu.Remainder
import InventoryBot.System.Frontier

/-!
# Calculating in steps

A run up to a day followed by one up to a later day ends as the later run would have ended alone.

* `storeLastCalcTxDate_append`: the calculation date is written back in steps.
* `Fired`: what a run writes that fires its batches, or has nothing to calculate.
* `EndsAlike`, `Fired.endsAlike`: two runs that queue what one queues.
* `calculate_in_steps`: the transactions and the accounts after both ways.
-/

namespace InventoryBot.System

open Lib Menu CostOfSalesService

/-! ## The calculation date -/

section Dates

variable {P : Platform} {b : Book} {a : Account}

theorem updateAccount_updateAccount {a' : Account} (h : a'.id = a.id) :
    (b.updateAccount a).updateAccount a' = b.updateAccount a' := by
  unfold Book.updateAccount
  rw [List.map_map]
  refine congrArg (fun l => { b with accounts := l }) (List.map_congr_left fun x _ => ?_)
  rw [Function.comp_apply, h]
  by_cases hx : x.id = a.id
  · rw [if_pos hx, if_pos rfl, if_pos hx]
  · rw [if_neg hx, if_neg hx]

theorem setCOGSCalculationDate_twice (date date' : String) :
    GoodAccount.setCOGSCalculationDate (GoodAccount.setCOGSCalculationDate a date) date' =
      GoodAccount.setCOGSCalculationDate a date' := by
  unfold GoodAccount.setCOGSCalculationDate
  dsimp only
  rw [OrderedMap.set_set]

/-- The date that several sales move is that of the last of them. -/
theorem movedDate_append {sales : List Transaction} (earlier : List Transaction) (h : sales ≠ []) :
    movedDate P a (earlier ++ sales) = movedDate P a sales := by
  unfold movedDate
  rw [List.getLast?_append_of_ne_nil _ h]

/-- A date is moved to that of the last sale, and only to a later one. -/
theorem movedDate_eq_some {sales : List Transaction} {date : Date} :
    movedDate P a sales = some date ↔ (∃ t, sales.getLast? = some t ∧ t.date = date) ∧
      ∀ value, GoodAccount.getCOGSCalculationDateValue P a = some value →
        ∃ old, value = some old ∧ old < date := by
  unfold movedDate
  cases sales.getLast? with
  | none => simp
  | some t =>
    rcases GoodAccount.getCOGSCalculationDateValue P a with _ | _ | old
    · simp
    · simp
    · simp only [Option.ite_none_right_eq_some, Option.some.injEq, forall_eq', exists_eq_left']
      constructor
      · rintro ⟨hlt, rfl⟩
        exact ⟨rfl, hlt⟩
      · rintro ⟨rfl, hlt⟩
        exact ⟨hlt, rfl⟩

/-- Written back in steps, the calculation date of an account ends as it does at once. -/
theorem storeLastCalcTxDate_append (hdates : ReadsDates P) {key : String}
    {earlier later : List Transaction} {a₁ : Account} (ha : b.getAccount key = some a)
    (ha₁ : (storeLastCalcTxDate P b a earlier).getAccount key = some a₁)
    (hle : ∀ t ∈ earlier, ∀ t' ∈ later, t.date ≤ t'.date) :
    storeLastCalcTxDate P (storeLastCalcTxDate P b a earlier) a₁ later =
      storeLastCalcTxDate P b a (earlier ++ later) := by
  by_cases hlater : later = []
  · rw [hlater, List.append_nil]
    rfl
  rw [storeLastCalcTxDate_eq P b a earlier] at ha₁ ⊢
  rw [storeLastCalcTxDate_eq, storeLastCalcTxDate_eq P b a (earlier ++ later),
    movedDate_append earlier hlater]
  cases hmoved : movedDate P a earlier with
  | none =>
    rw [hmoved] at ha₁
    obtain rfl : a = a₁ := Option.some.inj (ha.symm.trans ha₁)
    rfl
  | some date =>
    rw [hmoved] at ha₁
    have hfound : (b.updateAccount (GoodAccount.setCOGSCalculationDate a
        (P.dateText date))).getAccount key =
          some (GoodAccount.setCOGSCalculationDate a (P.dateText date)) :=
      getAccount_updateAccount ha rfl rfl
    obtain rfl : GoodAccount.setCOGSCalculationDate a (P.dateText date) = a₁ :=
      Option.some.inj (hfound.symm.trans ha₁)
    obtain ⟨⟨t, hlast, rfl⟩, hold⟩ := movedDate_eq_some.1 hmoved
    obtain ⟨t', hlast'⟩ := Option.ne_none_iff_exists'.1 (mt List.getLast?_eq_none_iff.1 hlater)
    have hdate : t.date ≤ t'.date :=
      hle t (List.mem_of_getLast? hlast) t' (List.mem_of_getLast? hlast')
    have hatonce : movedDate P a later = some t'.date := by
      refine movedDate_eq_some.2 ⟨⟨t', hlast', rfl⟩, fun value hvalue => ?_⟩
      obtain ⟨old, rfl, hlt⟩ := hold value hvalue
      exact ⟨old, rfl, hlt.trans_le hdate⟩
    have hvalue := calculationDate_setCOGSCalculationDate hdates a t.date
    rw [hatonce]
    dsimp only
    by_cases hlt : t.date < t'.date
    · have hmoved' : movedDate P (GoodAccount.setCOGSCalculationDate a (P.dateText t.date)) later =
          some t'.date := by
        refine movedDate_eq_some.2 ⟨⟨t', hlast', rfl⟩, fun value hsome => ?_⟩
        exact ⟨t.date, Option.some.inj (hsome.symm.trans hvalue), hlt⟩
      rw [hmoved']
      dsimp only
      rw [setCOGSCalculationDate_twice]
      exact updateAccount_updateAccount rfl
    · have hsame : t.date = t'.date := le_antisymm hdate (not_lt.1 hlt)
      have hkept : movedDate P (GoodAccount.setCOGSCalculationDate a (P.dateText t.date)) later =
          none := by
        unfold movedDate
        rw [hlast', hvalue]
        exact if_neg hlt
      rw [hkept, hsame]

theorem accounts_storeLastCalcTxDate {b' : Book} (h : b'.accounts = b.accounts)
    (sales : List Transaction) :
    (storeLastCalcTxDate P b' a sales).accounts = (storeLastCalcTxDate P b a sales).accounts := by
  rw [storeLastCalcTxDate_eq, storeLastCalcTxDate_eq]
  cases movedDate P a sales with
  | none => exact h
  | some date =>
    show List.map _ b'.accounts = List.map _ b.accounts
    rw [h]

end Dates

/-! ## What a run writes -/

/-- The books after a run that fires its batches; a run that has nothing to calculate fires none. -/
structure Fired (P : Platform) (env : RunEnv) (s : State) (goodAccount : Account)
    (sales : List Transaction) (processor : CalculateCostOfSalesProcessor) (s' : State) : Prop where
  keyed : Book.KeyedById processor.inventoryBookTransactionsToUpdateMap
  trace : ∀ t ∈ s.inventoryBook.transactions, Relation.ReflTransGen (Written P) t
    (Book.updated processor.inventoryBookTransactionsToUpdateMap.values t)
  inventory : s'.inventoryBook.transactions = s.inventoryBook.transactions.map
      (Book.updated processor.inventoryBookTransactionsToUpdateMap.values) ++
    Book.postAll env.inventoryId env.now processor.inventoryBookTransactionsToCreateMap.values
  financial : s'.financialBook.transactions = s.financialBook.transactions ++
    Book.postAll env.financialId env.now processor.financialBookTransactionsToCreateMap.values
  accounts : s'.inventoryBook.accounts =
    (storeLastCalcTxDate P s.inventoryBook goodAccount sales).accounts

section Fired

variable {P : Platform} {collection : Option (List BookInfo)} {env env₁ env₂ : RunEnv}
  {s s' s₁ s₂ : State} {goodAccountId : String} {toDate : Option Date} {goodAccount a₁ : Account}
  {sales sales₁ later : List Transaction}
  {processor processor₁ processor₂ first : CalculateCostOfSalesProcessor}

theorem fired (hwf : WellFormed s.inventoryBook) (hfresh : env.Fresh s)
    (hplan : planCalculation P collection env s goodAccountId toDate =
      .ok (.fire goodAccount sales processor)) :
    Fired P env s goodAccount sales processor
      (calculateCostOfSalesForAccount P collection env s goodAccountId toDate).1 := by
  obtain ⟨-, d, hmoves, -, hcoherent⟩ := planCalculation_moves (fun _ => True) hwf hfresh hplan
    fun _ _ _ => Or.inl fun _ => trivial
  obtain ⟨hinventory, hfinancial⟩ := fired_books hwf hfresh hplan
  refine ⟨hcoherent.keyed, hcoherent.trace hwf.ids hmoves, hinventory, hfinancial, ?_⟩
  have haccounts : (processor.fireBatchOperations env 3 s).inventoryBook.accounts =
      s.inventoryBook.accounts := rfl
  rw [calculate_of_fire hplan]
  exact accounts_storeLastCalcTxDate haccounts sales

theorem fired_nothing (P : Platform) (env : RunEnv) (goodAccount : Account)
    (hinventory : s'.inventoryBook = s.inventoryBook)
    (hfinancial : s'.financialBook.transactions = s.financialBook.transactions) :
    Fired P env s goodAccount [] {} s' where
  keyed := Book.keyedById_empty
  trace := fun _ _ => .refl
  inventory := by
    rw [map_updated_of_absent Book.keyedById_empty fun _ _ => List.not_mem_nil, hinventory]
    exact (List.append_nil _).symm
  financial := hfinancial.trans (List.append_nil _).symm
  accounts := by
    rw [hinventory]
    rfl

/-- A run leaves the ids that were there. -/
theorem Fired.id_mem (h : Fired P env s goodAccount sales processor s') {id : String}
    (hid : id ∈ s.inventoryBook.transactions.map Transaction.id) :
    id ∈ s'.inventoryBook.transactions.map Transaction.id := by
  obtain ⟨t, ht, rfl⟩ := List.mem_map.1 hid
  rw [h.inventory, ← Book.updated_values_id h.keyed t]
  exact List.mem_map_of_mem (List.mem_append_left _ (List.mem_map_of_mem ht))

end Fired

/-! ## Two runs and one -/

/-- Two ways on from `s`: one run to `s'`, or one to `s₁` and, from what that has become, `t`,
    another one to `s₂`. They end with the same inventory transactions, post the same costs of
    sales, up to what is generated for new transactions, and leave the same accounts. -/
structure EndsAlike (s s' s₁ t s₂ : State) : Prop where
  inventory : (s'.inventoryBook.transactions.map
      (anonymous (s.inventoryBook.transactions.map Transaction.id) blankSplit)).Perm
    (s₂.inventoryBook.transactions.map
      (anonymous (s.inventoryBook.transactions.map Transaction.id) blankSplit))
  cogs : ∃ posted posted₁ posted₂,
    s'.financialBook.transactions = s.financialBook.transactions ++ posted ∧
      s₁.financialBook.transactions = s.financialBook.transactions ++ posted₁ ∧
      s₂.financialBook.transactions = t.financialBook.transactions ++ posted₂ ∧
      (posted.map blankCogs).Perm ((posted₁ ++ posted₂).map blankCogs)
  accounts : s₂.inventoryBook.accounts = s'.inventoryBook.accounts

theorem map_blankCogs_postAll (newId : ℕ → String) (now : ℕ) (l : List Transaction) :
    (Book.postAll newId now l).map blankCogs = l.map fun t => blankCogs (Book.post "" 0 t) := by
  refine List.ext_getElem (by simp [Book.postAll]) fun i h₁ h₂ => ?_
  simp only [Book.postAll, List.getElem_map, List.getElem_mapIdx]
  rfl

section EndsAlike

variable {P : Platform} {env env₁ env₂ : RunEnv} {s s' s₁ t s₂ : State} {goodAccountId : String}
  {goodAccount a₁ : Account} {sales sales₁ later : List Transaction}
  {processor processor₁ processor₂ first : CalculateCostOfSalesProcessor}
  {numbers numbers₂ : List String}

/-- The inventory transactions after two runs that queue what one queues. -/
theorem inventory_alike (hfresh : env.Fresh s) (hfresh₁ : env₁.Fresh s) (hfresh₂ : env₂.Fresh t)
    (ht : t.inventoryBook = s₁.inventoryBook)
    (h : Fired P env s goodAccount sales processor s')
    (h₁ : Fired P env₁ s goodAccount sales₁ processor₁ s₁)
    (h₂ : Fired P env₂ t a₁ later processor₂ s₂)
    (hcreated : ∀ u ∈ Book.postAll env₁.inventoryId env₁.now
      processor₁.inventoryBookTransactionsToCreateMap.values, u.checked = true)
    (hqueues : SameQueues env₁ env numbers processor₁ first)
    (hcontinues : Continues env env₂ numbers numbers₂ first processor processor₂) :
    s'.inventoryBook.transactions.map
        (anonymous (s.inventoryBook.transactions.map Transaction.id) blankSplit) =
      s₂.inventoryBook.transactions.map
        (anonymous (s.inventoryBook.transactions.map Transaction.id) blankSplit) := by
  have hstored : t.inventoryBook.transactions = s.inventoryBook.transactions.map
      (Book.updated processor₁.inventoryBookTransactionsToUpdateMap.values) ++
        Book.postAll env₁.inventoryId env₁.now
          processor₁.inventoryBookTransactionsToCreateMap.values := by
    rw [ht, h₁.inventory]
  have hnew : ∀ {e : RunEnv}, e.Fresh s → ∀ k,
      e.inventoryId k ∉ s.inventoryBook.transactions.map Transaction.id :=
    fun h k hk => h.inventoryIds.new k (List.mem_cons_of_mem _ hk)
  have hnew₂ : ∀ k, env₂.inventoryId k ∉ s.inventoryBook.transactions.map Transaction.id := by
    intro k hk
    refine hfresh₂.inventoryIds.new k (List.mem_cons_of_mem _ ?_)
    rw [ht]
    exact h₁.id_mem hk
  -- the second run leaves the splits of the first one as they are
  have hsplits : (Book.postAll env₁.inventoryId env₁.now
      processor₁.inventoryBookTransactionsToCreateMap.values).map
        (Book.updated processor₂.inventoryBookTransactionsToUpdateMap.values) =
      Book.postAll env₁.inventoryId env₁.now
        processor₁.inventoryBookTransactionsToCreateMap.values := by
    conv_rhs => rw [← List.map_id (Book.postAll _ _ _)]
    refine List.map_congr_left fun u hu => ?_
    have hmem : u ∈ t.inventoryBook.transactions := hstored ▸ List.mem_append_right _ hu
    exact eq_of_trace_of_checked (h₂.trace u hmem) (hcreated u hu)
  have hrows : (s.inventoryBook.transactions.map
      (Book.updated processor₁.inventoryBookTransactionsToUpdateMap.values)).map
        (Book.updated processor₂.inventoryBookTransactionsToUpdateMap.values) =
      s.inventoryBook.transactions.map
        (Book.updated processor.inventoryBookTransactionsToUpdateMap.values) := by
    rw [List.map_map, ← hqueues.updated]
    exact List.map_congr_left fun u _ =>
      hcontinues.rows h.keyed h₂.keyed (hqueues.updated ▸ h₁.keyed) u
  have hblank : processor.inventoryBookTransactionsToCreateMap.values.map
      (fun u => (Sum.inr (blankSplit (Book.post "" 0 u)) : Transaction ⊕ Transaction)) =
      processor₁.inventoryBookTransactionsToCreateMap.values.map
          (fun u => .inr (blankSplit (Book.post "" 0 u))) ++
        processor₂.inventoryBookTransactionsToCreateMap.values.map
          fun u => .inr (blankSplit (Book.post "" 0 u)) := by
    have hmap := congrArg (List.map fun u =>
      (Sum.inr (blankSplit (Book.post "" 0 u)) : Transaction ⊕ Transaction)) hcontinues.created
    rw [hqueues.created, List.map_append, List.map_map, List.map_map, List.map_map] at hmap
    exact hmap
  have hinventory₂ : s₂.inventoryBook.transactions = s.inventoryBook.transactions.map
      (Book.updated processor.inventoryBookTransactionsToUpdateMap.values) ++
      (Book.postAll env₁.inventoryId env₁.now
          processor₁.inventoryBookTransactionsToCreateMap.values ++
        Book.postAll env₂.inventoryId env₂.now
          processor₂.inventoryBookTransactionsToCreateMap.values) := by
    rw [h₂.inventory, hstored, List.map_append, hrows, hsplits, List.append_assoc]
  rw [h.inventory, hinventory₂, List.map_append, List.map_append, List.map_append,
    map_anonymous_postAll (hnew hfresh) _ fun _ _ _ => rfl,
    map_anonymous_postAll (hnew hfresh₁) _ fun _ _ _ => rfl,
    map_anonymous_postAll hnew₂ _ fun _ _ _ => rfl, hblank]

/-- Two runs end like one that queues the same. -/
theorem Fired.endsAlike (hdates : ReadsDates P) (hfresh : env.Fresh s) (hfresh₁ : env₁.Fresh s)
    (hfresh₂ : env₂.Fresh t) (ht : t.inventoryBook = s₁.inventoryBook)
    (haccount : s.inventoryBook.getAccount goodAccountId = some goodAccount)
    (ha₁ : t.inventoryBook.getAccount goodAccountId = some a₁)
    (hsales : sales = sales₁ ++ later) (hle : ∀ u ∈ sales₁, ∀ u' ∈ later, u.date ≤ u'.date)
    (h : Fired P env s goodAccount sales processor s')
    (h₁ : Fired P env₁ s goodAccount sales₁ processor₁ s₁)
    (h₂ : Fired P env₂ t a₁ later processor₂ s₂)
    (hcreated : ∀ u ∈ Book.postAll env₁.inventoryId env₁.now
      processor₁.inventoryBookTransactionsToCreateMap.values, u.checked = true)
    (hqueues : SameQueues env₁ env numbers processor₁ first)
    (hcontinues : Continues env env₂ numbers numbers₂ first processor processor₂)
    (hposted : ∀ k ∈ processor₂.financialBookTransactionsToCreateMap.keys,
      k ∉ first.financialBookTransactionsToCreateMap.keys) : EndsAlike s s' s₁ t s₂ where
  inventory := by
    rw [inventory_alike hfresh hfresh₁ hfresh₂ ht h h₁ h₂ hcreated hqueues hcontinues]
  cogs := by
    refine ⟨_, _, _, h.financial, h₁.financial, h₂.financial, ?_⟩
    have hvalues := OrderedMap.values_perm_append hcontinues.posted hposted
    rw [hqueues.posted] at hvalues
    rw [List.map_append, map_blankCogs_postAll, map_blankCogs_postAll, map_blankCogs_postAll,
      ← List.map_append]
    exact hvalues.map _
  accounts := by
    have haccounts : t.inventoryBook.accounts =
        (storeLastCalcTxDate P s.inventoryBook goodAccount sales₁).accounts := by
      rw [ht, h₁.accounts]
    have hstored : (storeLastCalcTxDate P s.inventoryBook goodAccount sales₁).getAccount
        goodAccountId = some a₁ := by
      unfold Book.getAccount at ha₁ ⊢
      rwa [← haccounts]
    rw [h₂.accounts, h.accounts, hsales, accounts_storeLastCalcTxDate haccounts,
      storeLastCalcTxDate_append hdates haccount hstored hle]

end EndsAlike

/-- The run has calculated, or there was nothing to calculate. -/
def Succeeds (outcome : Outcome) : Prop :=
  outcome = .returned .calculatingAsync ∨ outcome = .returned .nothingToCalculate

section Steps

variable {P : Platform} {collection : Option (List BookInfo)} {env env₁ env₂ : RunEnv}
  {s s₁ t : State} {goodAccountId : String} {day day' : Date} {goodAccount : Account}

/-- Where a run reports that there is nothing to calculate, it has counted no sales. -/
theorem totalSalesQuantity_of_nothing {toDate : Option Date}
    (haccount : s.inventoryBook.getAccount goodAccountId = some goodAccount)
    (h : (calculateCostOfSalesForAccount P collection env s goodAccountId toDate).2 =
      .returned .nothingToCalculate) :
    (listingOf P s.inventoryBook goodAccount (toDate.getD env.today)).totalSalesQuantity = 0 := by
  have hstop : planCalculation P collection env s goodAccountId toDate =
      .ok (.stop .nothingToCalculate) := by
    unfold calculateCostOfSalesForAccount at h
    split at h
    · cases h
    · rename_i summary hplan
      cases h
      exact hplan
    · split at h <;> cases h
    · cases h
  unfold planCalculation at hstop
  obtain ⟨⟨a, book⟩, hopen, hstop⟩ := bind_eq_ok.1 hstop
  obtain rfl : a = goodAccount :=
    Option.some.inj ((openAccount_ok hopen).1.symm.trans haccount)
  dsimp only at hstop
  split at hstop
  · cases hstop
  · split at hstop
    · cases hstop
    · split at hstop
      · assumption
      · split at hstop
        · cases hstop
        · unfold planListing at hstop
          obtain ⟨result, -, hstop⟩ := bind_eq_ok.1 hstop
          cases result with
          | stop creditNote => cases hstop
          | done purchases processor =>
            obtain ⟨result, -, hstop⟩ := bind_eq_ok.1 hstop
            cases result <;> cases hstop

/-- Such a run lists no open sales. -/
theorem openSales_of_nothing (hP : P.Exact)
    (hplain : PlainListing P (listTransactions s.inventoryBook goodAccount day'))
    (haccount : s.inventoryBook.getAccount goodAccountId = some goodAccount)
    (h : (calculateCostOfSalesForAccount P collection env s goodAccountId (some day')).2 =
      .returned .nothingToCalculate) :
    (listTransactions s.inventoryBook goodAccount day').filter isOpenSale = [] := by
  have htotal := totalSalesQuantity_of_nothing haccount h
  rw [Option.getD_some, (collect_totals _ hP).1] at htotal
  by_contra hsome
  refine (List.sum_pos _ ?_ (by simpa using hsome)).ne' htotal
  intro q hq
  obtain ⟨t, ht, rfl⟩ := List.mem_map.1 hq
  exact hplain.positive t (List.mem_of_mem_filter ht) (Or.inl (List.of_mem_filter ht))

/-- Where the first run fires its batches, the second one goes on with what it has left. -/
theorem endsAlike_of_fire {sales sales₁ : List Transaction}
    {processor processor₁ : CalculateCostOfSalesProcessor} (hP : P.Exact) (hdates : ReadsDates P)
    (hwf : WellFormed s.inventoryBook) (hfresh : env.Fresh s) (hfresh₁ : env₁.Fresh s)
    (hfresh₂ : env₂.Fresh t) (hcogs₁ : env₁.cogsAccountId = env.cogsAccountId)
    (hcogs₂ : env₂.cogsAccountId = env.cogsAccountId) (hle : day ≤ day')
    (hplain : PlainListing P (listTransactions s.inventoryBook goodAccount day'))
    (hplan : planCalculation P collection env s goodAccountId (some day') =
      .ok (.fire goodAccount sales processor))
    (hplan₁ : planCalculation P collection env₁ s goodAccountId (some day) =
      .ok (.fire goodAccount sales₁ processor₁))
    (hs₁ : (calculateCostOfSalesForAccount P collection env₁ s goodAccountId (some day)).1 = s₁)
    (ht : Meanwhile P s₁ t) :
    EndsAlike s (calculateCostOfSalesForAccount P collection env s goodAccountId (some day')).1 s₁ t
      (calculateCostOfSalesForAccount P collection env₂ t goodAccountId (some day')).1 := by
  have h := fired hwf hfresh hplan
  have h₁ := fired hwf hfresh₁ hplan₁
  obtain ⟨d, hfires⟩ := calculation_fires (fun _ => True) hwf hfresh₁ hplan₁
    fun _ _ _ => Or.inl fun _ => trivial
  rw [hs₁] at h₁ hfires
  have hwf₂ : WellFormed t.inventoryBook := ht.inventoryBook ▸ hfires.wellFormed hwf hfresh₁
  obtain ⟨a₁, ha₁, -, -⟩ := hfires.account
  rw [← ht.inventoryBook] at ha₁
  obtain ⟨-, hsorted, -⟩ := planListing_fire (planCalculation_fire hplan).2
  rw [Option.getD_some, collect_sales] at hsorted
  have hordered := sortFIFO_dates hplain.sortable_sales
  rw [← hsorted] at hordered
  obtain ⟨later, first, processor₂, rfl, hqueues, hcontinues, hposted, hsecond⟩ :=
    second_run hP hwf hfresh hfresh₁ hfresh₂.uuids hcogs₁ hcogs₂ hle hplain hplan hplan₁ hs₁ ht
  have h₂ : Fired P env₂ t a₁ later processor₂
      (calculateCostOfSalesForAccount P collection env₂ t goodAccountId (some day')).1 := by
    rcases hsecond with ⟨rfl, rfl, hsame⟩ | ⟨a, hplan₂⟩
    · rw [hsame]
      exact fired_nothing P env₂ a₁ rfl rfl
    · obtain rfl : a = a₁ :=
        Option.some.inj ((planCalculation_fire hplan₂).1.account.symm.trans ha₁)
      exact fired hwf₂ hfresh₂ hplan₂
  exact h.endsAlike hdates hfresh hfresh₁ hfresh₂ ht.inventoryBook
    (planCalculation_fire hplan).1.account ha₁ rfl (List.pairwise_append.1 hordered).2.2 h₁ h₂
    (fired_created hwf hfresh₁ hplan₁) hqueues hcontinues hposted

/-- **Calculating in steps.** Where a run up to `day'` succeeds, a run up to an earlier day,
    whatever its outcome, followed by one up to `day'` ends alike. -/
theorem calculate_in_steps (hP : P.Exact) (hdates : ReadsDates P)
    (hwf : WellFormed s.inventoryBook)
    (haccount : s.inventoryBook.getAccount goodAccountId = some goodAccount)
    (hcalm : GoodAccount.needsRebuild goodAccount = false)
    (hplain : PlainListing P (listTransactions s.inventoryBook goodAccount day'))
    (hle : day ≤ day') (hfresh : env.Fresh s) (hfresh₁ : env₁.Fresh s) (hfresh₂ : env₂.Fresh t)
    (hcogs₁ : env₁.cogsAccountId = env.cogsAccountId)
    (hcogs₂ : env₂.cogsAccountId = env.cogsAccountId)
    (hrun : Succeeds
      (calculateCostOfSalesForAccount P collection env s goodAccountId (some day')).2)
    (hs₁ : (calculateCostOfSalesForAccount P collection env₁ s goodAccountId (some day)).1 = s₁)
    (ht : Meanwhile P s₁ t) :
    EndsAlike s (calculateCostOfSalesForAccount P collection env s goodAccountId (some day')).1 s₁ t
      (calculateCostOfSalesForAccount P collection env₂ t goodAccountId (some day')).1 := by
  rcases hrun with hrun | hrun
  · obtain ⟨a, sales, processor, hplan⟩ := calculate_fired (Prod.ext rfl hrun)
    obtain rfl : a = goodAccount :=
      Option.some.inj ((planCalculation_fire hplan).1.account.symm.trans haccount)
    have hstopped : s₁ = s ∨ s₁ = withCostOfSalesAccount env₁ s → EndsAlike s
        (calculateCostOfSalesForAccount P collection env s goodAccountId (some day')).1 s₁ t
        (calculateCostOfSalesForAccount P collection env₂ t goodAccountId (some day')).1 := by
      intro hstop
      have hinventory : s₁.inventoryBook = s.inventoryBook := by rcases hstop with rfl | rfl <;> rfl
      have hfinancial : s₁.financialBook.transactions = s.financialBook.transactions := by
        rcases hstop with rfl | rfl <;> rfl
      have hsame := ht.inventoryBook.trans hinventory
      have huuids : Book.FreshIds env₂.uuid (creditNoteNumbers s.inventoryBook) :=
        hsame ▸ hfresh₂.uuids
      obtain ⟨processor₂, hplan₂, hqueues⟩ := planCalculation_otherIds hwf hfresh.uuids huuids
        hcogs₂ rfl hplan
      have hplan₂ : planCalculation P collection env₂ s₁ goodAccountId (some day') =
          .ok (.fire a sales processor₂) := by
        rcases hstop with rfl | rfl
        · exact hplan₂
        · exact planCalculation_created (hcogs₂.trans hcogs₁.symm) hplan₂
      have h₁ : Fired P env₁ s a [] {} s₁ := fired_nothing P env₁ a hinventory hfinancial
      have h₂ := fired (hsame ▸ hwf) hfresh₂ (ht.plan hplan₂)
      exact (fired hwf hfresh hplan).endsAlike hdates hfresh hfresh₁ hfresh₂ ht.inventoryBook
        haccount (hsame ▸ haccount) rfl (fun _ hu => absurd hu List.not_mem_nil) h₁ h₂
        (fun _ hu => absurd hu List.not_mem_nil) (sameQueues_start env₁ env _) hqueues.continues
        fun _ _ => List.not_mem_nil
    rcases calculate_cases P collection env₁ s goodAccountId (some day) with
      hsame | hsame | ⟨hreset, -⟩ | ⟨b, sales₁, processor₁, hplan₁, -⟩
    · exact hstopped (Or.inl (hs₁.symm.trans hsame))
    · exact hstopped (Or.inr (hs₁.symm.trans hsame))
    · obtain ⟨b, hb, hflag⟩ := planCalculation_reset hreset
      obtain rfl : b = a := Option.some.inj (hb.symm.trans haccount)
      rw [hcalm] at hflag
      cases hflag
    · obtain rfl : b = a :=
        Option.some.inj ((planCalculation_fire hplan₁).1.account.symm.trans haccount)
      exact endsAlike_of_fire hP hdates hwf hfresh hfresh₁ hfresh₂ hcogs₁ hcogs₂ hle hplain hplan
        hplan₁ hs₁ ht
  · have hnone := openSales_of_nothing hP hplain haccount hrun
    have hwrites : ∀ e u, u.inventoryBook = s.inventoryBook → ∀ stop ≤ day',
        (calculateCostOfSalesForAccount P collection e u goodAccountId (some stop)).1 = u := by
      intro e u hu stop hle
      refine rerun_writes_nothing fun b hb => ?_
      rw [hu] at hb ⊢
      obtain rfl : b = goodAccount := Option.some.inj (hb.symm.trans haccount)
      refine ⟨hcalm, ?_⟩
      rw [Option.getD_some, listTransactions_until _ _ hle, List.filter_comm, hnone,
        List.filter_nil]
    obtain rfl : s = s₁ := (hwrites env₁ s rfl day hle).symm.trans hs₁
    rw [hwrites env₂ t ht.inventoryBook day' le_rfl, hwrites env s rfl day' le_rfl]
    have h : Fired P env s goodAccount [] {} s := fired_nothing P env goodAccount rfl rfl
    have h₂ : Fired P env₂ t goodAccount [] {} t := fired_nothing P env₂ goodAccount rfl rfl
    exact h.endsAlike hdates hfresh hfresh₁ hfresh₂ ht.inventoryBook haccount
      (ht.inventoryBook ▸ haccount) rfl (fun _ hu => absurd hu List.not_mem_nil)
      (fired_nothing P env₁ goodAccount rfl rfl) h₂ (fun _ hu => absurd hu List.not_mem_nil)
      (sameQueues_start env₁ env []) (sameQueues_start env env₂ []).continues
      fun _ _ => List.not_mem_nil

end Steps

namespace Sample

/-- Two purchases and two sales; the second purchase is dated after the first sale. -/
def twoSales : State :=
  Menu.Sample.state
    [Menu.Sample.purchase "1" "P1" 1 10 100, Menu.Sample.sale "2" "S1" 2 4 80,
      Menu.Sample.purchase "3" "P2" 4 10 90, Menu.Sample.sale "4" "S2" 5 8 160]
    [Menu.Sample.additionalCost "9" "T1" "P1" 1 20]

/-- The books after the first sale is calculated. -/
def firstSale : State :=
  (calculateCostOfSalesForAccount tallyPlatform Menu.Sample.collection (Menu.Sample.env 9) twoSales
    "a-widgets" (some 3)).1

end Sample

/-- The second sale takes what the first one has left of the first purchase, and a part of the
    second purchase. -/
theorem calculate_in_steps_sample :
    EndsAlike Sample.twoSales
      (calculateCostOfSalesForAccount Sample.tallyPlatform Menu.Sample.collection
        (Menu.Sample.env 9) Sample.twoSales "a-widgets" (some 5)).1
      Sample.firstSale Sample.firstSale
      (calculateCostOfSalesForAccount Sample.tallyPlatform Menu.Sample.collection
        Menu.Sample.retryEnv Sample.firstSale "a-widgets" (some 5)).1 := by
  have hfresh : (Menu.Sample.env 9).Fresh Sample.twoSales :=
    ⟨Book.freshIds_unaryId (by decide), Book.freshIds_unaryId (by decide),
      Book.freshIds_unaryId (by decide)⟩
  have hfresh₂ : Menu.Sample.retryEnv.Fresh Sample.firstSale :=
    ⟨Book.freshIds_unaryId (by decide +kernel), Book.freshIds_unaryId (by decide +kernel),
      Book.freshIds_unaryId (by decide +kernel)⟩
  have hplain : PlainListing Sample.tallyPlatform
      (listTransactions Sample.twoSales.inventoryBook Menu.Sample.good 5) := by
    have hkeys : ∀ t ∈ listTransactions Sample.twoSales.inventoryBook Menu.Sample.good 5,
        t.order = none ∧ t.createdAt ≠ none := by decide +kernel
    refine ⟨?_, by decide +kernel, by decide +kernel, fun t ht _ => ?_⟩
    · unfold PositiveListing
      decide +kernel
    · obtain ⟨horder, hcreated⟩ := hkeys t ht
      exact ⟨⟨0, by simp [BotService.orderValue, horder]⟩, hcreated⟩
  exact calculate_in_steps Sample.tallyPlatform_exact Sample.tallyPlatform_readsDates
    ⟨by decide, by decide⟩ (by rfl) (by decide) hplain (by decide) hfresh hfresh hfresh₂ rfl rfl
    (Or.inl (by decide +kernel)) rfl ⟨rfl, rfl, fun _ _ => rfl⟩

end InventoryBot.System
