import InventoryBot.Menu.Runs
import InventoryBot.Menu.Served
import Mathlib.Algebra.BigOperators.Fin

/-!
# The allocation of sales to purchases

In exact arithmetic, the sales take from the purchases what first in, first out takes by its
reference definition, at the unit cost that each purchase has at the start.

* `processPurchase_kept`: one purchase, and why its unit cost stays the same.
* `processSale_allocation`: one sale, by the greedy allocation of `Lib.Fifo`.
* `sales_allocated`: all sales, by the overlap of the cumulative intervals; `sales_allocated_uncoded`:
  what stops them.
-/

namespace InventoryBot.Menu

open Lib CostOfSalesService

/-! ## Unit costs -/

/-- What a unit of a purchase costs, with the linked amounts if they have not been folded in. -/
def unitCost (amounts : LinkedAmounts) (p : Transaction) : ℚ :=
  if Unprocessed p then
    (p.totalCost.getD 0 + amounts.additionalCosts - amounts.creditNotesAmount) / p.amount
  else p.totalCost.getD 0 / p.amount

/-- A purchase after some sales: the same purchase, untouched or with less left, at the same unit
    cost. -/
structure Kept (amounts : LinkedAmounts) (p₀ p : Transaction) : Prop where
  same : SameIdentity p₀ p
  change : p = p₀ ∨ (¬Unprocessed p ∧ lot p < lot p₀)
  value : p.checked = false → 0 < p.amount ∧ p.totalCost.isSome ∧
    unitCost amounts p = unitCost amounts p₀

theorem Kept.stocked {amounts : LinkedAmounts} {p₀ p : Transaction} (h : Kept amounts p₀ p) :
    Stocked p :=
  fun hunchecked => (h.value hunchecked).1

section One

variable {P : Platform} {env : RunEnv} {fb : Book} {sale p₀ p p' : Transaction}
  {linked amounts : LinkedAmounts} {cost : ℚ} {st st' : SaleLoop}

/-- What a purchase is worth is its unit cost for each unit that is left. -/
theorem Valued.cost_eq_unitCost (h : Valued P fb p amounts cost) (hcost : p.totalCost.isSome)
    (hamount : p.amount ≠ 0)
    (hlinked : Unprocessed p → getAdditionalCostsAndCreditNotes P fb p = .ok linked) :
    cost = p.amount * unitCost linked p := by
  obtain ⟨c, hc⟩ := Option.isSome_iff_exists.1 hcost
  obtain ⟨hamounts, transactionCost, hnew, rfl⟩ := h
  rw [hc] at hnew
  obtain rfl : c = transactionCost := Except.ok.inj hnew
  unfold unfoldedAmounts at hamounts
  unfold unitCost
  rw [hc]
  split at hamounts
  · rename_i hunprocessed
    have hunprocessed : Unprocessed p := hunprocessed
    obtain rfl : amounts = linked :=
      Except.ok.inj (hamounts.symm.trans (hlinked hunprocessed))
    rw [if_pos hunprocessed, mul_div_cancel₀ _ hamount]
    rfl
  · rename_i hprocessed
    have hprocessed : ¬Unprocessed p := hprocessed
    cases hamounts
    rw [if_neg hprocessed, mul_div_cancel₀ _ hamount, add_zero, sub_zero]
    rfl

/-- One purchase gives what it can at its unit cost, which it keeps. -/
theorem processPurchase_kept (hP : P.Exact)
    (h : processPurchase P env fb sale p st = .ok (p', st')) (hunchecked : p.checked = false)
    (hsold : 0 < st.soldQuantity) (hkept : Kept linked p₀ p)
    (hlinked : Unprocessed p₀ → getAdditionalCostsAndCreditNotes P fb p₀ = .ok linked) :
    Kept linked p₀ p' ∧
      st'.saleCost = st.saleCost + min st.soldQuantity p.amount * unitCost linked p₀ ∧
      st'.purchaseLogEntries = st.purchaseLogEntries ++
        [⟨p₀.id, min st.soldQuantity p.amount, unitCost linked p₀, ""⟩] := by
  obtain ⟨hamount, hcost, hunit⟩ := hkept.value hunchecked
  obtain ⟨quantity, cost, amounts, -, hvalued, hne, hcase⟩ := processPurchase_cases h
  have hcosteq : cost = p.amount * unitCost linked p₀ := by
    rw [← hunit]
    refine hvalued.cost_eq_unitCost hcost hne fun hunprocessed => ?_
    rcases hkept.change with rfl | ⟨hprocessed, -⟩
    · exact hlinked hunprocessed
    · exact absurd hunprocessed hprocessed
  have hdiv : P.div cost p.amount = unitCost linked p₀ := by
    rw [hP.div _ _ hne, hcosteq, mul_div_cancel_left₀ _ hne]
  have hlot : lot p = p.amount := lot_of_unchecked hunchecked
  have hle₀ : lot p ≤ lot p₀ := by
    rcases hkept.change with rfl | ⟨-, hlt⟩
    · exact le_rfl
    · exact hlt.le
  rcases hcase with ⟨hle, rfl, rfl⟩ | ⟨hlt, code, -, rfl, rfl⟩
  · rw [min_eq_right hle, hdiv, getPurchaseLog, hkept.same.id, ← hcosteq]
    have hw : SameIdentity p (taken P sale p quantity cost amounts) :=
      ⟨rfl, rfl, rfl, rfl, rfl, rfl, rfl, rfl, rfl, rfl⟩
    refine ⟨⟨hkept.same.trans hw, Or.inr ⟨markProcessed_processed _, ?_⟩, fun hc => ?_⟩, rfl, rfl⟩
    · rw [lot_of_checked (taken_checked P sale p quantity cost amounts)]
      exact (hlot ▸ hamount).trans_le hle₀
    · rw [taken_checked] at hc
      cases hc
  · rw [min_eq_left hlt.le, hdiv, getPurchaseLog, hkept.same.id]
    have hw : SameIdentity p (reduced P p st.soldQuantity quantity cost amounts) :=
      ⟨rfl, rfl, rfl, rfl, rfl, rfl, rfl, rfl, rfl, rfl⟩
    have hopen : (reduced P p st.soldQuantity quantity cost amounts).checked = false := hunchecked
    have hleft : (reduced P p st.soldQuantity quantity cost amounts).amount =
        p.amount - st.soldQuantity := rfl
    refine ⟨⟨hkept.same.trans hw, Or.inr ⟨markProcessed_processed _, ?_⟩, fun _ => ?_⟩, rfl, rfl⟩
    · rw [lot_of_unchecked hopen, hleft]
      linarith
    · refine ⟨sub_pos.2 hlt, rfl, ?_⟩
      have hne' : p.amount - st.soldQuantity ≠ 0 := (sub_pos.2 hlt).ne'
      have hprocessed : ¬Unprocessed (reduced P p st.soldQuantity quantity cost amounts) :=
        markProcessed_processed _
      rw [unitCost, if_neg hprocessed, hleft]
      show (cost - st.soldQuantity * P.div cost p.amount) / _ = unitCost linked p₀
      rw [hdiv, hcosteq, ← sub_mul, mul_div_cancel_left₀ _ hne']

end One

/-! ## One sale -/

/-- The purchase log of a sale that takes the quantities `xs` from the purchases `ps`. -/
def allocationLog (linked : Transaction → LinkedAmounts) (ps : List Transaction) (xs : List ℚ) :
    List PurchaseLogEntry :=
  (ps.zip xs).filterMap fun e =>
    if 0 < e.2 then some ⟨e.1.id, e.2, unitCost (linked e.1) e.1, ""⟩ else none

/-- The cost of a sale that takes the quantities `xs` from the purchases `ps`. -/
def allocationCost (linked : Transaction → LinkedAmounts) (ps : List Transaction) (xs : List ℚ) :
    ℚ :=
  ((ps.zip xs).map fun e => e.2 * unitCost (linked e.1) e.1).sum

section Allocation

variable {P : Platform} {env : RunEnv} {fb ib : Book} {linked : Transaction → LinkedAmounts}

theorem allocationLog_zeros (ps : List Transaction) {xs : List ℚ} (h : ∀ x ∈ xs, x = 0) :
    allocationLog linked ps xs = [] := by
  refine List.filterMap_eq_nil_iff.2 fun e he => if_neg ?_
  rw [h e.2 (List.of_mem_zip he).2]
  exact lt_irrefl 0

theorem allocationCost_zeros (ps : List Transaction) {xs : List ℚ} (h : ∀ x ∈ xs, x = 0) :
    allocationCost linked ps xs = 0 := by
  refine List.sum_eq_zero fun q hq => ?_
  obtain ⟨e, he, rfl⟩ := List.mem_map.1 hq
  rw [h e.2 (List.of_mem_zip he).2, zero_mul]

/-- The quantities of a log are those that were taken. -/
theorem sum_qt_allocationLog {ps : List Transaction} {xs : List ℚ} (hlen : ps.length = xs.length)
    (h : ∀ x ∈ xs, 0 ≤ x) :
    ((allocationLog linked ps xs).map PurchaseLogEntry.qt).sum = xs.sum := by
  induction xs generalizing ps with
  | nil => simp [allocationLog]
  | cons x xs ih =>
    cases ps with
    | nil => simp at hlen
    | cons p ps =>
      have hrest : ((allocationLog linked ps xs).map PurchaseLogEntry.qt).sum = xs.sum :=
        ih (by simpa using hlen) fun y hy => h y (List.mem_cons_of_mem _ hy)
      unfold allocationLog at hrest ⊢
      rw [List.zip_cons_cons, List.filterMap_cons]
      rcases (h x List.mem_cons_self).lt_or_eq with hx | rfl
      · simp [hx, hrest]
      · simp [hrest]

/-- The purchases of `ps₀` after some sales. -/
abbrev AllKept (linked : Transaction → LinkedAmounts) (ps₀ ps : List Transaction) : Prop :=
  List.Forall₂ (fun p₀ p => Kept (linked p₀) p₀ p) ps₀ ps

theorem AllKept.stocked {ps₀ ps : List Transaction} (h : AllKept linked ps₀ ps) :
    ∀ p ∈ ps, Stocked p := by
  induction h with
  | nil => simp
  | cons hp _ ih =>
    intro p hmem
    rcases List.mem_cons.1 hmem with rfl | hmem
    · exact hp.stocked
    · exact ih p hmem

theorem AllKept.ids {ps₀ ps : List Transaction} (h : AllKept linked ps₀ ps) :
    ps.map Transaction.id = ps₀.map Transaction.id := by
  induction h with
  | nil => rfl
  | cons hp _ ih => rw [List.map_cons, List.map_cons, hp.same.id, ih]

/-- The loop over the purchases writes the log and gathers the cost of the greedy allocation. -/
theorem processPurchases_allocation (hP : P.Exact) {sale : Transaction} :
    ∀ {ps₀ ps ps' : List Transaction} {st st' : SaleLoop},
      processPurchases P env fb sale ps st = .ok (ps', st') → 0 < st.soldQuantity →
      AllKept linked ps₀ ps →
      (∀ p₀ ∈ ps₀, Unprocessed p₀ →
        getAdditionalCostsAndCreditNotes P fb p₀ = .ok (linked p₀)) →
      AllKept linked ps₀ ps' ∧
        st'.saleCost = st.saleCost +
          allocationCost linked ps₀ (Fifo.alloc st.soldQuantity (ps.map lot)) ∧
        st'.purchaseLogEntries = st.purchaseLogEntries ++
          allocationLog linked ps₀ (Fifo.alloc st.soldQuantity (ps.map lot)) := by
  intro ps₀ ps ps' st st' h hsold hkept hlinked
  induction hkept generalizing ps' st st' with
  | nil =>
    cases h
    exact ⟨.nil, by simp [allocationCost], by simp [allocationLog]⟩
  | @cons p₀ p ps₀ ps hp hps ih =>
    have hrestLinked : ∀ q ∈ ps₀, Unprocessed q →
        getAdditionalCostsAndCreditNotes P fb q = .ok (linked q) :=
      fun q hq => hlinked q (List.mem_cons_of_mem _ hq)
    have hcost : ∀ x xs, allocationCost linked (p₀ :: ps₀) (x :: xs) =
        x * unitCost (linked p₀) p₀ + allocationCost linked ps₀ xs := fun x xs => rfl
    have hlog : ∀ x xs, 0 < x → allocationLog linked (p₀ :: ps₀) (x :: xs) =
        ⟨p₀.id, x, unitCost (linked p₀) p₀, ""⟩ :: allocationLog linked ps₀ xs := by
      intro x xs hx
      simp [allocationLog, hx]
    rcases processPurchases_cons h with ⟨hchecked, qs, hrest, rfl⟩ |
      ⟨hunchecked, p', st₁, hone, hend⟩
    · -- a checked purchase gives nothing
      obtain ⟨hkept', hcost', hlog'⟩ := ih hrest hsold hrestLinked
      have hlot : lot p = 0 := lot_of_checked hchecked
      rw [List.map_cons, Fifo.alloc, hlot, min_eq_right hsold.le, sub_zero, hcost, zero_mul, zero_add]
      refine ⟨.cons hp hkept', hcost', ?_⟩
      rw [hlog']
      simp [allocationLog]
    · obtain ⟨hp', hcost₁, hlog₁⟩ := processPurchase_kept hP hone hunchecked hsold hp
        (hlinked p₀ List.mem_cons_self)
      obtain ⟨-, -, hst₁⟩ := processPurchase_lot hone hunchecked
      have hlot : lot p = p.amount := lot_of_unchecked hunchecked
      have hx : 0 < min st.soldQuantity p.amount := lt_min hsold (hp.value hunchecked).1
      rw [List.map_cons, Fifo.alloc, hlot, hcost, hlog _ _ hx]
      rcases hend with ⟨hdone, rfl, rfl⟩ | ⟨hleft, qs, hrest, rfl⟩
      · -- the sale is served
        have hzero : ∀ x ∈ Fifo.alloc (st.soldQuantity - min st.soldQuantity p.amount)
            (ps.map lot), x = 0 := by
          rw [← hst₁, hdone, Fifo.alloc_zero (lots_nonneg (AllKept.stocked hps))]
          intro x hx
          obtain ⟨-, -, rfl⟩ := List.mem_map.1 hx
          rfl
        rw [allocationCost_zeros _ hzero, allocationLog_zeros _ hzero, add_zero]
        exact ⟨.cons hp' hps, hcost₁, hlog₁⟩
      · have hsold₁ : 0 < st₁.soldQuantity := by
          refine lt_of_le_of_ne ?_ (Ne.symm hleft)
          rw [hst₁]
          exact Fifo.sub_min_nonneg _ _
        obtain ⟨hkept', hcost', hlog'⟩ := ih hrest hsold₁ hrestLinked
        rw [hst₁] at hcost' hlog'
        refine ⟨.cons hp' hkept', ?_, ?_⟩
        · rw [hcost', hcost₁, add_assoc]
        · rw [hlog', hlog₁, List.append_assoc]
          rfl

/-- A sale as it is queued for updating, with its log and cost. -/
def calculatedSale (sale : Transaction) (cost : ℚ) (log : List PurchaseLogEntry) : Transaction :=
  { sale with totalCost := some cost, purchaseLog := some log, checked := true }

/-- What a sale takes from the purchases, and what it queues. -/
theorem processSale_allocation (hP : P.Exact) {sale : Transaction} {ps₀ ps ps' : List Transaction}
    {processor processor' : CalculateCostOfSalesProcessor}
    (h : processSale P env fb ib sale ps processor = .ok (ps', processor'))
    (hamount : 0 < sale.amount) (hcovered : sale.amount ≤ (ps.map lot).sum)
    (hkept : AllKept linked ps₀ ps)
    (hlinked : ∀ p₀ ∈ ps₀, Unprocessed p₀ →
      getAdditionalCostsAndCreditNotes P fb p₀ = .ok (linked p₀)) :
    AllKept linked ps₀ ps' ∧ ps'.map lot = Fifo.residual sale.amount (ps.map lot) ∧
      processor'.inventoryBookTransactionsToUpdateMap.get sale.id = some (calculatedSale sale
        (allocationCost linked ps₀ (Fifo.alloc sale.amount (ps.map lot)))
        (allocationLog linked ps₀ (Fifo.alloc sale.amount (ps.map lot)))) ∧
      (∃ cogs, processor'.financialBookTransactionsToCreateMap.get sale.id = some cogs ∧
        cogs.amount = allocationCost linked ps₀ (Fifo.alloc sale.amount (ps.map lot))) ∧
      ∀ k, k ≠ sale.id → k ∉ ps.map Transaction.id →
        processor'.inventoryBookTransactionsToUpdateMap.get k =
            processor.inventoryBookTransactionsToUpdateMap.get k ∧
          processor'.financialBookTransactionsToCreateMap.get k =
            processor.financialBookTransactionsToCreateMap.get k := by
  unfold processSale at h
  obtain ⟨⟨qs, st⟩, hloop, h⟩ := bind_eq_ok.1 h
  obtain ⟨hkept', hcost, hlog⟩ := processPurchases_allocation hP hloop hamount hkept hlinked
  obtain ⟨hlots, -, hleft⟩ := processPurchases_lots hloop hamount hkept.stocked
  have hserved : st.soldQuantity = 0 := by
    rw [hleft, min_eq_left hcovered, sub_self]
  rw [zero_add] at hcost
  rw [List.nil_append] at hlog
  have hlength : ps₀.length = (Fifo.alloc sale.amount (ps.map lot)).length := by
    rw [Fifo.length_alloc, List.length_map]
    exact hkept.length_eq
  have hsum : ((allocationLog linked ps₀ (Fifo.alloc sale.amount (ps.map lot))).map
      PurchaseLogEntry.qt).sum = (Fifo.alloc sale.amount (ps.map lot)).sum :=
    sum_qt_allocationLog hlength (Fifo.alloc_nonneg hamount.le (lots_nonneg hkept.stocked))
  rw [Fifo.alloc_sum hamount.le (lots_nonneg hkept.stocked), min_eq_left hcovered] at hsum
  have hentries : 0 < st.purchaseLogEntries.length := by
    rw [hlog]
    refine List.length_pos_of_ne_nil fun hnil => ?_
    rw [hnil] at hsum
    exact hamount.ne hsum
  have hsettled : settleSale st.saleCost st.purchaseLogEntries sale =
      calculatedSale sale st.saleCost st.purchaseLogEntries := if_pos hentries
  simp only [hserved, hP.round_zero, if_true, hsettled] at h
  cases h
  refine ⟨hkept', hlots, ?_, ?_, ?_⟩
  · rw [hcost, hlog]
    exact OrderedMap.get_set_self _ _ _
  · exact ⟨_, OrderedMap.get_set_self _ _ _, hcost⟩
  · intro k hk hps
    have hupdate := processPurchases_frame hloop hps
    have hfinancial := processPurchases_posted hloop
    refine ⟨(OrderedMap.get_set_of_ne _ _ hk).trans hupdate, ?_⟩
    exact (OrderedMap.get_set_of_ne _ _ hk).trans (congrArg (OrderedMap.get · k) hfinancial)

/-! ## All sales -/

/-- `processSale` for each sale in order, over the same purchases. -/
def processEachSale (P : Platform) (env : RunEnv) (financialBook inventoryBook : Book)
    (sales purchaseTransactions : List Transaction) (processor : CalculateCostOfSalesProcessor) :
    Except Exception (List Transaction × CalculateCostOfSalesProcessor) :=
  sales.foldlM (fun r saleTransaction =>
    processSale P env financialBook inventoryBook saleTransaction r.1 r.2)
    (purchaseTransactions, processor)

/-- A sale and its cost of sales transaction as they are queued, for the quantities `xs` taken
    from the purchases `ps`. -/
def Queued (linked : Transaction → LinkedAmounts) (ps : List Transaction)
    (processor : CalculateCostOfSalesProcessor) (sale : Transaction) (xs : List ℚ) : Prop :=
  processor.inventoryBookTransactionsToUpdateMap.get sale.id =
      some (calculatedSale sale (allocationCost linked ps xs) (allocationLog linked ps xs)) ∧
    ∃ cogs, processor.financialBookTransactionsToCreateMap.get sale.id = some cogs ∧
      cogs.amount = allocationCost linked ps xs

theorem sum_amounts_nonneg {sales : List Transaction} (h : ∀ t ∈ sales, 0 < t.amount) :
    0 ≤ (sales.map Transaction.amount).sum := by
  refine List.sum_nonneg fun q hq => ?_
  obtain ⟨t, ht, rfl⟩ := List.mem_map.1 hq
  exact (h t ht).le

/-- What the sales take from the purchases, and what they queue. -/
theorem processEachSale_allocation (hP : P.Exact) :
    ∀ {sales ps₀ ps ps' : List Transaction} {processor processor' : CalculateCostOfSalesProcessor},
      processEachSale P env fb ib sales ps processor = .ok (ps', processor') →
      (∀ t ∈ sales, 0 < t.amount) → (sales.map Transaction.id).Nodup →
      (∀ t ∈ sales, t.id ∉ ps.map Transaction.id) →
      (sales.map Transaction.amount).sum ≤ (ps.map lot).sum → AllKept linked ps₀ ps →
      (∀ p₀ ∈ ps₀, Unprocessed p₀ →
        getAdditionalCostsAndCreditNotes P fb p₀ = .ok (linked p₀)) →
      AllKept linked ps₀ ps' ∧
        ps'.map lot = Fifo.residualAll (sales.map Transaction.amount) (ps.map lot) ∧
        List.Forall₂ (Queued linked ps₀ processor') sales
          (Fifo.allocAll (sales.map Transaction.amount) (ps.map lot)) ∧
        ∀ k, k ∉ sales.map Transaction.id → k ∉ ps.map Transaction.id →
          processor'.inventoryBookTransactionsToUpdateMap.get k =
              processor.inventoryBookTransactionsToUpdateMap.get k ∧
            processor'.financialBookTransactionsToCreateMap.get k =
              processor.financialBookTransactionsToCreateMap.get k := by
  intro sales
  induction sales with
  | nil =>
    intro ps₀ ps ps' processor processor' h _ _ _ _ hkept _
    cases h
    exact ⟨hkept, rfl, .nil, fun _ _ _ => ⟨rfl, rfl⟩⟩
  | cons sale sales ih =>
    intro ps₀ ps ps' processor processor' h hsales hids hother hcovered hkept hlinked
    unfold processEachSale at h
    rw [List.foldlM_cons] at h
    obtain ⟨⟨ps₁, processor₁⟩, hsale, h⟩ := bind_eq_ok.1 h
    rw [List.map_cons, List.nodup_cons] at hids
    have hamount : 0 < sale.amount := hsales sale List.mem_cons_self
    have hrest : ∀ t ∈ sales, 0 < t.amount := fun t ht => hsales t (List.mem_cons_of_mem _ ht)
    have hnonneg := sum_amounts_nonneg hrest
    rw [List.map_cons, List.sum_cons] at hcovered
    have hfirst : sale.amount ≤ (ps.map lot).sum := by linarith
    obtain ⟨hkept₁, hlots, hupdate, hcogs, hframe⟩ :=
      processSale_allocation hP hsale hamount hfirst hkept hlinked
    have hids₁ : ps₁.map Transaction.id = ps.map Transaction.id := hkept₁.ids.trans hkept.ids.symm
    have hcovered₁ : (sales.map Transaction.amount).sum ≤ (ps₁.map lot).sum := by
      rw [hlots, Fifo.residual_sum hamount.le (lots_nonneg hkept.stocked), min_eq_left hfirst]
      linarith
    obtain ⟨hkept', hlots', hqueued, hframe'⟩ := ih h hrest hids.2
      (fun t ht => hids₁ ▸ hother t (List.mem_cons_of_mem _ ht)) hcovered₁ hkept₁ hlinked
    obtain ⟨hupdate', hfinancial'⟩ :=
      hframe' sale.id hids.1 (hids₁ ▸ hother sale List.mem_cons_self)
    rw [hlots] at hlots' hqueued
    refine ⟨hkept', hlots', .cons ⟨hupdate'.trans hupdate, ?_⟩ hqueued, ?_⟩
    · exact hcogs.imp fun cogs hcogs => ⟨hfinancial'.trans hcogs.1, hcogs.2⟩
    · intro k hk hps
      rw [List.map_cons, List.mem_cons, not_or] at hk
      obtain ⟨hu, hf⟩ := hframe k hk.1 hps
      obtain ⟨hu', hf'⟩ := hframe' k hk.2 (hids₁ ▸ hps)
      exact ⟨hu'.trans hu, hf'.trans hf⟩

/-! ## The calls return -/

/-- A purchase carries the properties that a sale reads, beside its cost. -/
def Readable (p : Transaction) : Prop := p.purchaseCode.isSome ∧ p.originalQuantity.isSome

/-- Such a purchase can be read. -/
theorem Readable.legible {p : Transaction} (h : Readable p) (hcost : p.totalCost.isSome)
    (hlinked : Unprocessed p → ∃ amounts, getAdditionalCostsAndCreditNotes P fb p = .ok amounts) :
    Legible P fb p :=
  ⟨fun hnone => absurd hnone (Option.isSome_iff_ne_none.1 h.2),
    fun hnone => absurd hnone (Option.isSome_iff_ne_none.1 hcost),
    fun hunprocessed => getAdditionalCostsAndCreditNotes_returns_iff.1 (hlinked hunprocessed)⟩

variable (env ib) in
/-- The sales are processed to the end when the purchases serve them. -/
theorem processEachSale_returns :
    ∀ {sales ps : List Transaction} (processor : CalculateCostOfSalesProcessor),
      (∀ t ∈ sales, 0 < t.amount) → (∀ p ∈ ps, Stocked p) → Served P fb sales ps →
      ∃ ps' processor', processEachSale P env fb ib sales ps processor = .ok (ps', processor') := by
  intro sales
  induction sales with
  | nil => exact fun _ _ _ _ => ⟨_, _, rfl⟩
  | cons sale sales ih =>
    intro ps processor hsales hps hserved
    have hsale : 0 < sale.amount := hsales sale List.mem_cons_self
    have hrest : ∀ t ∈ sales, 0 < t.amount := fun t ht => hsales t (List.mem_cons_of_mem _ ht)
    obtain ⟨⟨qs, processor₁⟩, hone⟩ := (processSale_returns_iff env ib processor hsale hps).2
      (hserved.serves hrest)
    obtain ⟨hstocked, hiff⟩ := processSale_served hone hsale hrest hps
    obtain ⟨ps', processor', h⟩ := ih processor₁ hrest hstocked (hiff.1 hserved)
    refine ⟨ps', processor', ?_⟩
    unfold processEachSale at h ⊢
    rw [List.foldlM_cons, hone]
    exact h

/-! ## The reference definition -/

/-- The quantity that the sale `i` takes from the purchase `j`: the overlap of the interval of
    the sale with that of the purchase, when sales and purchases are put end to end. -/
def allocated (sales ps : List Transaction) (i j : ℕ) : ℚ :=
  max 0 (min (Fifo.cum (sales.map Transaction.amount) (i + 1))
      (Fifo.cum (ps.map Transaction.amount) (j + 1)) -
    max (Fifo.cum (sales.map Transaction.amount) i) (Fifo.cum (ps.map Transaction.amount) j))

/-- The quantities that a sale takes, purchase by purchase. -/
theorem zip_eq_finRange {ps : List Transaction} {xs : List ℚ} {x : ℕ → ℚ}
    (hlen : xs.length = ps.length) (hx : ∀ (j : ℕ) (hj : j < xs.length), xs[j] = x j) :
    ps.zip xs = (List.finRange ps.length).map fun j : Fin ps.length => (ps[j], x j) := by
  refine List.ext_getElem (by simp [hlen]) fun j h₁ h₂ => ?_
  have hj : j < xs.length := by
    rw [List.length_zip] at h₁
    exact lt_of_lt_of_le h₁ (min_le_right _ _)
  simp [hx j hj]

theorem allocationLog_eq {ps : List Transaction} {xs : List ℚ} {x : ℕ → ℚ}
    (hlen : xs.length = ps.length) (hx : ∀ (j : ℕ) (hj : j < xs.length), xs[j] = x j) :
    allocationLog linked ps xs = (List.finRange ps.length).filterMap fun j : Fin ps.length =>
      if 0 < x j then some ⟨ps[j].id, x j, unitCost (linked ps[j]) ps[j], ""⟩ else none := by
  rw [allocationLog, zip_eq_finRange hlen hx, List.filterMap_map]
  rfl

theorem allocationCost_eq {ps : List Transaction} {xs : List ℚ} {x : ℕ → ℚ}
    (hlen : xs.length = ps.length) (hx : ∀ (j : ℕ) (hj : j < xs.length), xs[j] = x j) :
    allocationCost linked ps xs =
      ∑ j : Fin ps.length, x j * unitCost (linked ps[j]) ps[j] := by
  rw [allocationCost, zip_eq_finRange hlen hx, List.map_map, Fin.sum_univ_def]
  rfl

/-- What a purchase is left with, from what the sales leave in each lot. -/
theorem Kept.left {amounts : LinkedAmounts} {p₀ p : Transaction} {before after sold : ℚ}
    (h : Kept amounts p₀ p) (hunchecked : p₀.checked = false)
    (hamount : 0 < p₀.amount) (hafter : after = before + p₀.amount)
    (hlot : lot p = max 0 (after - sold) - max 0 (before - sold)) :
    (p.checked = true ↔ after ≤ sold) ∧
      (p.checked = false → p.amount = after - max before sold ∧
        (sold ≤ before → p = p₀) ∧
        (before < sold → p.totalCost = some (p.amount * unitCost amounts p₀))) := by
  have hlot₀ : lot p₀ = p₀.amount := lot_of_unchecked hunchecked
  cases hc : p.checked with
  | true =>
    refine ⟨iff_of_true rfl ?_, fun h => by cases h⟩
    rw [lot_of_checked hc] at hlot
    by_contra hlt
    have hmax : max 0 (before - sold) < after - sold := max_lt (by linarith) (by linarith)
    have hle : after - sold ≤ max 0 (after - sold) := le_max_right _ _
    linarith
  | false =>
    rw [lot_of_unchecked hc] at hlot
    obtain ⟨hpos, hcost, hunit⟩ := h.value hc
    have hlt : sold < after := by
      by_contra hle
      have hzero : max 0 (after - sold) = 0 := max_eq_left (by linarith)
      have hnonneg : 0 ≤ max 0 (before - sold) := le_max_left _ _
      linarith
    have hleft : p.amount = after - max before sold := by
      have hshift : max before sold = max 0 (before - sold) + sold := by
        rw [← max_add_add_right, zero_add, sub_add_cancel, max_comm]
      rw [hlot, hshift, max_eq_right (by linarith)]
      ring
    refine ⟨iff_of_false (by simp) (not_le.2 hlt), fun _ => ⟨hleft, fun hle => ?_, fun hlt' => ?_⟩⟩
    · rcases h.change with rfl | ⟨-, hless⟩
      · rfl
      · rw [lot_of_unchecked hc, hlot₀, hleft, max_eq_left hle] at hless
        linarith
    · rw [max_eq_right hlt'.le] at hleft
      rcases h.change with rfl | ⟨hprocessed, -⟩
      · linarith
      · obtain ⟨cost, hcost⟩ := Option.isSome_iff_exists.1 hcost
        rw [unitCost, if_neg hprocessed, hcost] at hunit
        rw [hcost, ← hunit]
        exact congrArg some (mul_div_cancel₀ _ hpos.ne').symm

/-- The lots that a sequence of demands leaves. -/
theorem lots_left {sales ps ps' : List Transaction} (hsales : ∀ t ∈ sales, 0 < t.amount)
    (hps : ∀ q ∈ ps.map Transaction.amount, 0 ≤ q)
    (hlots : ps'.map lot =
      Fifo.residualAll (sales.map Transaction.amount) (ps.map Transaction.amount))
    {j : ℕ} (hj : j < ps'.length) :
    lot ps'[j] =
      max 0 (Fifo.cum (ps.map Transaction.amount) (j + 1) -
          (sales.map Transaction.amount).sum) -
        max 0 (Fifo.cum (ps.map Transaction.amount) j -
          (sales.map Transaction.amount).sum) := by
  have hnonneg : ∀ s ∈ sales.map Transaction.amount, 0 ≤ s := by
    intro s hs
    obtain ⟨t, ht, rfl⟩ := List.mem_map.1 hs
    exact (hsales t ht).le
  have hcum : ∀ k, Fifo.cum (ps'.map lot) k =
      max 0 (Fifo.cum (ps.map Transaction.amount) k - (sales.map Transaction.amount).sum) :=
    fun k => hlots ▸ Fifo.cum_residualAll hnonneg hps k
  have hsucc := Fifo.cum_succ (ps'.map lot) (j := j) (by simpa using hj)
  rw [List.getElem_map, hcum, hcum] at hsucc
  linarith

/-- Calling `processSale` for each sale in order returns and allocates as the reference definition
    says, at the unit costs at the start, where the purchases carry their code and their original
    quantity. -/
theorem sales_allocated (hP : P.Exact) {sales ps : List Transaction}
    {processor : CalculateCostOfSalesProcessor}
    (hids : ((ps ++ sales).map Transaction.id).Nodup)
    (hps : ∀ p ∈ ps, p.checked = false ∧ 0 < p.amount ∧ p.totalCost.isSome)
    (hsales : ∀ t ∈ sales, 0 < t.amount)
    (hcovered : (sales.map Transaction.amount).sum ≤ (ps.map Transaction.amount).sum)
    (hlinked : ∀ p ∈ ps, Unprocessed p →
      getAdditionalCostsAndCreditNotes P fb p = .ok (linked p))
    (hread : ∀ p ∈ ps, Readable p) :
    ∃ ps' processor', processEachSale P env fb ib sales ps processor = .ok (ps', processor') ∧
      (∀ i : Fin sales.length,
        let x (j : Fin ps.length) : ℚ := allocated sales ps i j
        let u (j : Fin ps.length) : ℚ := unitCost (linked ps[j]) ps[j]
        (∃ sale, processor'.inventoryBookTransactionsToUpdateMap.get sales[i].id = some sale ∧
          sale.id = sales[i].id ∧ sale.checked = true ∧
          sale.totalCost = some (∑ j, x j * u j) ∧
          sale.purchaseLog = some ((List.finRange ps.length).filterMap fun j =>
            if 0 < x j then some ⟨ps[j].id, x j, u j, ""⟩ else none)) ∧
        ∃ cogs, processor'.financialBookTransactionsToCreateMap.get sales[i].id = some cogs ∧
          cogs.amount = ∑ j, x j * u j) ∧
      ∀ j : Fin ps.length, ∃ p, ps'[j]? = some p ∧ p.id = ps[j].id ∧
        (p.checked = true ↔ Fifo.cum (ps.map Transaction.amount) (j + 1) ≤
          Fifo.cum (sales.map Transaction.amount) sales.length) ∧
        (p.checked = false →
          p.amount = Fifo.cum (ps.map Transaction.amount) (j + 1) -
            max (Fifo.cum (ps.map Transaction.amount) j)
              (Fifo.cum (sales.map Transaction.amount) sales.length) ∧
          (Fifo.cum (sales.map Transaction.amount) sales.length ≤
            Fifo.cum (ps.map Transaction.amount) j → p = ps[j]) ∧
          (Fifo.cum (ps.map Transaction.amount) j <
              Fifo.cum (sales.map Transaction.amount) sales.length →
            p.totalCost = some (p.amount * unitCost (linked ps[j]) ps[j]))) := by
  have hlot : ps.map lot = ps.map Transaction.amount :=
    List.map_congr_left fun p hp => lot_of_unchecked (hps p hp).1
  have hkept : AllKept linked ps ps := by
    refine List.forall₂_same.2 fun p hp => ⟨.refl p, Or.inl rfl, fun _ => ⟨(hps p hp).2.1,
      (hps p hp).2.2, rfl⟩⟩
  have hlots : ∀ q ∈ ps.map Transaction.amount, 0 ≤ q := by
    intro q hq
    obtain ⟨p, hp, rfl⟩ := List.mem_map.1 hq
    exact (hps p hp).2.1.le
  have hdemands : ∀ q ∈ sales.map Transaction.amount, 0 ≤ q := by
    intro q hq
    obtain ⟨t, ht, rfl⟩ := List.mem_map.1 hq
    exact (hsales t ht).le
  rw [List.map_append, List.nodup_append] at hids
  obtain ⟨-, hsaleIds, hdisjoint⟩ := hids
  have hserved : Served P fb sales ps := by
    refine served_of_forall fun p hp => ⟨(hread p hp).legible (hps p hp).2.2 fun h => ?_, ?_⟩
    · exact ⟨_, hlinked p hp h⟩
    · exact Option.isSome_iff_ne_none.1 (hread p hp).1
  obtain ⟨ps', processor', h⟩ := processEachSale_returns env ib processor hsales
    (fun p hp _ => (hps p hp).2.1) hserved
  obtain ⟨hkept', hleft, hqueued, -⟩ := processEachSale_allocation hP h hsales hsaleIds
    (fun t ht hid => hdisjoint _ hid _ (List.mem_map_of_mem ht) rfl) (hlot ▸ hcovered) hkept hlinked
  rw [hlot] at hleft hqueued
  obtain ⟨hlength, hqueued⟩ := List.forall₂_iff_get.1 hqueued
  obtain ⟨hlength', hkept'⟩ := List.forall₂_iff_get.1 hkept'
  refine ⟨ps', processor', h, fun i => ?_, fun j => ?_⟩
  · have hi : (i : ℕ) < (Fifo.allocAll (sales.map Transaction.amount)
        (ps.map Transaction.amount)).length := hlength ▸ i.isLt
    obtain ⟨hupdate, cogs, hcogs, hamount⟩ := hqueued i i.isLt hi
    have hlen : (Fifo.allocAll (sales.map Transaction.amount)
        (ps.map Transaction.amount))[(i : ℕ)].length = ps.length := by
      rw [Fifo.length_getElem_allocAll hi, List.length_map]
    have hx : ∀ (j : ℕ) (hj : j < (Fifo.allocAll (sales.map Transaction.amount)
        (ps.map Transaction.amount))[(i : ℕ)].length), (Fifo.allocAll
          (sales.map Transaction.amount) (ps.map Transaction.amount))[(i : ℕ)][j] =
            allocated sales ps i j :=
      fun j hj => Fifo.allocAll_getElem hdemands hlots hi hj
    rw [List.get_eq_getElem, List.get_eq_getElem, allocationCost_eq hlen hx,
      allocationLog_eq hlen hx] at hupdate
    rw [List.get_eq_getElem] at hcogs
    rw [List.get_eq_getElem, allocationCost_eq hlen hx] at hamount
    exact ⟨⟨_, hupdate, rfl, rfl, rfl, rfl⟩, cogs, hcogs, hamount⟩
  · have hj : (j : ℕ) < ps'.length := hlength' ▸ j.isLt
    have hj' := hkept' j j.isLt hj
    rw [List.get_eq_getElem, List.get_eq_getElem] at hj'
    have htotal : Fifo.cum (sales.map Transaction.amount) sales.length =
        (sales.map Transaction.amount).sum := Fifo.cum_of_length_le (by simp)
    rw [htotal]
    refine ⟨ps'[(j : ℕ)], List.getElem?_eq_getElem hj, hj'.same.id, ?_⟩
    obtain ⟨hunchecked, hamount, -⟩ := hps ps[j] (List.getElem_mem _)
    refine hj'.left hunchecked hamount ?_ (lots_left hsales hlots hleft hj)
    rw [Fifo.cum_succ _ (by simp), List.getElem_map]

end Allocation

namespace Sample

def twoPurchases : List Transaction := [purchase "1" "P1" 1 10 100, purchase "5" "P2" 2 5 60]

def twoSales : List Transaction := [sale "2" "S1" 2 4 80, sale "6" "S2" 3 8 160]

/-- The amounts linked to the purchases. -/
def linked (p : Transaction) : LinkedAmounts := if p.id = "1" then ⟨20, 0⟩ else {}

end Sample

/-- A sale that takes six of the first and two of the second purchase, at twelve each. -/
theorem sales_allocated_sample :
    ∃ ps' processor', processEachSale exactPlatform (Sample.env 9) Sample.start.financialBook
        Sample.start.inventoryBook Sample.twoSales Sample.twoPurchases {} = .ok (ps', processor') ∧
      ∃ cogs, processor'.financialBookTransactionsToCreateMap.get "6" = some cogs ∧
        cogs.amount = 96 := by
  obtain ⟨ps', processor', hreturns, hsales, -⟩ := @sales_allocated exactPlatform (Sample.env 9)
    Sample.start.financialBook Sample.start.inventoryBook Sample.linked exactPlatform_exact
    Sample.twoSales Sample.twoPurchases {} (by decide +kernel) (by decide +kernel)
    (by decide +kernel) (by decide +kernel) (by decide +kernel)
    (by unfold Readable; decide +kernel)
  obtain ⟨-, cogs, hcogs, hamount⟩ := hsales ⟨1, by decide⟩
  exact ⟨ps', processor', hreturns, cogs, hcogs, hamount.trans (by decide +kernel)⟩

namespace Sample

/-- A purchase of ten without a purchase code. -/
def uncodedPurchase : Transaction := { purchase "1" "P1" 1 10 100 with purchaseCode := none }

def smallSale : Transaction := sale "2" "S1" 2 4 80

end Sample

/-- A sale of four does not get past a purchase of ten without a code: the code is read for the
    split. -/
theorem sales_allocated_uncoded :
    (Sample.uncodedPurchase.checked = false ∧ 0 < Sample.uncodedPurchase.amount ∧
        Sample.uncodedPurchase.totalCost.isSome) ∧
      0 < Sample.smallSale.amount ∧ Sample.smallSale.amount ≤ Sample.uncodedPurchase.amount ∧
      Sample.smallSale.id ≠ Sample.uncodedPurchase.id ∧
      getAdditionalCostsAndCreditNotes exactPlatform Sample.start.financialBook
        Sample.uncodedPurchase = .ok {} ∧
      processEachSale exactPlatform (Sample.env 9) Sample.start.financialBook
        Sample.start.inventoryBook [Sample.smallSale] [Sample.uncodedPurchase] {} =
          .error .typeError := by
  refine ⟨by decide +kernel, by decide +kernel, by decide +kernel, by decide +kernel,
    by decide +kernel, ?_⟩
  rfl

end InventoryBot.Menu
