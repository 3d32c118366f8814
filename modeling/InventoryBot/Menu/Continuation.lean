import InventoryBot.Menu.ListingOrder

/-!
# A loop over sales that goes on where another one ended

A run up to a date handles the first sales and the first purchases of a run up to a later date. The
later run goes on with the purchases that are left, and a run that starts anew finds them in the
book.

* `processSales_append`: the sales of a list one part after the other.
* `processSales_extend`: purchases that the sales do not reach may be offered as well.
* `processSales_thinned`: checked purchases may be left out.
* `Continues`: the queues of a loop that goes on, against those of a loop that starts anew.
-/

namespace InventoryBot.Menu

open Lib CostOfSalesService

section Loops

variable {P : Platform} {env : RunEnv} {fb ib : Book}

/-- The loop over the sales handles one part of them after the other. -/
theorem processSales_append {later : List Transaction}
    {result : List Transaction × CalculateCostOfSalesProcessor} :
    ∀ {earlier ps : List Transaction} {processor : CalculateCostOfSalesProcessor},
      processSales P env fb ib (earlier ++ later) ps processor = .ok (some result) ↔
        ∃ qs processor₁, processSales P env fb ib earlier ps processor =
            .ok (some (qs, processor₁)) ∧
          processSales P env fb ib later qs processor₁ = .ok (some result) := by
  intro earlier
  induction earlier with
  | nil =>
    intro ps processor
    constructor
    · exact fun h => ⟨ps, processor, rfl, h⟩
    · rintro ⟨qs, processor₁, hnil, h⟩
      cases hnil
      exact h
  | cons sale earlier ih =>
    intro ps processor
    rw [List.cons_append, processSales_cons]
    constructor
    · rintro ⟨qs, processor₁, hone, hunlocked, h⟩
      obtain ⟨qs', processor₂, hearlier, hlater⟩ := ih.1 h
      exact ⟨qs', processor₂, processSales_cons.2 ⟨qs, processor₁, hone, hunlocked, hearlier⟩,
        hlater⟩
    · rintro ⟨qs', processor₂, h, hlater⟩
      obtain ⟨qs, processor₁, hone, hunlocked, hearlier⟩ := processSales_cons.1 h
      exact ⟨qs, processor₁, hone, hunlocked, ih.2 ⟨qs', processor₂, hearlier, hlater⟩⟩

/-! ## Purchases that are not reached -/

/-- A sale that is served does not look at the purchases that come later. -/
theorem processPurchases_extend {sale : Transaction} (rest : List Transaction) :
    ∀ {ps ps' : List Transaction} {st st' : SaleLoop},
      processPurchases P env fb sale ps st = .ok (ps', st') → st.soldQuantity ≠ 0 →
      st'.soldQuantity = 0 →
      processPurchases P env fb sale (ps ++ rest) st = .ok (ps' ++ rest, st') := by
  intro ps
  induction ps with
  | nil =>
    intro ps' st st' h hsold hserved
    cases h
    exact absurd hserved hsold
  | cons p ps ih =>
    intro ps' st st' h hsold hserved
    rw [List.cons_append, processPurchases]
    rcases processPurchases_cons h with ⟨hchecked, qs, hrest, rfl⟩ | ⟨hopen, p', st₁, hone, hend⟩
    · rw [if_pos hchecked, ih hrest hsold hserved]
      rfl
    · rw [if_neg (by simp [hopen]), hone]
      rcases hend with ⟨hdone, rfl, rfl⟩ | ⟨hleft, qs, hrest, rfl⟩
      · show (if st'.soldQuantity = 0 then _ else _) = _
        rw [if_pos hdone]
        rfl
      · show (if st₁.soldQuantity = 0 then _ else _) = _
        rw [if_neg hleft, ih hrest hleft hserved]
        rfl

theorem processSale_extend {sale : Transaction} (rest : List Transaction)
    {ps ps' : List Transaction} {processor processor' : CalculateCostOfSalesProcessor}
    (h : processSale P env fb ib sale ps processor = .ok (ps', processor'))
    (hsale : 0 < sale.amount) (hps : ∀ p ∈ ps, Stocked p)
    (hcovered : sale.amount ≤ (ps.map lot).sum) :
    processSale P env fb ib sale (ps ++ rest) processor = .ok (ps' ++ rest, processor') := by
  unfold processSale at h ⊢
  obtain ⟨⟨qs, st⟩, hloop, h⟩ := bind_eq_ok.1 h
  obtain ⟨-, -, hleft⟩ := processPurchases_lots hloop hsale hps
  have hserved : st.soldQuantity = 0 := by
    rw [hleft]
    exact sub_eq_zero.2 (min_eq_left hcovered).symm
  rw [processPurchases_extend rest hloop hsale.ne' hserved]
  show (if P.round st.soldQuantity ib.info.fractionDigits = 0 then _ else _) = _
  dsimp only at h
  split at h
  · rename_i hround
    cases h
    rw [if_pos hround]
    rfl
  · rename_i hround
    cases h
    rw [if_neg hround]
    rfl

/-- What sales that the purchases cover leave of these. -/
theorem processSale_lots {sale : Transaction} {ps ps' : List Transaction}
    {processor processor' : CalculateCostOfSalesProcessor}
    (h : processSale P env fb ib sale ps processor = .ok (ps', processor'))
    (hsale : 0 < sale.amount) (hps : ∀ p ∈ ps, Stocked p)
    (hcovered : sale.amount ≤ (ps.map lot).sum) :
    (∀ p ∈ ps', Stocked p) ∧ (ps'.map lot).sum = (ps.map lot).sum - sale.amount := by
  obtain ⟨st, hloop, -⟩ := processSale_cases h
  obtain ⟨hlots, hstocked, -⟩ := processPurchases_lots hloop hsale hps
  refine ⟨hstocked, ?_⟩
  rw [hlots, Fifo.residual_sum hsale.le (lots_nonneg hps), min_eq_left hcovered]

theorem amounts_cons (t : Transaction) (l : List Transaction) :
    amounts (t :: l) = t.amount + amounts l := by
  rw [amounts, List.map_cons, List.sum_cons]
  rfl

theorem amounts_nonneg {l : List Transaction} (h : ∀ t ∈ l, 0 < t.amount) : 0 ≤ amounts l := by
  refine List.sum_nonneg fun q hq => ?_
  obtain ⟨t, ht, rfl⟩ := List.mem_map.1 hq
  exact (h t ht).le

/-- Sales that the purchases cover do not look at the purchases that come later. -/
theorem processSales_extend (rest : List Transaction) :
    ∀ {sales ps ps' : List Transaction} {processor processor' : CalculateCostOfSalesProcessor},
      processSales P env fb ib sales ps processor = .ok (some (ps', processor')) →
      (∀ t ∈ sales, 0 < t.amount) → (∀ p ∈ ps, Stocked p) → amounts sales ≤ (ps.map lot).sum →
      processSales P env fb ib sales (ps ++ rest) processor =
          .ok (some (ps' ++ rest, processor')) ∧
        (∀ p ∈ ps', Stocked p) ∧ (ps'.map lot).sum = (ps.map lot).sum - amounts sales := by
  intro sales
  induction sales with
  | nil =>
    intro ps ps' processor processor' h _ hps _
    cases h
    exact ⟨rfl, hps, by simp [amounts]⟩
  | cons sale sales ih =>
    intro ps ps' processor processor' h hsales hps hcovered
    obtain ⟨hsale, hrest⟩ := List.forall_mem_cons.1 hsales
    rw [amounts_cons] at hcovered ⊢
    have hnonneg := amounts_nonneg hrest
    have hfirst : sale.amount ≤ (ps.map lot).sum := by linarith
    obtain ⟨qs, processor₁, hone, hunlocked, h⟩ := processSales_cons.1 h
    obtain ⟨hqs, hlots⟩ := processSale_lots hone hsale hps hfirst
    obtain ⟨hextended, hps', hlots'⟩ := ih h hrest hqs (by linarith)
    refine ⟨processSales_cons.2 ⟨qs ++ rest, processor₁,
      processSale_extend rest hone hsale hps hfirst, hunlocked, hextended⟩, hps', ?_⟩
    rw [hlots', hlots]
    ring

/-! ## Checked purchases -/

/-- Purchases without some that are checked. -/
inductive Thinned : List Transaction → List Transaction → Prop
  | nil : Thinned [] []
  | drop {p : Transaction} {ps qs : List Transaction} (hchecked : p.checked = true)
      (h : Thinned ps qs) : Thinned (p :: ps) qs
  | keep {p : Transaction} {ps qs : List Transaction} (h : Thinned ps qs) :
      Thinned (p :: ps) (p :: qs)

theorem thinned_filter (ps : List Transaction) : Thinned ps (ps.filter fun p => !p.checked) := by
  induction ps with
  | nil => exact .nil
  | cons p ps ih =>
    cases hchecked : p.checked with
    | true =>
      rw [List.filter_cons_of_neg (by simp [hchecked])]
      exact .drop hchecked ih
    | false =>
      rw [List.filter_cons_of_pos (by simp [hchecked])]
      exact .keep ih

/-- The loop over the purchases passes over the checked ones. -/
theorem processPurchases_thinned {sale : Transaction} {ps qs : List Transaction}
    (h : Thinned ps qs) (st : SaleLoop) :
    Agree (fun r r' => Thinned r.1 r'.1 ∧ r'.2 = r.2)
      (processPurchases P env fb sale ps st) (processPurchases P env fb sale qs st) := by
  induction h generalizing st with
  | nil => exact agree_pure ⟨.nil, rfl⟩
  | drop hchecked _ ih =>
    rw [processPurchases, if_pos hchecked]
    refine agree_bind_left (ih st) ?_
    rintro ⟨ps', st₁⟩ ⟨qs', _⟩ ⟨hthinned, rfl⟩
    exact ⟨_, rfl, .drop hchecked hthinned, rfl⟩
  | keep hkept ih =>
    rw [processPurchases, processPurchases]
    split
    · refine agree_bind (ih st) ?_
      rintro ⟨ps', st₁⟩ ⟨qs', _⟩ ⟨hthinned, rfl⟩
      exact agree_pure ⟨.keep hthinned, rfl⟩
    · refine agree_bind_same _ ?_
      rintro ⟨p', st₁⟩
      dsimp only
      split
      · exact agree_pure ⟨.keep hkept, rfl⟩
      · refine agree_bind (ih st₁) ?_
        rintro ⟨ps', st₂⟩ ⟨qs', _⟩ ⟨hthinned, rfl⟩
        exact agree_pure ⟨.keep hthinned, rfl⟩

theorem processSale_thinned {sale : Transaction} {ps qs : List Transaction} (h : Thinned ps qs)
    (processor : CalculateCostOfSalesProcessor) :
    Agree (fun r r' => Thinned r.1 r'.1 ∧ r'.2 = r.2)
      (processSale P env fb ib sale ps processor) (processSale P env fb ib sale qs processor) := by
  unfold processSale
  refine agree_bind (processPurchases_thinned h _) ?_
  rintro ⟨ps', st⟩ ⟨qs', _⟩ ⟨hthinned, rfl⟩
  dsimp only
  split
  · exact agree_pure ⟨hthinned, rfl⟩
  · exact agree_pure ⟨hthinned, rfl⟩

/-- The loop over the sales may be offered the purchases without checked ones. -/
theorem processSales_thinned :
    ∀ {sales ps qs : List Transaction} {processor : CalculateCostOfSalesProcessor},
      Thinned ps qs →
      Agree (Option.Rel fun r r' => Thinned r.1 r'.1 ∧ r'.2 = r.2)
        (processSales P env fb ib sales ps processor)
        (processSales P env fb ib sales qs processor) := by
  intro sales
  induction sales with
  | nil =>
    intro ps qs processor h
    exact agree_pure (.some ⟨h, rfl⟩)
  | cons sale sales ih =>
    intro ps qs processor h
    rw [processSales, processSales]
    refine agree_bind (processSale_thinned h processor) ?_
    rintro ⟨ps', processor₁⟩ ⟨qs', _⟩ ⟨hthinned, rfl⟩
    dsimp only
    split
    · exact agree_pure .none
    · exact ih hthinned

end Loops

/-! ## The financial book -/

section FinancialBook

variable {P : Platform} {env : RunEnv} {fb fb' ib : Book}

/-- Transactions that are neither invoices nor credit notes are not linked to a purchase. -/
theorem getAdditionalCostsAndCreditNotes_append {posted : List Transaction}
    (haccounts : fb'.accounts = fb.accounts) (hrows : fb'.transactions = fb.transactions ++ posted)
    (hposted : ∀ t ∈ posted, t.purchaseInvoice = none ∧ t.creditNote = none) (p : Transaction) :
    getAdditionalCostsAndCreditNotes P fb' p = getAdditionalCostsAndCreditNotes P fb p := by
  have haccount : ∀ key, fb'.getAccount key = fb.getAccount key := by
    intro key
    unfold Book.getAccount
    rw [haccounts]
  have hadd : ∀ id code totals, ∀ t ∈ posted, addLinkedAmount id code totals t = totals := by
    intro id code totals t ht
    obtain ⟨hinvoice, hnote⟩ := hposted t ht
    simp [addLinkedAmount, isAdditionalCost, isLinkedCreditNote, hinvoice, hnote]
  have hfold : ∀ id code totals (l : List Transaction), (∀ t ∈ l, t ∈ posted) →
      l.foldl (addLinkedAmount id code) totals = totals := by
    intro id code totals l hl
    induction l with
    | nil => rfl
    | cons t l ih =>
      obtain ⟨ht, hl⟩ := List.forall_mem_cons.1 hl
      rw [List.foldl_cons, hadd id code totals t ht, ih hl]
  unfold getAdditionalCostsAndCreditNotes
  simp only [haccount, Book.getTransactions, hrows, List.filter_append, List.foldl_append]
  simp only [hfold _ _ _ _ fun t ht => List.mem_of_mem_filter ht]

/-- The loop over the sales reads accounts and linked amounts off the financial book only. -/
theorem processSales_financialBook (haccounts : fb'.accounts = fb.accounts)
    (hlinked : ∀ p, getAdditionalCostsAndCreditNotes P fb' p =
      getAdditionalCostsAndCreditNotes P fb p) :
    ∀ (sales ps : List Transaction) (processor : CalculateCostOfSalesProcessor),
      processSales P env fb' ib sales ps processor = processSales P env fb ib sales ps processor := by
  have haccount : ∀ key, fb'.getAccount key = fb.getAccount key := by
    intro key
    unfold Book.getAccount
    rw [haccounts]
  have hpurchase : ∀ sale p st, processPurchase P env fb' sale p st =
      processPurchase P env fb sale p st := by
    intro sale p st
    unfold processPurchase unfoldedAmounts
    rw [hlinked]
  have hpurchases : ∀ sale ps st, processPurchases P env fb' sale ps st =
      processPurchases P env fb sale ps st := by
    intro sale ps
    induction ps with
    | nil => exact fun _ => rfl
    | cons p ps ih =>
      intro st
      rw [processPurchases, processPurchases, hpurchase]
      simp only [ih]
  have hcost : ∀ sale cost, costOfSaleTransaction P env fb' sale cost =
      costOfSaleTransaction P env fb sale cost := by
    intro sale cost
    unfold costOfSaleTransaction
    simp only [haccount]
  have hsale : ∀ sale ps processor, processSale P env fb' ib sale ps processor =
      processSale P env fb ib sale ps processor := by
    intro sale ps processor
    unfold processSale addCostOfSales
    rw [hpurchases]
    simp only [hcost]
  intro sales
  induction sales with
  | nil => exact fun _ _ => rfl
  | cons sale sales ih =>
    intro ps processor
    rw [processSales, processSales, hsale]
    simp only [ih]

end FinancialBook

/-! ## The queues -/

/-- What a loop that goes on has queued, against what one that starts anew has queued: this comes
    over what was queued first. -/
structure Continues (env env' : RunEnv) (numbers numbers' : List String)
    (first processor processor' : CalculateCostOfSalesProcessor) : Prop where
  updated : ∀ k, processor.inventoryBookTransactionsToUpdateMap.get k =
    (processor'.inventoryBookTransactionsToUpdateMap.get k).or
      (first.inventoryBookTransactionsToUpdateMap.get k)
  created : processor.inventoryBookTransactionsToCreateMap.values.map unnamed =
    first.inventoryBookTransactionsToCreateMap.values.map unnamed ++
      processor'.inventoryBookTransactionsToCreateMap.values.map unnamed
  posted : ∀ k, processor.financialBookTransactionsToCreateMap.get k =
    (processor'.financialBookTransactionsToCreateMap.get k).or
      (first.financialBookTransactionsToCreateMap.get k)
  locked : processor'.isAnyTransactionLocked = processor.isAnyTransactionLocked
  named : Named env numbers processor
  named' : Named env' numbers' processor'

section Continues

variable {P : Platform} {env env' : RunEnv} {fb fb' ib ib' : Book} {numbers numbers' : List String}
  {first processor processor' : CalculateCostOfSalesProcessor}

theorem continues_start (hnamed : Named env numbers first)
    (hunlocked : first.isAnyTransactionLocked = false) :
    Continues env env' numbers numbers' first first {} where
  updated := fun _ => rfl
  created := (List.append_nil _).symm
  posted := fun _ => rfl
  locked := hunlocked.symm
  named := hnamed
  named' := fun _ hk => absurd hk List.not_mem_nil

theorem sameQueues_start (env env' : RunEnv) (numbers : List String) :
    SameQueues env env' numbers {} {} :=
  ⟨rfl, rfl, rfl, rfl, fun _ hk => absurd hk List.not_mem_nil,
    fun _ hk => absurd hk List.not_mem_nil⟩

/-- A loop goes on from nothing like one that starts anew. -/
theorem SameQueues.continues (h : SameQueues env env' numbers processor processor') :
    Continues env env' numbers numbers {} processor processor' where
  updated := by
    intro k
    rw [h.updated]
    exact (Option.or_none).symm
  created := h.created.symm
  posted := by
    intro k
    rw [h.posted]
    exact (Option.or_none).symm
  locked := h.locked
  named := h.named
  named' := h.named'

theorem Continues.update (h : Continues env env' numbers numbers' first processor processor')
    (t : Transaction) :
    Continues env env' numbers numbers' first (processor.setInventoryBookTransactionToUpdate t)
      (processor'.setInventoryBookTransactionToUpdate t) where
  updated := by
    intro k
    show (OrderedMap.set _ t.id t).get k = ((OrderedMap.set _ t.id t).get k).or _
    rw [OrderedMap.get_set, OrderedMap.get_set]
    split_ifs
    · rfl
    · exact h.updated k
  created := h.created
  posted := h.posted
  locked := congrArg (· || t.locked) h.locked
  named := h.named
  named' := h.named'

theorem Continues.post (h : Continues env env' numbers numbers' first processor processor')
    (t : Transaction) :
    Continues env env' numbers numbers' first (processor.setFinancialBookTransactionToCreate t)
      (processor'.setFinancialBookTransactionToCreate t) where
  updated := h.updated
  created := h.created
  posted := by
    intro k
    show (OrderedMap.set _ (CalculateCostOfSalesProcessor.getRemoteId t) t).get k =
      ((OrderedMap.set _ (CalculateCostOfSalesProcessor.getRemoteId t) t).get k).or _
    rw [OrderedMap.get_set, OrderedMap.get_set]
    split_ifs
    · rfl
    · exact h.posted k
  locked := congrArg (· || t.locked) h.locked
  named := h.named
  named' := h.named'

theorem Continues.split (h : Continues env env' numbers numbers' first processor processor')
    (hfresh : Book.FreshIds env.uuid numbers) (hfresh' : Book.FreshIds env'.uuid numbers')
    {t t' : Transaction}
    (ht : CalculateCostOfSalesProcessor.getRemoteId t = env.uuid processor.generatedIds)
    (ht' : CalculateCostOfSalesProcessor.getRemoteId t' = env'.uuid processor'.generatedIds)
    (hsame : unnamed t' = unnamed t) :
    Continues env env' numbers numbers' first
      ((processor.generateId env).2.setInventoryBookTransactionToCreate t)
      ((processor'.generateId env').2.setInventoryBookTransactionToCreate t') where
  updated := h.updated
  created := by
    rw [values_split (ht ▸ h.named.new hfresh), values_split (ht' ▸ h.named'.new hfresh'),
      List.map_append, List.map_append, h.created, List.append_assoc, List.map_singleton,
      List.map_singleton, hsame]
  posted := h.posted
  locked := by
    have hlocked : (unnamed t').locked = (unnamed t).locked := by rw [hsame]
    exact congrArg₂ (· || ·) h.locked hlocked
  named := h.named.split ht
  named' := h.named'.split ht'

theorem queueRelation_continues (hfresh : Book.FreshIds env.uuid numbers)
    (hfresh' : Book.FreshIds env'.uuid numbers') :
    QueueRelation env env' (Continues env env' numbers numbers' first) where
  update := fun h t => h.update t
  post := fun h t => h.post t
  split := fun h _ _ ht ht' _ hsame => h.split hfresh hfresh' ht ht' hsame
  locked := fun h => h.locked

/-- A loop that goes on queues over what was queued first what a loop queues that starts anew, on
    the purchases that are still open. -/
theorem processSales_continued {sales ps ps' : List Transaction}
    (hfresh : Book.FreshIds env.uuid numbers) (hfresh' : Book.FreshIds env'.uuid numbers')
    (hcogs : env'.cogsAccountId = env.cogsAccountId) (hinfo : ib'.info = ib.info)
    (haccounts : fb'.accounts = fb.accounts)
    (hlinked : ∀ p, getAdditionalCostsAndCreditNotes P fb' p =
      getAdditionalCostsAndCreditNotes P fb p)
    (hnamed : Named env numbers first) (hunlocked : first.isAnyTransactionLocked = false)
    (h : processSales P env fb ib sales ps first = .ok (some (ps', processor))) :
    ∃ qs processor', processSales P env' fb' ib' sales (ps.filter fun p => !p.checked) {} =
        .ok (some (qs, processor')) ∧
      Continues env env' numbers numbers' first processor processor' := by
  have halike : Agree _ (processSales P env fb ib sales ps first)
      (processSales P env' fb ib sales ps {}) :=
    processSales_alike (queueRelation_continues hfresh hfresh') hcogs sales ps
      (continues_start hnamed hunlocked)
  rw [h] at halike
  obtain ⟨result, hall, hrel⟩ := halike.of_ok
  cases hrel with
  | some hcontinues =>
    rename_i r
    have hthinned : Agree _ (processSales P env' fb ib sales ps {})
        (processSales P env' fb ib sales (ps.filter fun p => !p.checked) {}) :=
      processSales_thinned (thinned_filter ps)
    rw [hall] at hthinned
    obtain ⟨result, hopen, hrel⟩ := hthinned.of_ok
    cases hrel with
    | some hsame =>
      rename_i r'
      refine ⟨r'.1, r'.2, ?_, ?_⟩
      · rw [processSales_book hinfo, processSales_financialBook haccounts hlinked, hopen]
      · rw [hsame.2]
        exact hcontinues.2

/-- Both loops leave the rows alike. -/
theorem Continues.rows (h : Continues env env' numbers numbers' first processor processor')
    (hkeyed : Book.KeyedById processor.inventoryBookTransactionsToUpdateMap)
    (hkeyed' : Book.KeyedById processor'.inventoryBookTransactionsToUpdateMap)
    (hfirst : Book.KeyedById first.inventoryBookTransactionsToUpdateMap) (t : Transaction) :
    Book.updated processor'.inventoryBookTransactionsToUpdateMap.values
        (Book.updated first.inventoryBookTransactionsToUpdateMap.values t) =
      Book.updated processor.inventoryBookTransactionsToUpdateMap.values t := by
  rw [Book.updated_values hkeyed', Book.updated_values_id hfirst, Book.updated_values hfirst,
    Book.updated_values hkeyed, h.updated]
  cases processor'.inventoryBookTransactionsToUpdateMap.get t.id with
  | none => rfl
  | some u => rfl

end Continues

end InventoryBot.Menu
