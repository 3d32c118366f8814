import InventoryBot.Menu.CreditNotes

/-!
# When a calculation splits a purchase

A calculation queues splits for the credit notes it applies and for the purchases that a sale
takes in part.

* `processPurchases_splits`, `processSales_splits`: the sales split nothing exactly if they are
  served, first in, first out, in whole purchases.
* `planListing_splits`: the listings for which nothing is split.
* `nothingSplit_iff_aligned`: for positive amounts each sale then ends with a purchase.
-/

namespace InventoryBot.Menu

open Lib CostOfSalesService

variable {P : Platform} {env : RunEnv} {fb ib : Book}

/-- The processor has queued no split. -/
def NoSplit (processor : CalculateCostOfSalesProcessor) : Prop :=
  processor.inventoryBookTransactionsToCreateMap.keys = []

theorem not_noSplit_create (processor : CalculateCostOfSalesProcessor) (t : Transaction) :
    ¬NoSplit (processor.setInventoryBookTransactionToCreate t) := by
  intro h
  have hmem : CalculateCostOfSalesProcessor.getRemoteId t ∈
      (processor.setInventoryBookTransactionToCreate t).inventoryBookTransactionsToCreateMap.keys :=
    OrderedMap.mem_keys_set.2 (Or.inl rfl)
  rw [h] at hmem
  cases hmem

/-- One purchase is split exactly if more is offered than is asked for. -/
theorem processPurchase_splits {sale p p' : Transaction} {st st' : SaleLoop}
    (h : processPurchase P env fb sale p st = .ok (p', st')) :
    NoSplit st'.processor ↔ NoSplit st.processor ∧ p.amount ≤ st.soldQuantity := by
  obtain ⟨quantity, cost, amounts, -, -, -, hcase⟩ := processPurchase_cases h
  rcases hcase with ⟨hle, -, rfl⟩ | ⟨hlt, code, -, -, rfl⟩
  · exact ⟨fun hsplit => ⟨hsplit, hle⟩, fun hsplit => hsplit.1⟩
  · exact ⟨fun hsplit => absurd hsplit (not_noSplit_create _ _),
      fun hsplit => absurd hsplit.2 (not_le.2 hlt)⟩

/-- The amounts of the purchases that are still open. -/
def openAmounts (ps : List Transaction) : List ℚ :=
  (ps.filter fun p => !p.checked).map Transaction.amount

@[simp] theorem openAmounts_nil : openAmounts [] = [] := rfl

theorem openAmounts_cons_checked {p : Transaction} (h : p.checked = true) (ps : List Transaction) :
    openAmounts (p :: ps) = openAmounts ps := by
  simp [openAmounts, h]

theorem openAmounts_cons_open {p : Transaction} (h : p.checked = false) (ps : List Transaction) :
    openAmounts (p :: ps) = p.amount :: openAmounts ps := by
  simp [openAmounts, h]

theorem openAmounts_of_open {ps : List Transaction} (h : ∀ p ∈ ps, p.checked = false) :
    openAmounts ps = ps.map Transaction.amount := by
  rw [openAmounts, List.filter_eq_self.2 fun p hp => by rw [h p hp]; rfl]

/-- The loop over the purchases serves the sale in whole purchases, or splits one. -/
theorem processPurchases_splits {sale : Transaction} :
    ∀ {ps ps' : List Transaction} {st st' : SaleLoop},
      processPurchases P env fb sale ps st = .ok (ps', st') →
      (Fifo.takeWhole st.soldQuantity (openAmounts ps) = some (openAmounts ps') ∧
          (NoSplit st'.processor ↔ NoSplit st.processor)) ∨
        (Fifo.takeWhole st.soldQuantity (openAmounts ps) = none ∧ ¬NoSplit st'.processor) := by
  intro ps
  induction ps with
  | nil =>
    intro ps' st st' h
    cases h
    exact Or.inl ⟨rfl, Iff.rfl⟩
  | cons p ps ih =>
    intro ps' st st' h
    rcases processPurchases_cons h with ⟨hchecked, qs, hrest, rfl⟩ |
      ⟨hunchecked, p', st₁, hone, hend⟩
    · rw [openAmounts_cons_checked hchecked, openAmounts_cons_checked hchecked]
      exact ih hrest
    · have hsplit := processPurchase_splits hone
      obtain ⟨quantity, cost, amounts, -, -, -, hcase⟩ := processPurchase_cases hone
      rw [openAmounts_cons_open hunchecked, Fifo.takeWhole]
      rcases hcase with ⟨hle, hp', hst₁⟩ | ⟨hlt, code, -, -, hst₁⟩
      · have hchecked : p'.checked = true := hp' ▸ rfl
        have hsold : st₁.soldQuantity = st.soldQuantity - p.amount := hst₁ ▸ rfl
        rw [and_iff_left hle] at hsplit
        rw [if_pos hle, ← hsold, ← hsplit]
        rcases hend with ⟨hdone, rfl, rfl⟩ | ⟨hleft, qs, hrest, rfl⟩
        · rw [if_pos hdone, openAmounts_cons_checked hchecked]
          exact Or.inl ⟨rfl, Iff.rfl⟩
        · rw [if_neg hleft, openAmounts_cons_checked hchecked]
          exact ih hrest
      · -- the sale ends in the middle of the purchase
        have hdone : st₁.soldQuantity = 0 := hst₁ ▸ rfl
        rw [if_neg (not_le.2 hlt)]
        rcases hend with ⟨-, rfl, rfl⟩ | ⟨hleft, -⟩
        · exact Or.inr ⟨rfl, fun hno => absurd (hsplit.1 hno).2 (not_le.2 hlt)⟩
        · exact absurd hdone hleft

/-- The sales are served in whole purchases, or one of them splits a purchase. -/
theorem processSales_splits :
    ∀ {sales ps ps' : List Transaction} {processor processor' : CalculateCostOfSalesProcessor},
      processSales P env fb ib sales ps processor = .ok (some (ps', processor')) →
      (Fifo.takeAllWhole (sales.map Transaction.amount) (openAmounts ps) =
          some (openAmounts ps') ∧ (NoSplit processor' ↔ NoSplit processor)) ∨
        (Fifo.takeAllWhole (sales.map Transaction.amount) (openAmounts ps) = none ∧
          ¬NoSplit processor') := by
  intro sales
  induction sales with
  | nil =>
    intro ps ps' processor processor' h
    cases h
    exact Or.inl ⟨rfl, Iff.rfl⟩
  | cons sale sales ih =>
    intro ps ps' processor processor' h
    obtain ⟨qs, processor₁, hone, -, h⟩ := processSales_cons.1 h
    obtain ⟨st, hloop, hend⟩ := processSale_cases hone
    have hsame : NoSplit processor₁ ↔ NoSplit st.processor := by
      rcases hend with ⟨-, rfl⟩ | ⟨-, rfl⟩ <;> rfl
    rw [List.map_cons, Fifo.takeAllWhole]
    rcases processPurchases_splits hloop with ⟨hwhole, hsplit⟩ | ⟨hpart, hsplit⟩
    · rw [hwhole, Option.bind_some, ← hsplit, ← hsame]
      exact ih h
    · rw [hpart, Option.bind_none]
      refine Or.inr ⟨rfl, ?_⟩
      rcases ih h with ⟨-, hrest⟩ | ⟨-, hrest⟩
      · rwa [hrest, hsame]
      · exact hrest

/-- The credit notes split nothing exactly if none of them has a listed purchase; then they
    change nothing. -/
theorem processCreditNotes_splits :
    ∀ {notes : List (Option String × Transaction)}
      {purchases purchases' : OrderedMap (Option String) Transaction}
      {processor processor' : CalculateCostOfSalesProcessor},
      processCreditNotes P notes purchases processor = .ok (.done purchases' processor') →
      (NoSplit processor' ↔ NoSplit processor ∧ ∀ e ∈ notes, e.2.purchaseCode ∉ purchases.keys) ∧
        ((∀ e ∈ notes, e.2.purchaseCode ∉ purchases.keys) → purchases' = purchases) := by
  intro notes
  induction notes with
  | nil =>
    intro purchases purchases' processor processor' h
    cases h
    simp
  | cons e notes ih =>
    obtain ⟨number, note⟩ := e
    intro purchases purchases' processor processor' h
    rcases processCreditNotes_cons h with ⟨hnone, h⟩ | ⟨p, code, hp, hcode, -, h⟩
    · have habsent : note.purchaseCode ∉ purchases.keys := OrderedMap.get_eq_none.1 hnone
      obtain ⟨hsplit, hsame⟩ := ih h
      refine ⟨?_, fun hall => hsame fun e he => hall e (List.mem_cons_of_mem _ he)⟩
      rw [hsplit, List.forall_mem_cons, and_iff_right habsent]
    · have hlisted : note.purchaseCode ∈ purchases.keys := hcode ▸ OrderedMap.mem_keys_of_get hp
      have hmiss : ¬∀ e ∈ (number, note) :: notes, e.2.purchaseCode ∉ purchases.keys :=
        fun hall => hall _ List.mem_cons_self hlisted
      have hqueued : ¬NoSplit (afterCreditNote P note p code (number.getD "undefined") processor) :=
        not_noSplit_create _ _
      refine ⟨?_, fun hall => absurd hall hmiss⟩
      rw [(ih h).1]
      exact ⟨fun hno => absurd hno.1 hqueued, fun hno => absurd hno.2 hmiss⟩

/-- Nothing of a listing is split: no credit note has a listed purchase, and no sale takes a
    purchase in part, first in, first out. -/
def NothingSplit (P : Platform) (l : Listing) : Prop :=
  (∀ e ∈ l.goodAccountCreditNoteTransactionsMap.entries,
      e.2.purchaseCode ∉ l.goodAccountPurchaseTransactionsMap.keys) ∧
    Fifo.Whole ((BotService.sortFIFO P l.goodAccountSaleTransactions).map Transaction.amount)
      ((BotService.sortFIFO P l.goodAccountPurchaseTransactionsMap.values).map Transaction.amount)

instance (P : Platform) (l : Listing) : Decidable (NothingSplit P l) :=
  inferInstanceAs (Decidable (_ ∧ _))

/-- The purchases that a listing collects are open. -/
theorem collect_purchases_open {txs : List Transaction} {p : Transaction}
    (h : p ∈ (collect P txs).goodAccountPurchaseTransactionsMap.values) :
    p ∈ txs ∧ isOpenPurchase p ∧ p.checked = false := by
  obtain ⟨k, hk⟩ := OrderedMap.mem_values_iff.1 h
  have hmem := (mem_of_get_collect hk).1
  have hkind := List.of_mem_filter hmem
  refine ⟨List.mem_of_mem_filter hmem, hkind, ?_⟩
  simp only [isOpenPurchase, Bool.and_eq_true, Bool.not_eq_true'] at hkind
  exact hkind.1

/-- For positive amounts each sale ends, first in, first out, with a purchase. -/
theorem nothingSplit_iff_aligned {txs : List Transaction} (hpos : PositiveListing txs) :
    let l := collect P txs
    NothingSplit P l ↔ (∀ e ∈ l.goodAccountCreditNoteTransactionsMap.entries,
        e.2.purchaseCode ∉ l.goodAccountPurchaseTransactionsMap.keys) ∧
      Fifo.Aligned ((BotService.sortFIFO P l.goodAccountSaleTransactions).map Transaction.amount)
        ((BotService.sortFIFO P l.goodAccountPurchaseTransactionsMap.values).map
          Transaction.amount) := by
  refine and_congr_right fun _ => Fifo.whole_iff_aligned ?_ ?_
  · intro q hq
    obtain ⟨t, ht, rfl⟩ := List.mem_map.1 hq
    have ht := (sortFIFO_perm _).mem_iff.1 ht
    rw [collect_sales] at ht
    exact hpos t (List.mem_of_mem_filter ht) (Or.inl (List.of_mem_filter ht))
  · intro q hq
    obtain ⟨p, hp, rfl⟩ := List.mem_map.1 hq
    obtain ⟨hmem, hkind, -⟩ := collect_purchases_open ((sortFIFO_perm _).mem_iff.1 hp)
    exact (hpos p hmem (Or.inr (Or.inl hkind))).le

/-- A run queues no split exactly if nothing of its listing is split; then the purchases that its
    sales leave open are what whole purchases leave. -/
theorem planListing_splits {txs ps : List Transaction}
    {purchases : OrderedMap (Option String) Transaction}
    {processor₁ processor : CalculateCostOfSalesProcessor}
    (hnotes : processCreditNotes P (collect P txs).goodAccountCreditNoteTransactionsMap.entries
      (collect P txs).goodAccountPurchaseTransactionsMap {} = .ok (.done purchases processor₁))
    (hsales : processSales P env fb ib
      (BotService.sortFIFO P (collect P txs).goodAccountSaleTransactions)
      (BotService.sortFIFO P purchases.values) processor₁ = .ok (some (ps, processor))) :
    (NoSplit processor ↔ NothingSplit P (collect P txs)) ∧
      (NoSplit processor → purchases = (collect P txs).goodAccountPurchaseTransactionsMap ∧
        Fifo.takeAllWhole ((BotService.sortFIFO P
            (collect P txs).goodAccountSaleTransactions).map Transaction.amount)
          ((BotService.sortFIFO P purchases.values).map Transaction.amount) =
            some (openAmounts ps)) := by
  obtain ⟨hsplit, hsame⟩ := processCreditNotes_splits hnotes
  rw [and_iff_right (show NoSplit ({} : CalculateCostOfSalesProcessor) from rfl)] at hsplit
  have hcases := processSales_splits hsales
  by_cases hall : ∀ e ∈ (collect P txs).goodAccountCreditNoteTransactionsMap.entries,
      e.2.purchaseCode ∉ (collect P txs).goodAccountPurchaseTransactionsMap.keys
  · obtain rfl := hsame hall
    rw [openAmounts_of_open fun p hp =>
      (collect_purchases_open ((sortFIFO_perm _).mem_iff.1 hp)).2.2] at hcases
    have hnothing : NothingSplit P (collect P txs) ↔ Fifo.Whole _ _ := and_iff_right hall
    rw [hnothing, Fifo.Whole]
    rcases hcases with ⟨hwhole, hno⟩ | ⟨hpart, hno⟩
    · exact ⟨iff_of_true (hno.2 (hsplit.2 hall)) (by rw [hwhole]; rfl), fun _ => ⟨rfl, hwhole⟩⟩
    · exact ⟨iff_of_false hno (by rw [hpart]; exact Bool.false_ne_true),
        fun hyes => absurd hyes hno⟩
  · have hno : ¬NoSplit processor := by
      rcases hcases with ⟨-, hno⟩ | ⟨-, hno⟩
      · rwa [hno, hsplit]
      · exact hno
    exact ⟨iff_of_false hno fun hnothing => hall hnothing.1, fun hyes => absurd hyes hno⟩

end InventoryBot.Menu
