import InventoryBot.Menu.Divisors

/-!
# The accounting behind the quantity guard

The guard compares sums over all listed transactions, the allocation works on the purchases and
credit notes that the maps keep.

* `processCreditNotes_amounts`: what the credit notes leave of the purchases.
* `Covered`: the kept purchases, less the credit notes applied to them, cover the sales.
* `covered_of_guard`: where no two listed purchases share a code, the guard implies it.
* `Covered.enough`: it is what the loops need to allocate every sale in full.
-/

namespace InventoryBot.Menu

open Lib CostOfSalesService

/-! ## What a listing keeps -/

/-- The purchases that the map of a listing keeps: of those with one code, the last listed. -/
def keptPurchases (txs : List Transaction) : List Transaction :=
  OrderedMap.lastOf Transaction.purchaseCode (txs.filter isOpenPurchase)

/-- The credit notes that the map of a listing keeps: of those with one number, the last
    listed. -/
def keptCreditNotes (txs : List Transaction) : List Transaction :=
  OrderedMap.lastOf Transaction.creditNote (txs.filter isOpenCreditNote)

/-- The kept credit notes whose code is that of a kept purchase. -/
def matchedCreditNotes (txs : List Transaction) : List Transaction :=
  (keptCreditNotes txs).filter fun note =>
    decide (note.purchaseCode ∈ (keptPurchases txs).map Transaction.purchaseCode)

/-- What the maps keep covers the sales. -/
def Covered (txs : List Transaction) : Prop :=
  amounts (txs.filter isOpenSale) ≤ amounts (keptPurchases txs) - amounts (matchedCreditNotes txs)

instance (txs : List Transaction) : Decidable (Covered txs) :=
  inferInstanceAs (Decidable (_ ≤ _))

theorem amounts_perm {l l' : List Transaction} (h : l.Perm l') : amounts l = amounts l' :=
  (h.map _).sum_eq

theorem amounts_sublist {l l' : List Transaction} (h : l.Sublist l')
    (hpos : ∀ t ∈ l', 0 ≤ t.amount) : amounts l ≤ amounts l' := by
  refine List.Sublist.sum_le_sum (h.map _) fun q hq => ?_
  obtain ⟨t, ht, rfl⟩ := List.mem_map.1 hq
  exact hpos t ht

/-- Where purchases have different codes, all are kept, and the guard is enough. -/
theorem covered_of_guard {txs : List Transaction}
    (hcodes : ((txs.filter isOpenPurchase).map Transaction.purchaseCode).Nodup)
    (hnotes : ∀ t ∈ txs, isOpenCreditNote t → 0 ≤ t.amount)
    (hguard : amounts (txs.filter isOpenSale) ≤
      amounts (txs.filter isOpenPurchase) - amounts (txs.filter isOpenCreditNote)) :
    Covered txs := by
  have hkept : keptPurchases txs = txs.filter isOpenPurchase := OrderedMap.lastOf_of_nodup hcodes
  have hsub : (matchedCreditNotes txs).Sublist (txs.filter isOpenCreditNote) :=
    List.filter_sublist.trans (OrderedMap.lastOf_sublist _ _)
  have hle : amounts (matchedCreditNotes txs) ≤ amounts (txs.filter isOpenCreditNote) :=
    amounts_sublist hsub fun t ht => hnotes t (List.mem_of_mem_filter ht) (List.of_mem_filter ht)
  unfold Covered
  rw [hkept]
  linarith

/-! ## What the credit notes leave -/

section Notes

variable {P : Platform}

/-- The credit notes reduce the purchases that they match, and nothing else. -/
theorem processCreditNotes_amounts (hP : P.Exact) :
    ∀ {notes : List (Option String × Transaction)}
      {purchases purchases' : OrderedMap (Option String) Transaction}
      {processor processor' : CalculateCostOfSalesProcessor},
      processCreditNotes P notes purchases processor = .ok (.done purchases' processor') →
      (∀ p ∈ purchases.values, p.checked = false) →
      (∀ p ∈ purchases'.values, p.checked = false) ∧
        amounts purchases'.values = amounts purchases.values -
          amounts ((notes.map Prod.snd).filter fun note =>
            decide (note.purchaseCode ∈ purchases.keys)) := by
  intro notes
  induction notes with
  | nil =>
    intro purchases purchases' processor processor' h hopen
    cases h
    exact ⟨hopen, by simp [amounts]⟩
  | cons e notes ih =>
    obtain ⟨number, note⟩ := e
    intro purchases purchases' processor processor' h hopen
    rw [List.map_cons]
    rcases processCreditNotes_cons h with ⟨hnone, h⟩ | ⟨p, code, hp, hcode, -, h⟩
    · obtain ⟨hopen', hamounts⟩ := ih h hopen
      rw [List.filter_cons_of_neg (by simpa using OrderedMap.get_eq_none.1 hnone)]
      exact ⟨hopen', hamounts⟩
    · have hkeys : ∀ k, k ∈ (purchases.set (some code) (credited P note p)).keys ↔
          k ∈ purchases.keys := by
        intro k
        rw [OrderedMap.mem_keys_set]
        exact or_iff_right_of_imp fun hk => hk ▸ OrderedMap.mem_keys_of_get hp
      have hset : ∀ q ∈ (purchases.set (some code) (credited P note p)).values,
          q.checked = false := by
        intro q hq
        rcases OrderedMap.mem_values_set hq with rfl | hq
        · exact hopen p (OrderedMap.mem_values_of_get hp)
        · exact hopen q hq
      obtain ⟨hopen', hamounts⟩ := ih h hset
      refine ⟨hopen', ?_⟩
      have hmem : note.purchaseCode ∈ purchases.keys := hcode ▸ OrderedMap.mem_keys_of_get hp
      have hreduced : amounts (purchases.set (some code) (credited P note p)).values =
          amounts purchases.values - note.amount := by
        rw [amounts, OrderedMap.sum_values_set Transaction.amount hp]
        simp only [credited, hP.toNumber, amounts]
        ring
      simp only [hkeys] at hamounts
      rw [hamounts, hreduced, List.filter_cons_of_pos (by simpa using hmem)]
      simp only [amounts, List.map_cons, List.sum_cons]
      ring

theorem lots_of_unchecked {ps : List Transaction} (h : ∀ p ∈ ps, p.checked = false) :
    (ps.map lot).sum = amounts ps :=
  congrArg List.sum (List.map_congr_left fun p hp => lot_of_unchecked (h p hp))

/-- The map has a purchase for each code of the kept ones. -/
theorem mem_keys_collect_purchases {txs : List Transaction} {k : Option String} :
    k ∈ (collect P txs).goodAccountPurchaseTransactionsMap.keys ↔
      k ∈ (keptPurchases txs).map Transaction.purchaseCode := by
  rw [collect_purchases, OrderedMap.mem_keys_ofList, keptPurchases, OrderedMap.mem_map_lastOf]

/-- The loop goes through the credit notes that the map keeps. -/
theorem collect_creditNotes_perm (txs : List Transaction) :
    ((collect P txs).goodAccountCreditNoteTransactionsMap.entries.map Prod.snd).Perm
      (keptCreditNotes txs) := by
  rw [collect_creditNotes]
  exact OrderedMap.values_ofList_perm _ _

/-- What a listing has to offer after the credit notes. -/
theorem lots_after_notes (hP : P.Exact) {txs : List Transaction}
    {purchases : OrderedMap (Option String) Transaction} {processor : CalculateCostOfSalesProcessor}
    (h : processCreditNotes P (collect P txs).goodAccountCreditNoteTransactionsMap.entries
      (collect P txs).goodAccountPurchaseTransactionsMap {} = .ok (.done purchases processor)) :
    (purchases.values.map lot).sum =
      amounts (keptPurchases txs) - amounts (matchedCreditNotes txs) := by
  have hopen : ∀ p ∈ (collect P txs).goodAccountPurchaseTransactionsMap.values,
      p.checked = false := by
    intro p hp
    rw [collect_purchases] at hp
    have hkind := List.of_mem_filter (OrderedMap.mem_of_mem_values_ofList hp)
    simp only [isOpenPurchase, Bool.and_eq_true, Bool.not_eq_true'] at hkind
    exact hkind.1
  obtain ⟨hopen', hamounts⟩ := processCreditNotes_amounts hP h hopen
  have hkept : (collect P txs).goodAccountPurchaseTransactionsMap.values.Perm
      (keptPurchases txs) := by
    rw [collect_purchases]
    exact OrderedMap.values_ofList_perm _ _
  rw [lots_of_unchecked hopen', hamounts, amounts_perm hkept]
  simp only [mem_keys_collect_purchases]
  rw [amounts_perm ((collect_creditNotes_perm txs).filter _)]
  rfl

end Notes

/-! ## Enough for every sale -/

section Enough

variable {P : Platform}

/-- The listed sales and purchases have positive amounts. -/
def PositiveListing (txs : List Transaction) : Prop :=
  ∀ t ∈ txs, isOpenSale t ∨ isOpenPurchase t ∨ isOpenCreditNote t → 0 < t.amount

theorem PositiveListing.sale {txs : List Transaction} (h : PositiveListing txs) {t : Transaction}
    (ht : t ∈ txs.filter isOpenSale) : 0 < t.amount :=
  h t (List.mem_of_mem_filter ht) (Or.inl (List.of_mem_filter ht))

/-- After the credit notes something is left of every purchase. -/
theorem PositiveListing.stocked (hP : P.Exact) {txs : List Transaction} (h : PositiveListing txs)
    {purchases : OrderedMap (Option String) Transaction} {processor : CalculateCostOfSalesProcessor}
    (hnotes : processCreditNotes P (collect P txs).goodAccountCreditNoteTransactionsMap.entries
      (collect P txs).goodAccountPurchaseTransactionsMap {} = .ok (.done purchases processor)) :
    ∀ p ∈ purchases.values, Stocked p := by
  refine processCreditNotes_stocked hP.keepsSign hnotes fun p hp _ => ?_
  rw [collect_purchases] at hp
  have hp := OrderedMap.mem_of_mem_values_ofList hp
  exact h p (List.mem_of_mem_filter hp) (Or.inr (Or.inl (List.of_mem_filter hp)))

/-- A covered listing has enough for every sale. -/
theorem Covered.enough (hP : P.Exact) {txs : List Transaction} (hpos : PositiveListing txs)
    (h : Covered txs) {purchases : OrderedMap (Option String) Transaction}
    {processor : CalculateCostOfSalesProcessor}
    (hnotes : processCreditNotes P (collect P txs).goodAccountCreditNoteTransactionsMap.entries
      (collect P txs).goodAccountPurchaseTransactionsMap {} = .ok (.done purchases processor)) :
    Enough (· = 0) (collect P txs).goodAccountSaleTransactions purchases.values := by
  refine Or.inr ⟨rfl, fun t ht => ?_, hpos.stocked hP hnotes, ?_⟩
  · rw [collect_sales] at ht
    exact hpos.sale ht
  · rw [lots_after_notes hP hnotes, collect_sales]
    exact h

end Enough

end InventoryBot.Menu
