import InventoryBot.Menu.DeskRefinement

/-!
# What the listing of an account collects

* `collect_sales`, `collect_purchases`, `collect_creditNotes`: the three collections are the
  open sales, purchases and credit notes; of several purchases with one code, and of several
  credit notes with one number, the last listed is kept.
* `collect_totals`: the two totals count every listed transaction.
-/

namespace InventoryBot.Menu

open Lib CostOfSalesService

/-- An unchecked sale. -/
def isOpenSale (tx : Transaction) : Bool := !tx.checked && BotService.isSale tx

/-- An unchecked purchase. -/
def isOpenPurchase (tx : Transaction) : Bool := !tx.checked && BotService.isPurchase tx

/-- An unchecked credit note. -/
def isOpenCreditNote (tx : Transaction) : Bool := !tx.checked && BotService.isCreditNote tx

section Collect

variable (P : Platform) (txs : List Transaction)

theorem collect_append_singleton (tx : Transaction) :
    collect P (txs ++ [tx]) = (collect P txs).add P tx := by
  rw [collect, List.foldl_append]
  rfl

theorem Listing.add_sales (l : Listing) (tx : Transaction) :
    (l.add P tx).goodAccountSaleTransactions =
      l.goodAccountSaleTransactions ++ [tx].filter isOpenSale := by
  unfold Listing.add Listing.addSale Listing.addPurchase Listing.addCreditNote isOpenSale
  cases hc : tx.checked <;> cases hs : BotService.isSale tx <;>
    cases hp : BotService.isPurchase tx <;> cases hn : BotService.isCreditNote tx <;>
    simp [hc, hs]

theorem Listing.add_purchases (l : Listing) (tx : Transaction) :
    (l.add P tx).goodAccountPurchaseTransactionsMap =
      if isOpenPurchase tx then l.goodAccountPurchaseTransactionsMap.set tx.purchaseCode tx
      else l.goodAccountPurchaseTransactionsMap := by
  unfold Listing.add Listing.addSale Listing.addPurchase Listing.addCreditNote isOpenPurchase
  cases hc : tx.checked <;> cases hs : BotService.isSale tx <;>
    cases hp : BotService.isPurchase tx <;> cases hn : BotService.isCreditNote tx <;>
    simp

theorem Listing.add_creditNotes (l : Listing) (tx : Transaction) :
    (l.add P tx).goodAccountCreditNoteTransactionsMap =
      if isOpenCreditNote tx then l.goodAccountCreditNoteTransactionsMap.set tx.creditNote tx
      else l.goodAccountCreditNoteTransactionsMap := by
  unfold Listing.add Listing.addSale Listing.addPurchase Listing.addCreditNote isOpenCreditNote
  cases hc : tx.checked <;> cases hs : BotService.isSale tx <;>
    cases hp : BotService.isPurchase tx <;> cases hn : BotService.isCreditNote tx <;>
    simp

theorem Listing.add_totalSales (l : Listing) (tx : Transaction) :
    (l.add P tx).totalSalesQuantity =
      if isOpenSale tx then P.numberAdd l.totalSalesQuantity (P.toNumber tx.amount)
      else l.totalSalesQuantity := by
  unfold Listing.add Listing.addSale Listing.addPurchase Listing.addCreditNote isOpenSale
  cases hc : tx.checked <;> cases hs : BotService.isSale tx <;>
    cases hp : BotService.isPurchase tx <;> cases hn : BotService.isCreditNote tx <;>
    simp

theorem Listing.add_totalPurchased {l : Listing} {tx : Transaction} (h : isOpenPurchase tx = false) :
    (l.add P tx).totalPurchasedQuantity =
      if isOpenCreditNote tx then P.numberSub l.totalPurchasedQuantity (P.toNumber tx.amount)
      else l.totalPurchasedQuantity := by
  unfold isOpenPurchase at h
  unfold Listing.add Listing.addSale Listing.addPurchase Listing.addCreditNote isOpenCreditNote
  cases hc : tx.checked <;> cases hs : BotService.isSale tx <;>
    cases hp : BotService.isPurchase tx <;> cases hn : BotService.isCreditNote tx <;>
    simp_all

theorem collect_sales : (collect P txs).goodAccountSaleTransactions = txs.filter isOpenSale := by
  induction txs using List.reverseRecOn with
  | nil => rfl
  | append_singleton txs tx ih =>
    rw [collect_append_singleton, Listing.add_sales, ih, List.filter_append]

theorem collect_purchases : (collect P txs).goodAccountPurchaseTransactionsMap =
    OrderedMap.ofList Transaction.purchaseCode (txs.filter isOpenPurchase) := by
  induction txs using List.reverseRecOn with
  | nil => rfl
  | append_singleton txs tx ih =>
    rw [collect_append_singleton, Listing.add_purchases, ih, List.filter_append]
    split
    · rename_i hp
      rw [List.filter_cons_of_pos hp, List.filter_nil, OrderedMap.ofList_append_singleton]
    · rename_i hp
      rw [List.filter_cons_of_neg hp, List.filter_nil, List.append_nil]

theorem collect_creditNotes : (collect P txs).goodAccountCreditNoteTransactionsMap =
    OrderedMap.ofList Transaction.creditNote (txs.filter isOpenCreditNote) := by
  induction txs using List.reverseRecOn with
  | nil => rfl
  | append_singleton txs tx ih =>
    rw [collect_append_singleton, Listing.add_creditNotes, ih, List.filter_append]
    split
    · rename_i hp
      rw [List.filter_cons_of_pos hp, List.filter_nil, OrderedMap.ofList_append_singleton]
    · rename_i hp
      rw [List.filter_cons_of_neg hp, List.filter_nil, List.append_nil]

/-- Without an open sale there is nothing to calculate. -/
theorem collect_totalSales (h : txs.filter isOpenSale = []) :
    (collect P txs).totalSalesQuantity = 0 := by
  induction txs using List.reverseRecOn with
  | nil => rfl
  | append_singleton txs tx ih =>
    rw [List.filter_append, List.append_eq_nil_iff] at h
    have htx : isOpenSale tx = false := by simpa using h.2
    rw [collect_append_singleton, Listing.add_totalSales, if_neg (Bool.eq_false_iff.1 htx), ih h.1]

/-- Sales of no negative amount do not sum up to one. -/
theorem collect_totalSales_nonneg (hP : P.KeepsOrder) (h : ∀ t ∈ txs, isOpenSale t → 0 ≤ t.amount) :
    0 ≤ (collect P txs).totalSalesQuantity := by
  induction txs using List.reverseRecOn with
  | nil => exact le_rfl
  | append_singleton txs tx ih =>
    have hbefore := ih fun t ht => h t (List.mem_append_left _ ht)
    have htx := h tx (List.mem_append_right _ (List.mem_singleton_self tx))
    rw [collect_append_singleton, Listing.add_totalSales]
    split
    · rename_i hsale
      exact hP.numberAdd_nonneg _ _ hbefore (hP.toNumber_nonneg _ (htx hsale))
    · exact hbefore

/-- Without an open purchase the credit notes leave nothing to sell. -/
theorem collect_totalPurchased_nonpos (hP : P.KeepsOrder) (hnone : txs.filter isOpenPurchase = [])
    (h : ∀ t ∈ txs, isOpenCreditNote t → 0 ≤ t.amount) :
    (collect P txs).totalPurchasedQuantity ≤ 0 := by
  induction txs using List.reverseRecOn with
  | nil => exact le_rfl
  | append_singleton txs tx ih =>
    rw [List.filter_append, List.append_eq_nil_iff] at hnone
    have hbefore := ih hnone.1 fun t ht => h t (List.mem_append_left _ ht)
    have htx := h tx (List.mem_append_right _ (List.mem_singleton_self tx))
    have hopen : isOpenPurchase tx = false := by simpa using hnone.2
    rw [collect_append_singleton, Listing.add_totalPurchased P hopen]
    split
    · rename_i hnote
      exact hP.numberSub_nonpos _ _ hbefore (hP.toNumber_nonneg _ (htx hnote))
    · exact hbefore

/-- The sum of the amounts of some transactions. -/
def amounts (l : List Transaction) : ℚ := (l.map Transaction.amount).sum

theorem Listing.add_totals {P : Platform} (hP : P.Exact) (l : Listing) (tx : Transaction) :
    (l.add P tx).totalSalesQuantity = l.totalSalesQuantity + amounts ([tx].filter isOpenSale) ∧
      (l.add P tx).totalPurchasedQuantity = l.totalPurchasedQuantity +
        amounts ([tx].filter isOpenPurchase) - amounts ([tx].filter isOpenCreditNote) := by
  unfold Listing.add Listing.addSale Listing.addPurchase Listing.addCreditNote isOpenSale
    isOpenPurchase isOpenCreditNote amounts
  cases hc : tx.checked <;> cases hs : BotService.isSale tx <;>
    cases hp : BotService.isPurchase tx <;> cases hn : BotService.isCreditNote tx <;>
    simp [hc, hs, hp, hn, hP.toNumber, hP.numberAdd, hP.numberSub]

/-- The totals of the quantity guard, in exact arithmetic. -/
theorem collect_totals {P : Platform} (hP : P.Exact) :
    (collect P txs).totalSalesQuantity = amounts (txs.filter isOpenSale) ∧
      (collect P txs).totalPurchasedQuantity =
        amounts (txs.filter isOpenPurchase) - amounts (txs.filter isOpenCreditNote) := by
  induction txs using List.reverseRecOn with
  | nil => simp [collect, amounts]
  | append_singleton txs tx ih =>
    obtain ⟨hsales, hpurchased⟩ := Listing.add_totals hP (collect P txs) tx
    rw [collect_append_singleton, hsales, hpurchased, ih.1, ih.2]
    simp only [List.filter_append, amounts, List.map_append, List.sum_append]
    exact ⟨trivial, by ring⟩

end Collect

end InventoryBot.Menu
