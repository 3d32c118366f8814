import InventoryBot.Menu.ListingOrder
import InventoryBot.Menu.Continuation

/-!
# What a calculation reads

A calculation of an account reads the purchases, sales and returns of the account, the digits of
the inventory book, and of the financial book the accounts and the invoices and credit notes. On
two states that agree on these its plans agree.

* `tradeRows`: the purchases, sales and returns of an account.
* `SameView`: two states look alike from an account.
* `planCalculation_view`: the plan of a calculation is read off the view.
* `calculation_transactions`: a calculation on equal transactions writes equal transactions.
-/

namespace InventoryBot.Menu

open Lib CostOfSalesService

/-! ## The view of an account -/

/-- The other account of the transaction is one that goods are bought from or sold to. -/
def trades (t : Transaction) : Bool :=
  t.creditAccount.any (·.type == .incoming) ||
    t.debitAccount.any fun r => r.type == .incoming || r.type == .outgoing

/-- The purchases, sales and returns of an account. -/
def tradeRows (account : String) (l : List Transaction) : List Transaction :=
  l.filter fun t => t.moves account && trades t

theorem trades_of_sale {t : Transaction} (h : BotService.isSale t) : trades t = true := by
  obtain ⟨-, r, hr, htype⟩ := isSale_iff.1 h
  simp [trades, hr, htype]

theorem trades_of_purchase {t : Transaction} (h : BotService.isPurchase t) : trades t = true := by
  obtain ⟨-, r, hr, htype⟩ := isPurchase_iff.1 h
  simp [trades, hr, htype]

theorem trades_of_creditNote {t : Transaction} (h : BotService.isCreditNote t) :
    trades t = true := by
  obtain ⟨-, ⟨r, hr, htype⟩, -⟩ := isCreditNote_iff.1 h
  simp [trades, hr, htype]

/-- What is neither bought, sold nor returned is not collected. -/
theorem Listing.add_of_not_trades (P : Platform) (l : Listing) {t : Transaction}
    (h : trades t = false) : Listing.add P l t = l := by
  have hsale : BotService.isSale t = false := by
    rw [← Bool.not_eq_true]
    exact fun hs => by simp [trades_of_sale hs] at h
  have hpurchase : BotService.isPurchase t = false := by
    rw [← Bool.not_eq_true]
    exact fun hp => by simp [trades_of_purchase hp] at h
  have hnote : BotService.isCreditNote t = false := by
    rw [← Bool.not_eq_true]
    exact fun hn => by simp [trades_of_creditNote hn] at h
  simp [Listing.add, Listing.addSale, Listing.addPurchase, Listing.addCreditNote, hsale, hpurchase,
    hnote]

theorem collect_filter_trades (P : Platform) (l : List Transaction) :
    collect P (l.filter trades) = collect P l := by
  have hfold : ∀ listing, (l.filter trades).foldl (Listing.add P) listing =
      l.foldl (Listing.add P) listing := by
    induction l with
    | nil => exact fun _ => rfl
    | cons t l ih =>
      intro listing
      rw [List.filter_cons, List.foldl_cons]
      split
      · exact ih _
      · rename_i hnot
        rw [Listing.add_of_not_trades P listing (Bool.not_eq_true _ ▸ hnot)]
        exact ih _
  exact hfold {}

/-- The listing of an account comes from its purchases, sales and returns. -/
theorem collect_listTransactions (P : Platform) (book : Book) (a : Account) (day : Date) :
    collect P (listTransactions book a day) =
      collect P ((tradeRows a.name book.transactions).filter fun t =>
        decide (t.date < BotService.getBeforeDateIsoString day)) := by
  rw [← collect_filter_trades]
  congr 1
  unfold listTransactions tradeRows Book.getTransactions
  rw [List.filter_filter, List.filter_filter]
  refine List.filter_congr fun t _ => ?_
  simp only [helper.getAccountQuery, Query.selects, Option.all_none, Option.all_some, Bool.and_true]
  ac_rfl

/-- The transactions of a financial book that may be linked to a purchase. -/
def linkable (l : List Transaction) : List Transaction :=
  l.filter fun t => t.purchaseInvoice.isSome || t.creditNote.isSome

/-- Two states look alike from an account of this name. -/
structure SameView (account : String) (s t : State) : Prop where
  rows : tradeRows account t.inventoryBook.transactions =
    tradeRows account s.inventoryBook.transactions
  info : t.inventoryBook.info = s.inventoryBook.info
  accounts : t.financialBook.accounts = s.financialBook.accounts
  linkable : linkable t.financialBook.transactions = linkable s.financialBook.transactions

theorem SameView.refl (account : String) (s : State) : SameView account s s := ⟨rfl, rfl, rfl, rfl⟩

theorem linkable_append (l l' : List Transaction) :
    linkable (l ++ l') = linkable l ++ linkable l' := List.filter_append _ _

/-- What is neither an invoice nor a credit note cannot be linked. -/
theorem linkable_eq_nil {l : List Transaction}
    (h : ∀ t ∈ l, t.purchaseInvoice = none ∧ t.creditNote = none) : linkable l = [] := by
  refine List.filter_eq_nil_iff.2 fun t ht => ?_
  obtain ⟨hinvoice, hnote⟩ := h t ht
  simp [hinvoice, hnote]

section View

variable {P : Platform} {collection : Option (List BookInfo)} {env : RunEnv} {s t : State}
  {goodAccountId account : String} {a b : Account}

/-- Only what can be linked counts for the linked amounts. -/
theorem foldl_addLinkedAmount_linkable (id : String) (code : Option String)
    (l : List Transaction) (totals : LinkedAmounts) :
    (linkable l).foldl (addLinkedAmount id code) totals =
      l.foldl (addLinkedAmount id code) totals := by
  induction l generalizing totals with
  | nil => rfl
  | cons t l ih =>
    unfold linkable at ih ⊢
    rw [List.filter_cons, List.foldl_cons]
    split
    · exact ih _
    · rename_i hnot
      have hskip : addLinkedAmount id code totals t = totals := by
        simp only [Bool.or_eq_true, not_or, Bool.not_eq_true] at hnot
        simp [addLinkedAmount, isAdditionalCost, isLinkedCreditNote, hnot.1, hnot.2]
      rw [hskip]
      exact ih _

theorem getAdditionalCostsAndCreditNotes_linkable {fb fb' : Book}
    (haccounts : fb'.accounts = fb.accounts)
    (hlinkable : linkable fb'.transactions = linkable fb.transactions) (p : Transaction) :
    getAdditionalCostsAndCreditNotes P fb' p = getAdditionalCostsAndCreditNotes P fb p := by
  have haccount : ∀ key, fb'.getAccount key = fb.getAccount key := by
    intro key
    unfold Book.getAccount
    rw [haccounts]
  have hwindow : ∀ (b : Book) (q : Query), linkable (b.getTransactions q) =
      (linkable b.transactions).filter q.selects := by
    intro b q
    unfold linkable Book.getTransactions
    rw [List.filter_filter, List.filter_filter]
    exact List.filter_congr fun t _ => Bool.and_comm _ _
  have hfold : ∀ (q : Query) id code totals,
      (fb'.getTransactions q).foldl (addLinkedAmount id code) totals =
        (fb.getTransactions q).foldl (addLinkedAmount id code) totals := by
    intro q id code totals
    rw [← foldl_addLinkedAmount_linkable, ← foldl_addLinkedAmount_linkable id code
      (fb.getTransactions q), hwindow, hwindow, hlinkable]
  unfold getAdditionalCostsAndCreditNotes
  simp only [haccount, hfold]

/-- The loop over the sales on two states that look alike. -/
theorem SameView.processSales (h : SameView account s t) (sales ps : List Transaction)
    (processor : CalculateCostOfSalesProcessor) :
    processSales P env (costOfSalesBook env t) t.inventoryBook sales ps processor =
      processSales P env (costOfSalesBook env s) s.inventoryBook sales ps processor := by
  have haccounts : (costOfSalesBook env t).accounts = (costOfSalesBook env s).accounts :=
    createCostOfSalesAccount_accounts rfl h.accounts
  rw [processSales_financialBook haccounts
    (getAdditionalCostsAndCreditNotes_linkable haccounts h.linkable)]
  exact processSales_book h.info sales ps processor

/-- A plan for another account object. -/
def planFor (b : Account) : CalculationPlan → CalculationPlan
  | .fire _ sales processor => .fire b sales processor
  | plan => plan

theorem planListing_for (fb ib : Book) (a b : Account) (l : Listing) :
    planListing P env fb ib b l = (planListing P env fb ib a l).map (planFor b) := by
  unfold planListing
  cases processCreditNotes P l.goodAccountCreditNoteTransactionsMap.entries
      l.goodAccountPurchaseTransactionsMap {} with
  | error e => rfl
  | ok result =>
    cases result with
    | stop number => rfl
    | done purchases processor =>
      show (processSales P env fb ib _ _ processor >>= _) =
        (processSales P env fb ib _ _ processor >>= _).map _
      cases processSales P env fb ib (BotService.sortFIFO P l.goodAccountSaleTransactions)
          (BotService.sortFIFO P purchases.values) processor with
      | error e => rfl
      | ok result => cases result <;> rfl

/-- What a calculation comes to, in its outcome and in the transactions of the two books. -/
structure SameResult (r r' : State × Outcome) : Prop where
  outcome : r'.2 = r.2
  inventory : r'.1.inventoryBook.transactions = r.1.inventoryBook.transactions
  financial : r'.1.financialBook.transactions = r.1.financialBook.transactions

/-- The plan of a calculation is read off the view of the account, and carries the account that
    it has opened. -/
theorem planCalculation_view (h : SameView a.name s t)
    (ha : s.inventoryBook.getAccount goodAccountId = some a)
    (hb : t.inventoryBook.getAccount goodAccountId = some b) (hsame : SameAccount a b)
    (hflag : GoodAccount.needsRebuild b = GoodAccount.needsRebuild a) (toDate : Option Date) :
    planCalculation P collection env t goodAccountId toDate =
      (planCalculation P collection env s goodAccountId toDate).map (planFor b) := by
  have hcode : BotService.getExchangeCode b = BotService.getExchangeCode a := by
    unfold BotService.getExchangeCode
    rw [hsame.type, hsame.groups]
  have hlisted : ∀ day, collect P (listTransactions t.inventoryBook b day) =
      collect P (listTransactions s.inventoryBook a day) := by
    intro day
    rw [collect_listTransactions, collect_listTransactions, hsame.name, h.rows]
  have hplan : ∀ l, planListing P env (costOfSalesBook env t) t.inventoryBook b l =
      (planListing P env (costOfSalesBook env s) s.inventoryBook a l).map (planFor b) := by
    intro l
    rw [← planListing_for (costOfSalesBook env s) s.inventoryBook a b]
    unfold planListing
    simp only [h.processSales]
  unfold planCalculation openAccount
  simp only [ha, hb, hcode]
  show (if GoodAccount.needsRebuild b then _ else _) =
    Except.map _ (if GoodAccount.needsRebuild a then _ else _)
  rw [hflag]
  split
  · rfl
  · cases BotService.getFinancialBook collection (BotService.getExchangeCode a) with
    | none =>
      rw [hsame.name]
      rfl
    | some info =>
      simp only [Option.map_some, hlisted]
      split
      · rfl
      · split
        · rfl
        · exact hplan _

/-- On equal transactions a calculation that does not reset comes to the same. -/
theorem calculation_transactions (hinfo : t.inventoryBook.info = s.inventoryBook.info)
    (haccounts : t.financialBook.accounts = s.financialBook.accounts)
    (hinventory : t.inventoryBook.transactions = s.inventoryBook.transactions)
    (hfinancial : t.financialBook.transactions = s.financialBook.transactions)
    (ha : s.inventoryBook.getAccount goodAccountId = some a)
    (hb : t.inventoryBook.getAccount goodAccountId = some b) (hsame : SameAccount a b)
    (hcalm : GoodAccount.needsRebuild a = false) (hcalm' : GoodAccount.needsRebuild b = false)
    (toDate : Option Date) :
    SameResult (calculateCostOfSalesForAccount P collection env s goodAccountId toDate)
      (calculateCostOfSalesForAccount P collection env t goodAccountId toDate) := by
  have hview : SameView a.name s t :=
    ⟨by rw [hinventory], hinfo, haccounts, by rw [hfinancial]⟩
  have hplan : planCalculation P collection env t goodAccountId toDate =
      (planCalculation P collection env s goodAccountId toDate).map (planFor b) :=
    planCalculation_view hview ha hb hsame (hcalm'.trans hcalm.symm) toDate
  have hstored : (booksAfterPlan P collection env t goodAccountId toDate).inventoryBook.transactions =
      (booksAfterPlan P collection env s goodAccountId toDate).inventoryBook.transactions := by
    rw [booksAfterPlan_inventoryBook, booksAfterPlan_inventoryBook, hinventory]
  have hposted : (booksAfterPlan P collection env t goodAccountId toDate).financialBook.transactions =
      (booksAfterPlan P collection env s goodAccountId toDate).financialBook.transactions := by
    rw [booksAfterPlan_transactions, booksAfterPlan_transactions, hfinancial]
  unfold calculateCostOfSalesForAccount
  rw [hplan]
  cases hs : planCalculation P collection env s goodAccountId toDate with
  | error e => exact ⟨rfl, hstored, hposted⟩
  | ok plan =>
    cases plan with
    | stop summary => exact ⟨rfl, hstored, hposted⟩
    | reset =>
      obtain ⟨a', ha', hflag⟩ := planCalculation_reset hs
      obtain rfl : a = a' := Option.some.inj (ha.symm.trans ha')
      rw [hcalm] at hflag
      cases hflag
    | fire goodAccount sales processor =>
      have ht : planCalculation P collection env t goodAccountId toDate =
          .ok (.fire b sales processor) := by
        rw [hplan, hs]
        rfl
      simp only [Except.map, planFor, booksAfterPlan_fire ht, booksAfterPlan_fire hs]
      refine ⟨rfl, ?_, ?_⟩
      · show (storeLastCalcTxDate P (processor.fireBatchOperations env 3 t).inventoryBook b
            sales).transactions = (storeLastCalcTxDate P
              (processor.fireBatchOperations env 3 s).inventoryBook goodAccount sales).transactions
        rw [storeLastCalcTxDate_transactions, storeLastCalcTxDate_transactions]
        show (t.inventoryBook.transactions ++ _).map _ = (s.inventoryBook.transactions ++ _).map _
        rw [hinventory]
      · show t.financialBook.transactions ++ _ = s.financialBook.transactions ++ _
        rw [hfinancial]

end View

end InventoryBot.Menu
