import InventoryBot.Menu.Listing

/-!
# A calculation writes what its moves show

* `planCalculation_fire`: what a calculation has checked and computed when it fires its batches.
* `planCalculation_moves`: up to there it is a sequence of moves that starts from the stored
  transactions.
* `fireBatchOperations_desk`: the three batch calls make the books what the desk shows.
-/

namespace InventoryBot.Menu

open Lib CostOfSalesService

/-! ## Assumptions on the books and on what the outside hands out -/

/-- The transactions of a book have different ids and show its accounts as they are. -/
structure WellFormed (b : Book) : Prop where
  ids : (b.transactions.map Transaction.id).Nodup
  refs : ∀ t ∈ b.transactions, ∀ r ∈ t.refs, ∀ a ∈ b.accounts, r.name = a.name → r.type = a.type

/-- The credit-note numbers of a book. -/
def creditNoteNumbers (b : Book) : List String := b.transactions.filterMap Transaction.creditNote

/-- The ids handed out in a run are new. -/
structure RunEnv.Fresh (env : RunEnv) (s : State) : Prop where
  uuids : Book.FreshIds env.uuid (creditNoteNumbers s.inventoryBook)
  inventoryIds : Book.FreshIds env.inventoryId
    ("" :: s.inventoryBook.transactions.map Transaction.id)
  financialIds : Book.FreshIds env.financialId (s.financialBook.transactions.map Transaction.id)

/-! ## The kinds of a listed transaction -/

/-- A transaction has at most one of the kinds. -/
structure OneKind (t : Transaction) : Prop where
  sale_purchase : BotService.isSale t → ¬BotService.isPurchase t
  sale_creditNote : BotService.isSale t → ¬BotService.isCreditNote t
  purchase_creditNote : BotService.isPurchase t → ¬BotService.isCreditNote t

/-- A transaction that moves a good account has one kind: its other account is the counterpart
    that decides which. -/
theorem oneKind_of_moves {t : Transaction} {a : Account}
    (hrefs : ∀ r ∈ t.refs, r.name = a.name → r.type = a.type)
    (hin : a.type ≠ .incoming) (hout : a.type ≠ .outgoing) (hmoves : t.moves a.name) :
    OneKind t := by
  have hside : (∃ r, t.creditAccount = some r ∧ r.type = a.type) ∨
      ∃ r, t.debitAccount = some r ∧ r.type = a.type := by
    simp only [Transaction.moves, Bool.or_eq_true, Option.any_eq_true, beq_iff_eq] at hmoves
    rcases hmoves with ⟨r, hr, hname⟩ | ⟨r, hr, hname⟩
    · exact Or.inl ⟨r, hr, hrefs r (Transaction.mem_refs.2 (Or.inl hr)) hname⟩
    · exact Or.inr ⟨r, hr, hrefs r (Transaction.mem_refs.2 (Or.inr hr)) hname⟩
  refine ⟨?_, ?_, ?_⟩
  · intro hs hp
    obtain ⟨-, r, hr, hrt⟩ := isSale_iff.1 hs
    obtain ⟨-, q, hq, hqt⟩ := isPurchase_iff.1 hp
    rcases hside with ⟨x, hx, hxt⟩ | ⟨x, hx, hxt⟩
    · obtain rfl : q = x := Option.some.inj (hq.symm.trans hx)
      exact hin (hxt.symm.trans hqt)
    · obtain rfl : r = x := Option.some.inj (hr.symm.trans hx)
      exact hout (hxt.symm.trans hrt)
  · intro hs hn
    obtain ⟨-, r, hr, hrt⟩ := isSale_iff.1 hs
    obtain ⟨-, ⟨q, hq, hqt⟩, -⟩ := isCreditNote_iff.1 hn
    obtain rfl : r = q := Option.some.inj (hr.symm.trans hq)
    rw [hrt] at hqt
    cases hqt
  · intro hp hn
    obtain ⟨-, q, hq, hqt⟩ := isPurchase_iff.1 hp
    obtain ⟨-, ⟨r, hr, hrt⟩, -⟩ := isCreditNote_iff.1 hn
    rcases hside with ⟨x, hx, hxt⟩ | ⟨x, hx, hxt⟩
    · obtain rfl : q = x := Option.some.inj (hq.symm.trans hx)
      exact hin (hxt.symm.trans hqt)
    · obtain rfl : r = x := Option.some.inj (hr.symm.trans hx)
      exact hin (hxt.symm.trans hrt)

/-- The account that a purchase debits is neither of its counterparts. -/
def OneSided (t : Transaction) : Prop :=
  BotService.isPurchase t → ∀ r, t.debitAccount = some r → r.type ≠ .incoming ∧ r.type ≠ .outgoing

/-- A purchase that moves a good account debits it. -/
theorem oneSided_of_moves {t : Transaction} {a : Account}
    (hrefs : ∀ r ∈ t.refs, r.name = a.name → r.type = a.type)
    (hin : a.type ≠ .incoming) (hout : a.type ≠ .outgoing) (hmoves : t.moves a.name) :
    OneSided t := by
  intro hp r hr
  obtain ⟨-, q, hq, hqt⟩ := isPurchase_iff.1 hp
  simp only [Transaction.moves, Bool.or_eq_true, Option.any_eq_true, beq_iff_eq] at hmoves
  rcases hmoves with ⟨x, hx, hname⟩ | ⟨x, hx, hname⟩
  · have hxt := hrefs x (Transaction.mem_refs.2 (Or.inl hx)) hname
    obtain rfl : q = x := Option.some.inj (hq.symm.trans hx)
    exact absurd (hxt.symm.trans hqt) hin
  · have hxt := hrefs x (Transaction.mem_refs.2 (Or.inr hx)) hname
    obtain rfl : r = x := Option.some.inj (hr.symm.trans hx)
    rw [hxt]
    exact ⟨hin, hout⟩

theorem OneSided.not_sale {t : Transaction} (h : OneSided t) (hp : BotService.isPurchase t) :
    ¬BotService.isSale t := by
  intro hs
  obtain ⟨-, r, hr, htype⟩ := isSale_iff.1 hs
  exact (h hp r hr).2 htype

theorem OneSided.not_creditNote {t : Transaction} (h : OneSided t) (hp : BotService.isPurchase t) :
    ¬BotService.isCreditNote t := by
  intro hn
  obtain ⟨-, ⟨r, hr, htype⟩, -⟩ := isCreditNote_iff.1 hn
  exact (h hp r hr).1 htype

theorem OneSided.congr {t t' : Transaction} (hsame : SameIdentity t t') (h : OneSided t) :
    OneSided t' := by
  unfold OneSided
  rw [hsame.isPurchase, hsame.debitAccount]
  exact h

/-- An account with an exchange code is a good account. -/
theorem type_of_getExchangeCode {a : Account} {code : String}
    (h : BotService.getExchangeCode a = some code) : a.type ≠ .incoming ∧ a.type ≠ .outgoing := by
  unfold BotService.getExchangeCode at h
  split at h
  · cases h
  · rename_i htype
    exact not_or.1 htype

/-! ## From the plan back to its parts -/

section Plan

variable {P : Platform} {collection : Option (List BookInfo)} {env : RunEnv} {s : State}
  {goodAccountId : String} {toDate : Option Date} {goodAccount : Account}
  {sales : List Transaction} {processor : CalculateCostOfSalesProcessor}

theorem openAccount_ok {book : Option Book}
    (h : openAccount collection s goodAccountId = .ok (goodAccount, book)) :
    s.inventoryBook.getAccount goodAccountId = some goodAccount ∧
      (∀ fb, book = some fb → fb = s.financialBook ∧ goodAccount.type ≠ .incoming ∧
        goodAccount.type ≠ .outgoing) := by
  unfold openAccount at h
  split at h
  · cases h
  · rename_i a ha
    cases h
    refine ⟨ha, ?_⟩
    intro fb hfb
    obtain ⟨info, hinfo, rfl⟩ := Option.map_eq_some_iff.1 hfb
    refine ⟨rfl, ?_⟩
    cases hcode : BotService.getExchangeCode goodAccount with
    | some code => exact type_of_getExchangeCode hcode
    | none =>
      rw [hcode] at hinfo
      cases collection <;> simp [BotService.getFinancialBook] at hinfo

/-- What a calculation up to `toDate` collects. -/
abbrev listingOf (P : Platform) (b : Book) (goodAccount : Account) (toDate : Date) : Listing :=
  collect P (listTransactions b goodAccount toDate)

/-- What a calculation has checked when it is about to fire its batches. -/
structure Passed (P : Platform) (s : State) (goodAccountId : String) (toDate : Date)
    (goodAccount : Account) : Prop where
  account : s.inventoryBook.getAccount goodAccountId = some goodAccount
  notIncoming : goodAccount.type ≠ .incoming
  notOutgoing : goodAccount.type ≠ .outgoing
  current : GoodAccount.needsRebuild goodAccount = false
  selling : (listingOf P s.inventoryBook goodAccount toDate).totalSalesQuantity ≠ 0
  covered : (listingOf P s.inventoryBook goodAccount toDate).totalSalesQuantity ≤
    (listingOf P s.inventoryBook goodAccount toDate).totalPurchasedQuantity

theorem planListing_fire {fb ib : Book} {a : Account} {l : Listing}
    (h : planListing P env fb ib a l = .ok (.fire goodAccount sales processor)) :
    a = goodAccount ∧ sales = BotService.sortFIFO P l.goodAccountSaleTransactions ∧
      ∃ purchases processor₁ ps, processCreditNotes P l.goodAccountCreditNoteTransactionsMap.entries
          l.goodAccountPurchaseTransactionsMap {} = .ok (.done purchases processor₁) ∧
        processSales P env fb ib sales (BotService.sortFIFO P purchases.values) processor₁ =
          .ok (some (ps, processor)) := by
  unfold planListing at h
  obtain ⟨result, hnotes, h⟩ := bind_eq_ok.1 h
  cases result with
  | stop creditNote => cases h
  | done purchases processor₁ =>
    obtain ⟨result, hsales, h⟩ := bind_eq_ok.1 h
    cases result with
    | none => cases h
    | some r =>
      cases h
      exact ⟨rfl, rfl, purchases, processor₁, r.1, hnotes, hsales⟩

theorem planCalculation_fire
    (h : planCalculation P collection env s goodAccountId toDate =
      .ok (.fire goodAccount sales processor)) :
    Passed P s goodAccountId (toDate.getD env.today) goodAccount ∧
      planListing P env (costOfSalesBook env s) s.inventoryBook goodAccount
        (listingOf P s.inventoryBook goodAccount (toDate.getD env.today)) =
          .ok (.fire goodAccount sales processor) := by
  unfold planCalculation at h
  obtain ⟨⟨a, book⟩, hopen, h⟩ := bind_eq_ok.1 h
  obtain ⟨haccount, hbook⟩ := openAccount_ok hopen
  simp only at h
  split at h
  · cases h
  · rename_i hrebuild
    split at h
    · cases h
    · rename_i fb
      obtain ⟨rfl, hin, hout⟩ := hbook fb rfl
      split at h
      · cases h
      · rename_i hselling
        split at h
        · cases h
        · rename_i hcovered
          obtain ⟨rfl, -, -⟩ := planListing_fire h
          exact ⟨⟨haccount, hin, hout, by simpa using hrebuild, hselling, not_lt.1 hcovered⟩, h⟩

/-- A run that comes to its sales has some. -/
theorem Passed.sales_ne_nil {day : Date} (h : Passed P s goodAccountId day goodAccount) :
    BotService.sortFIFO P (listingOf P s.inventoryBook goodAccount day).goodAccountSaleTransactions ≠
      [] := by
  intro hnone
  refine h.selling (collect_totalSales P _ ?_)
  rw [← collect_sales P]
  exact (hnone ▸ sortFIFO_perm _).nil_eq.symm

end Plan

/-! ## The account of the cost of goods sold -/

section CostOfSalesAccount

variable {P : Platform} {collection : Option (List BookInfo)} {env env' : RunEnv} {s : State}
  {goodAccountId : String} {toDate : Option Date} {b b' : Book}

theorem createCostOfSalesAccount_of_found (h : b.getAccount cogsAccount ≠ none) :
    createCostOfSalesAccount env b = b := by
  obtain ⟨a, ha⟩ := Option.ne_none_iff_exists'.1 h
  unfold createCostOfSalesAccount
  rw [ha]

/-- Where the account exists nothing is created. -/
theorem withCostOfSalesAccount_of_found (h : s.financialBook.getAccount cogsAccount ≠ none) :
    withCostOfSalesAccount env s = s := by
  rw [withCostOfSalesAccount, createCostOfSalesAccount_of_found h]

/-- What is created is the account that is looked up. -/
theorem getAccount_createCostOfSalesAccount (env : RunEnv) (b : Book) :
    (createCostOfSalesAccount env b).getAccount cogsAccount ≠ none := by
  cases hfound : b.getAccount cogsAccount with
  | some a =>
    rw [createCostOfSalesAccount_of_found (by simp [hfound]), hfound]
    simp
  | none =>
    intro hnone
    unfold createCostOfSalesAccount at hnone
    rw [hfound] at hnone
    simp [Book.getAccount, newCostOfSalesAccount] at hnone

theorem createCostOfSalesAccount_twice (env env' : RunEnv) (b : Book) :
    createCostOfSalesAccount env' (createCostOfSalesAccount env b) =
      createCostOfSalesAccount env b :=
  createCostOfSalesAccount_of_found (getAccount_createCostOfSalesAccount env b)

/-- The accounts with the one that is created depend on the accounts and on its id. -/
theorem createCostOfSalesAccount_accounts (hcogs : env'.cogsAccountId = env.cogsAccountId)
    (haccounts : b'.accounts = b.accounts) :
    (createCostOfSalesAccount env' b').accounts = (createCostOfSalesAccount env b).accounts := by
  unfold createCostOfSalesAccount newCostOfSalesAccount Book.getAccount
  simp only [haccounts, hcogs]

theorem createCostOfSalesAccount_congr (hcogs : env'.cogsAccountId = env.cogsAccountId) (b : Book) :
    createCostOfSalesAccount env' b = createCostOfSalesAccount env b := by
  unfold createCostOfSalesAccount newCostOfSalesAccount
  rw [hcogs]

theorem booksAfterListing_cases (P : Platform) (env : RunEnv) (s : State) (l : Listing) :
    booksAfterListing P env s l = s ∨
      booksAfterListing P env s l = withCostOfSalesAccount env s := by
  unfold booksAfterListing
  split
  · exact Or.inr rfl
  · exact Or.inl rfl

@[simp] theorem booksAfterListing_inventoryBook (l : Listing) :
    (booksAfterListing P env s l).inventoryBook = s.inventoryBook := by
  rcases booksAfterListing_cases P env s l with h | h
  · rw [h]
  · rw [h]
    rfl

theorem booksAfterListing_of_found (h : s.financialBook.getAccount cogsAccount ≠ none)
    (l : Listing) : booksAfterListing P env s l = s := by
  rcases booksAfterListing_cases P env s l with hsame | hsame
  · exact hsame
  · exact hsame.trans (withCostOfSalesAccount_of_found h)

/-- Up to its batch operations a calculation writes nothing but that account. -/
theorem booksAfterPlan_cases (P : Platform) (collection : Option (List BookInfo)) (env : RunEnv)
    (s : State) (goodAccountId : String) (toDate : Option Date) :
    booksAfterPlan P collection env s goodAccountId toDate = s ∨
      booksAfterPlan P collection env s goodAccountId toDate = withCostOfSalesAccount env s := by
  unfold booksAfterPlan
  split
  · split
    · exact Or.inl rfl
    · exact booksAfterListing_cases P env s _
  · exact Or.inl rfl

@[simp] theorem booksAfterPlan_inventoryBook :
    (booksAfterPlan P collection env s goodAccountId toDate).inventoryBook = s.inventoryBook := by
  rcases booksAfterPlan_cases P collection env s goodAccountId toDate with h | h
  · rw [h]
  · rw [h]
    rfl

@[simp] theorem booksAfterPlan_transactions :
    (booksAfterPlan P collection env s goodAccountId toDate).financialBook.transactions =
      s.financialBook.transactions := by
  rcases booksAfterPlan_cases P collection env s goodAccountId toDate with h | h
  · rw [h]
  · rw [h]
    rfl

/-- A run without sales to process does not come to that account. -/
theorem booksAfterPlan_of_nothing (h : ∀ a, s.inventoryBook.getAccount goodAccountId = some a →
    (listingOf P s.inventoryBook a (toDate.getD env.today)).totalSalesQuantity = 0) :
    booksAfterPlan P collection env s goodAccountId toDate = s := by
  unfold booksAfterPlan
  split
  · rename_i a fb hopen
    split
    · rfl
    · exact if_neg fun hreached => hreached.1 (h a (openAccount_ok hopen).1)
  · rfl

/-- A run that fires its batches has created the account. -/
theorem booksAfterPlan_fire {goodAccount : Account} {sales : List Transaction}
    {processor : CalculateCostOfSalesProcessor}
    (h : planCalculation P collection env s goodAccountId toDate =
      .ok (.fire goodAccount sales processor)) :
    booksAfterPlan P collection env s goodAccountId toDate = withCostOfSalesAccount env s := by
  obtain ⟨hpassed, hlisting⟩ := planCalculation_fire h
  obtain ⟨-, rfl, purchases, processor₁, ps, hnotes, hsales⟩ := planListing_fire hlisting
  obtain ⟨sale, sales, hsorted⟩ := List.exists_cons_of_ne_nil hpassed.sales_ne_nil
  rw [hsorted] at hsales
  obtain ⟨qs, processor₂, hsale, -⟩ := processSales_cons.1 hsales
  have hreached : reachesCostOfSales P env (costOfSalesBook env s) s.inventoryBook
      (listingOf P s.inventoryBook goodAccount (toDate.getD env.today)) = true := by
    unfold reachesCostOfSales
    simp only [hnotes, hsorted, hsale]
    rfl
  have hopen : openAccount collection s goodAccountId = .ok (goodAccount, some s.financialBook) := by
    unfold planCalculation at h
    obtain ⟨⟨a, book⟩, hopen, h⟩ := bind_eq_ok.1 h
    obtain ⟨haccount, hbook⟩ := openAccount_ok hopen
    obtain rfl : a = goodAccount := Option.some.inj (haccount.symm.trans hpassed.account)
    cases book with
    | some fb => rw [hopen, (hbook fb rfl).1]
    | none =>
      simp only [hpassed.current] at h
      cases h
  unfold booksAfterPlan
  rw [hopen]
  dsimp only
  rw [if_neg (by simp [hpassed.current])]
  exact if_pos ⟨hpassed.selling, hpassed.covered, hreached⟩

end CostOfSalesAccount

/-! ## The calculation as a sequence of moves -/

theorem mem_listTransactions {b : Book} {a : Account} {toDate : Date} {t : Transaction} :
    t ∈ listTransactions b a toDate ↔
      t ∈ b.transactions ∧ t.moves a.name ∧ t.date < BotService.getBeforeDateIsoString toDate := by
  simp [listTransactions, Book.getTransactions, helper.getAccountQuery, Query.selects]

/-- A selection of rows with different ids has different ids. -/
theorem nodup_ids_of_subset {l l' : List Transaction} (h : (l.map Transaction.id).Nodup)
    (hsub : ∀ t ∈ l', t ∈ l) (hnodup : l'.Nodup) : (l'.map Transaction.id).Nodup :=
  List.Nodup.map_on (fun t ht u hu he => List.inj_on_of_nodup_map h (hsub t ht) (hsub u hu) he)
    hnodup

section Moves

variable {P : Platform} {env : RunEnv} {s : State} {goodAccount : Account} {toDate : Date}

/-- The open transactions of one kind in the listing of the account. -/
theorem inListing_of_mem {kind : Transaction → Bool} {t : Transaction}
    (h : t ∈ (listTransactions s.inventoryBook goodAccount toDate).filter
      fun t => !t.checked && kind t) :
    InListing kind goodAccount.name (BotService.getBeforeDateIsoString toDate)
      s.inventoryBook.transactions t ∧ t.checked = false := by
  rw [List.mem_filter, mem_listTransactions] at h
  obtain ⟨⟨hst, hmoves, hdate⟩, hkind⟩ := h
  simp only [Bool.and_eq_true, Bool.not_eq_true'] at hkind
  exact ⟨⟨hst, hmoves, hdate, hkind.2⟩, hkind.1⟩

theorem WellFormed.oneSided {b : Book} (h : WellFormed b) {id : String}
    (haccount : b.getAccount id = some goodAccount) (hin : goodAccount.type ≠ .incoming)
    (hout : goodAccount.type ≠ .outgoing) {t : Transaction} (ht : t ∈ b.transactions)
    (hmoves : t.moves goodAccount.name) : OneSided t :=
  oneSided_of_moves
    (fun r hr hname => h.refs t ht r hr goodAccount (Book.mem_of_getAccount haccount) hname) hin
    hout hmoves

/-- A listed transaction of a good account has one kind. -/
theorem WellFormed.oneKind {b : Book} (h : WellFormed b) {id : String}
    (haccount : b.getAccount id = some goodAccount) (hin : goodAccount.type ≠ .incoming)
    (hout : goodAccount.type ≠ .outgoing) {t : Transaction} (ht : t ∈ b.transactions)
    (hmoves : t.moves goodAccount.name) : OneKind t := by
  exact oneKind_of_moves
    (fun r hr hname => h.refs t ht r hr goodAccount (Book.mem_of_getAccount haccount) hname) hin
    hout hmoves

variable (P s goodAccount toDate) in
/-- What the collections of a listing hold: open transactions of the listed account. -/
theorem listing_mem :
    let l := listingOf P s.inventoryBook goodAccount toDate
    let before := BotService.getBeforeDateIsoString toDate
    (∀ t ∈ l.goodAccountSaleTransactions, InListing BotService.isSale goodAccount.name before
        s.inventoryBook.transactions t ∧ t.checked = false) ∧
      (∀ k p, l.goodAccountPurchaseTransactionsMap.get k = some p →
        InListing BotService.isPurchase goodAccount.name before s.inventoryBook.transactions p ∧
          p.checked = false ∧ p.purchaseCode = k) ∧
      (∀ e ∈ l.goodAccountCreditNoteTransactionsMap.entries,
        InListing BotService.isCreditNote goodAccount.name before s.inventoryBook.transactions e.2 ∧
          e.2.checked = false ∧ e.2.creditNote = e.1) := by
  intro l before
  refine ⟨?_, ?_, ?_⟩
  · intro t ht
    rw [show l = collect P _ from rfl, collect_sales] at ht
    exact inListing_of_mem ht
  · intro k p hk
    rw [show l = collect P _ from rfl, collect_purchases] at hk
    obtain ⟨hmem, hcode⟩ := OrderedMap.get_ofList hk
    exact ⟨(inListing_of_mem hmem).1, (inListing_of_mem hmem).2, hcode⟩
  · intro e he
    rw [show l = collect P _ from rfl, collect_creditNotes] at he
    obtain ⟨hmem, hnumber⟩ := OrderedMap.get_ofList (OrderedMap.get_eq_some_iff.2 he)
    exact ⟨(inListing_of_mem hmem).1, (inListing_of_mem hmem).2, hnumber⟩

variable (P toDate) in
/-- The three collections of a listing share no id. -/
theorem listing_disjoint (hids : (s.inventoryBook.transactions.map Transaction.id).Nodup)
    (hkind : ∀ t ∈ s.inventoryBook.transactions, t.moves goodAccount.name → OneKind t) :
    let l := listingOf P s.inventoryBook goodAccount toDate
    (∀ t ∈ l.goodAccountSaleTransactions, ∀ p ∈ l.goodAccountPurchaseTransactionsMap.values,
        p.id ≠ t.id) ∧
      (∀ t ∈ l.goodAccountSaleTransactions, ∀ e ∈ l.goodAccountCreditNoteTransactionsMap.entries,
        e.2.id ≠ t.id) ∧
      (∀ p ∈ l.goodAccountPurchaseTransactionsMap.values,
        ∀ e ∈ l.goodAccountCreditNoteTransactionsMap.entries, e.2.id ≠ p.id) := by
  intro l
  obtain ⟨hsales, hpurchases, hnotes⟩ := listing_mem P s goodAccount toDate
  refine ⟨?_, ?_, ?_⟩
  · intro t ht p hp hid
    obtain ⟨k, hk⟩ := OrderedMap.mem_values_iff.1 hp
    have htin := (hsales t ht).1
    have hpin := (hpurchases k p hk).1
    have hsame : p = t := List.inj_on_of_nodup_map hids hpin.stored htin.stored hid
    exact (hkind t htin.stored htin.moves).sale_purchase htin.kind (hsame ▸ hpin.kind)
  · intro t ht e he hid
    have htin := (hsales t ht).1
    have hein := (hnotes e he).1
    have hsame : e.2 = t := List.inj_on_of_nodup_map hids hein.stored htin.stored hid
    exact (hkind t htin.stored htin.moves).sale_creditNote htin.kind (hsame ▸ hein.kind)
  · intro p hp e he hid
    obtain ⟨k, hk⟩ := OrderedMap.mem_values_iff.1 hp
    have hpin := (hpurchases k p hk).1
    have hein := (hnotes e he).1
    have hsame : e.2 = p := List.inj_on_of_nodup_map hids hein.stored hpin.stored hid
    exact (hkind p hpin.stored hpin.moves).purchase_creditNote hpin.kind (hsame ▸ hein.kind)

variable (P env toDate) in
/-- The credit notes and purchases that a listing starts with. -/
theorem notesInvariant_start (hids : (s.inventoryBook.transactions.map Transaction.id).Nodup)
    (hkind : ∀ t ∈ s.inventoryBook.transactions, t.moves goodAccount.name → OneKind t) :
    let l := listingOf P s.inventoryBook goodAccount toDate
    NotesInvariant env goodAccount.name (BotService.getBeforeDateIsoString toDate)
      s.inventoryBook.transactions (creditNoteNumbers s.inventoryBook)
      l.goodAccountCreditNoteTransactionsMap.entries l.goodAccountPurchaseTransactionsMap {}
      (Desk.start s.inventoryBook.transactions) := by
  intro l
  obtain ⟨-, hpurchases, hnotes⟩ := listing_mem P s goodAccount toDate
  obtain ⟨-, -, hdisjoint⟩ := listing_disjoint P toDate hids hkind
  refine ⟨coherent_start rfl rfl rfl, rfl, hpurchases, ?_, ?_, OrderedMap.nodup_keys _, ?_⟩
  · intro e he
    obtain ⟨hin, hopen, hkey⟩ := hnotes e he
    obtain ⟨-, -, number, hnumber⟩ := isCreditNote_iff.1 hin.kind
    exact ⟨hin, hopen, number, List.mem_filterMap.2 ⟨e.2, hin.stored, hnumber⟩,
      hkey.symm.trans hnumber, hnumber⟩
  · refine List.nodup_append.2 ⟨?_, ?_, ?_⟩
    · refine nodup_ids_of_subset hids ?_ ?_
      · intro p hp
        obtain ⟨k, hk⟩ := OrderedMap.mem_values_iff.1 hp
        exact (hpurchases k p hk).1.stored
      · rw [show l = collect P _ from rfl, collect_purchases]
        exact (OrderedMap.nodup_key_values_ofList _ _).of_map
    · have hvalues : (l.goodAccountCreditNoteTransactionsMap.entries.map fun e => e.2.id) =
          l.goodAccountCreditNoteTransactionsMap.values.map Transaction.id := by
        rw [OrderedMap.values, List.map_map]
        rfl
      rw [hvalues]
      refine nodup_ids_of_subset hids ?_ ?_
      · intro t ht
        obtain ⟨e, he, rfl⟩ := List.mem_map.1 ht
        exact (hnotes e he).1.stored
      · rw [show l = collect P _ from rfl, collect_creditNotes]
        exact (OrderedMap.nodup_key_values_ofList _ _).of_map
    · rintro _ hx _ hy rfl
      obtain ⟨p, hp, rfl⟩ := List.mem_map.1 hx
      obtain ⟨e, he, hid⟩ := List.mem_map.1 hy
      exact hdisjoint p hp e he hid
  · intro e _ number _ hk
    cases hk

theorem Enough.of_perm {closes : ℚ → Prop} {sales sales' ps ps' : List Transaction}
    (h : Enough closes sales ps) (hsales : sales'.Perm sales) (hps : ps'.Perm ps) :
    Enough closes sales' ps' := by
  rcases h with hall | ⟨hzero, hpos, hstocked, hsum⟩
  · exact Or.inl hall
  · refine Or.inr ⟨hzero, fun t ht => hpos t (hsales.mem_iff.1 ht),
      fun p hp => hstocked p (hps.mem_iff.1 hp), ?_⟩
    rw [(hsales.map _).sum_eq, (hps.map _).sum_eq]
    exact hsum

variable (P toDate) in
/-- The sorted purchases, as the credit notes leave them, and the sorted sales have different ids. -/
theorem listing_sorted_nodup (hids : (s.inventoryBook.transactions.map Transaction.id).Nodup)
    (hkind : ∀ t ∈ s.inventoryBook.transactions, t.moves goodAccount.name → OneKind t)
    {purchases : OrderedMap (Option String) Transaction}
    (hpids : purchases.values.map Transaction.id = (listingOf P s.inventoryBook goodAccount
      toDate).goodAccountPurchaseTransactionsMap.values.map Transaction.id) :
    ((BotService.sortFIFO P purchases.values ++ BotService.sortFIFO P (listingOf P s.inventoryBook
      goodAccount toDate).goodAccountSaleTransactions).map Transaction.id).Nodup := by
  obtain ⟨hsales, hpurchases, -⟩ := listing_mem P s goodAccount toDate
  obtain ⟨hsp, -, -⟩ := listing_disjoint P toDate hids hkind
  have hperm := (sortFIFO_perm (P := P) purchases.values).append (sortFIFO_perm (P := P)
    (listingOf P s.inventoryBook goodAccount toDate).goodAccountSaleTransactions)
  rw [(hperm.map Transaction.id).nodup_iff, List.map_append, hpids]
  refine List.nodup_append.2 ⟨?_, ?_, ?_⟩
  · refine nodup_ids_of_subset hids (fun p hp => ?_) ?_
    · obtain ⟨k, hk⟩ := OrderedMap.mem_values_iff.1 hp
      exact (hpurchases k p hk).1.stored
    · rw [collect_purchases]
      exact (OrderedMap.nodup_key_values_ofList _ _).of_map
  · refine nodup_ids_of_subset hids (fun t ht => (hsales t ht).1.stored) ?_
    rw [collect_sales]
    exact (hids.of_map.filter _).filter _
  · rintro _ hx _ hy rfl
    obtain ⟨p, hp, rfl⟩ := List.mem_map.1 hx
    obtain ⟨t, ht, hid⟩ := List.mem_map.1 hy
    exact hsp t ht p hp hid.symm

/-- A listing that is processed to its end is a sequence of moves; the purchases that the loop
    over the sales hands on are then stored. -/
theorem planListing_end {closes : ℚ → Prop} {a : Account} {sales : List Transaction}
    {processor : CalculateCostOfSalesProcessor}
    (hids : (s.inventoryBook.transactions.map Transaction.id).Nodup)
    (hkind : ∀ t ∈ s.inventoryBook.transactions, t.moves goodAccount.name → OneKind t)
    (hfresh : Book.FreshIds env.uuid (creditNoteNumbers s.inventoryBook))
    (h : planListing P env (costOfSalesBook env s) s.inventoryBook goodAccount
      (listingOf P s.inventoryBook goodAccount toDate) = .ok (.fire a sales processor))
    (henough : ∀ purchases processor₁, processCreditNotes P
        (listingOf P s.inventoryBook goodAccount toDate).goodAccountCreditNoteTransactionsMap.entries
        (listingOf P s.inventoryBook goodAccount toDate).goodAccountPurchaseTransactionsMap {} =
          .ok (.done purchases processor₁) →
      Enough closes (listingOf P s.inventoryBook goodAccount toDate).goodAccountSaleTransactions
        purchases.values) :
    ∃ purchases processor₁ ps d, processCreditNotes P
        (listingOf P s.inventoryBook goodAccount toDate).goodAccountCreditNoteTransactionsMap.entries
        (listingOf P s.inventoryBook goodAccount toDate).goodAccountPurchaseTransactionsMap {} =
          .ok (.done purchases processor₁) ∧
      processSales P env (costOfSalesBook env s) s.inventoryBook
        (BotService.sortFIFO P
          (listingOf P s.inventoryBook goodAccount toDate).goodAccountSaleTransactions)
        (BotService.sortFIFO P purchases.values) processor₁ = .ok (some (ps, processor)) ∧
      Moves P env (costOfSalesBook env s) s.inventoryBook.info.fractionDigits goodAccount.name
        (BotService.getBeforeDateIsoString toDate) closes
        (Desk.start s.inventoryBook.transactions) d ∧
      SalesInvariant env goodAccount.name (BotService.getBeforeDateIsoString toDate)
        s.inventoryBook.transactions (creditNoteNumbers s.inventoryBook) [] ps processor d := by
  obtain ⟨-, rfl, purchases, processor₁, ps, hnotes, hsales⟩ := planListing_fire h
  have henough := (henough _ _ hnotes).of_perm (sortFIFO_perm (P := P) _) (sortFIFO_perm (P := P) _)
  have hstart := notesInvariant_start P env toDate hids hkind
  obtain ⟨hmem, -, -⟩ := listing_mem P s goodAccount toDate
  obtain ⟨hsp, hsn, -⟩ := listing_disjoint P toDate hids hkind
  obtain ⟨d₁, hmoves₁, hd₁, hpids, hframe, hfin⟩ := processCreditNotes_moves (costOfSalesBook env s)
    s.inventoryBook.info.fractionDigits closes hnotes hstart
  have hsales₁ : SalesInvariant env goodAccount.name (BotService.getBeforeDateIsoString toDate)
      s.inventoryBook.transactions (creditNoteNumbers s.inventoryBook)
      (BotService.sortFIFO P (listingOf P s.inventoryBook goodAccount
        toDate).goodAccountSaleTransactions) (BotService.sortFIFO P purchases.values)
      processor₁ d₁ := by
    have hsp' : ∀ t ∈ (listingOf P s.inventoryBook goodAccount toDate).goodAccountSaleTransactions,
        t.id ∉ purchases.values.map Transaction.id := by
      intro t ht hid
      rw [hpids] at hid
      obtain ⟨p, hp, hid⟩ := List.mem_map.1 hid
      exact hsp t ht p hp hid
    refine ⟨hd₁.coherent, hd₁.idle, ?_, ?_, ?_, ?_⟩
    · intro p hp
      obtain ⟨k, hk⟩ := OrderedMap.mem_values_iff.1 ((sortFIFO_perm _).mem_iff.1 hp)
      exact (hd₁.offered k p hk).1
    · intro t ht
      have ht := (sortFIFO_perm _).mem_iff.1 ht
      obtain ⟨hin, hopen⟩ := hmem t ht
      refine ⟨hin.keep (hframe t hin.stored (hpids ▸ hsp' t ht) ?_), hopen⟩
      intro hid
      obtain ⟨e, he, hid⟩ := List.mem_map.1 hid
      exact hsn t ht e he hid
    · exact listing_sorted_nodup P toDate hids hkind hpids
    · intro t _ hk
      rw [hfin] at hk
      cases hk
  obtain ⟨d, hmoves, hd⟩ := processSales_moves hfresh hsales hsales₁ henough
  exact ⟨purchases, processor₁, ps, d, hnotes, hsales, hmoves₁.trans hmoves, hd⟩

/-- A listing that is processed to its end is a sequence of moves. -/
theorem planListing_moves {closes : ℚ → Prop} {a : Account} {sales : List Transaction}
    {processor : CalculateCostOfSalesProcessor}
    (hids : (s.inventoryBook.transactions.map Transaction.id).Nodup)
    (hkind : ∀ t ∈ s.inventoryBook.transactions, t.moves goodAccount.name → OneKind t)
    (hfresh : Book.FreshIds env.uuid (creditNoteNumbers s.inventoryBook))
    (h : planListing P env (costOfSalesBook env s) s.inventoryBook goodAccount
      (listingOf P s.inventoryBook goodAccount toDate) = .ok (.fire a sales processor))
    (henough : ∀ purchases processor₁, processCreditNotes P
        (listingOf P s.inventoryBook goodAccount toDate).goodAccountCreditNoteTransactionsMap.entries
        (listingOf P s.inventoryBook goodAccount toDate).goodAccountPurchaseTransactionsMap {} =
          .ok (.done purchases processor₁) →
      Enough closes (listingOf P s.inventoryBook goodAccount toDate).goodAccountSaleTransactions
        purchases.values) :
    ∃ d, Moves P env (costOfSalesBook env s) s.inventoryBook.info.fractionDigits goodAccount.name
        (BotService.getBeforeDateIsoString toDate) closes
        (Desk.start s.inventoryBook.transactions) d ∧
      d.current = none ∧ Coherent env s.inventoryBook.transactions
        (creditNoteNumbers s.inventoryBook) processor d := by
  obtain ⟨_, _, _, d, -, -, hmoves, hd⟩ := planListing_end hids hkind hfresh h henough
  exact ⟨d, hmoves, hd.idle, hd.coherent⟩

end Moves

/-! ## The books after the batches -/

section Commit

variable {P : Platform} {env : RunEnv} {s : State} {numbers : List String}
  {processor : CalculateCostOfSalesProcessor} {d : Desk}

/-- An update does not touch a transaction whose id is not queued. -/
theorem map_updated_of_absent {m : OrderedMap String Transaction} (h : Book.KeyedById m)
    {l : List Transaction} (hl : ∀ t ∈ l, t.id ∉ m.keys) :
    l.map (Book.updated m.values) = l := by
  conv_rhs => rw [← List.map_id l]
  refine List.map_congr_left fun t ht => ?_
  rw [Book.updated_values h, OrderedMap.get_eq_none.2 (hl t ht)]
  rfl

/-- The inventory transactions after the creation alone. -/
theorem fireBatchOperations_one (hc : Coherent env s.inventoryBook.transactions numbers processor d) :
    (processor.fireBatchOperations env 1 s).inventoryBook.transactions =
      s.inventoryBook.transactions ++ Book.postAll env.inventoryId env.now d.created := by
  rw [hc.created]
  rfl

/-- The inventory transactions after the creation and the update are those of the desk. -/
theorem fireBatchOperations_two (hc : Coherent env s.inventoryBook.transactions numbers processor d)
    (hfresh : Book.FreshIds env.inventoryId
      ("" :: s.inventoryBook.transactions.map Transaction.id)) :
    (processor.fireBatchOperations env 2 s).inventoryBook.transactions =
      d.stored ++ Book.postAll env.inventoryId env.now d.created := by
  have hnew : ∀ t ∈ Book.postAll env.inventoryId env.now d.created,
      t.id ∉ processor.inventoryBookTransactionsToUpdateMap.keys := by
    intro t ht hk
    obtain ⟨k, u, -, rfl⟩ := Book.mem_postAll ht
    exact hfresh.new k (List.mem_cons_of_mem _ (hc.updateKeys _ hk))
  calc (processor.fireBatchOperations env 2 s).inventoryBook.transactions
      = (s.inventoryBook.transactions ++ Book.postAll env.inventoryId env.now d.created).map
          (Book.updated processor.inventoryBookTransactionsToUpdateMap.values) := by
        rw [hc.created]
        rfl
    _ = d.stored ++ Book.postAll env.inventoryId env.now d.created := by
        rw [List.map_append, ← hc.stored, map_updated_of_absent hc.keyed hnew]

/-- The books after the three batch calls are those of the desk. -/
theorem fireBatchOperations_desk
    (hc : Coherent env s.inventoryBook.transactions numbers processor d)
    (hfresh : Book.FreshIds env.inventoryId
      ("" :: s.inventoryBook.transactions.map Transaction.id)) :
    (processor.fireBatchOperations env 3 s).inventoryBook.transactions =
        d.stored ++ Book.postAll env.inventoryId env.now d.created ∧
      (processor.fireBatchOperations env 3 s).financialBook.transactions =
        s.financialBook.transactions ++ Book.postAll env.financialId env.now d.posted := by
  refine ⟨fireBatchOperations_two hc hfresh, ?_⟩
  rw [hc.posted]
  rfl

theorem storeLastCalcTxDate_transactions (b : Book) (a : Account) (sales : List Transaction) :
    (storeLastCalcTxDate P b a sales).transactions = b.transactions := by
  unfold storeLastCalcTxDate
  split
  · rfl
  · split
    · rfl
    · rfl
    · split <;> rfl

end Commit

end InventoryBot.Menu
