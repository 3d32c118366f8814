import InventoryBot.Menu.Continuation
import InventoryBot.Menu.FifoOrder

/-!
# What a run leaves to the next one

A run over a listing without credit notes, whose purchases have different codes, is its loop over
the sales. Afterwards its sales are checked, its purchases are stored as the loop has handed them
on, and everything else is as it was.

* `planListing_plain`: the plan of a run on such a listing.
* `Leaves`, `leaves_of_run`: what the run leaves of the transactions.
* `openSales_after`, `openPurchases_after`: what a run up to another date finds then.
-/

namespace InventoryBot.Menu

open Lib CostOfSalesService

/-! ## Plain listings -/

/-- A listing of positive amounts without open credit notes, whose open purchases have different
    codes, and whose sales and purchases can be sorted. -/
structure PlainListing (P : Platform) (txs : List Transaction) : Prop where
  positive : PositiveListing txs
  codes : ((txs.filter isOpenPurchase).map Transaction.purchaseCode).Nodup
  notes : txs.filter isOpenCreditNote = []
  sortable : ∀ t ∈ txs, isOpenSale t ∨ isOpenPurchase t → Sortable P t

section PlainListing

variable {P : Platform} {env : RunEnv} {fb ib : Book} {txs : List Transaction} {a a' : Account}

/-- A part of a plain listing is plain. -/
theorem PlainListing.filter (h : PlainListing P txs) (p : Transaction → Bool) :
    PlainListing P (txs.filter p) where
  positive := fun t ht => h.positive t (List.mem_of_mem_filter ht)
  codes := by
    refine h.codes.sublist (List.Sublist.map _ ?_)
    exact List.filter_sublist.filter isOpenPurchase
  notes := by
    rw [List.filter_eq_nil_iff]
    intro t ht
    exact List.filter_eq_nil_iff.1 h.notes t (List.mem_of_mem_filter ht)
  sortable := fun t ht => h.sortable t (List.mem_of_mem_filter ht)

theorem PlainListing.sortable_sales (h : PlainListing P txs) :
    ∀ t ∈ txs.filter isOpenSale, Sortable P t :=
  fun t ht => h.sortable t (List.mem_of_mem_filter ht) (Or.inl (List.of_mem_filter ht))

theorem PlainListing.sortable_purchases (h : PlainListing P txs) :
    ∀ t ∈ txs.filter isOpenPurchase, Sortable P t :=
  fun t ht => h.sortable t (List.mem_of_mem_filter ht) (Or.inr (List.of_mem_filter ht))

/-- Without open credit notes none are collected, and different codes keep all purchases. -/
theorem collect_plain (P : Platform) (hnotes : txs.filter isOpenCreditNote = [])
    (hcodes : ((txs.filter isOpenPurchase).map Transaction.purchaseCode).Nodup) :
    (collect P txs).goodAccountCreditNoteTransactionsMap.entries = [] ∧
      (collect P txs).goodAccountPurchaseTransactionsMap.values = txs.filter isOpenPurchase := by
  rw [collect_creditNotes, collect_purchases, hnotes]
  exact ⟨rfl, OrderedMap.values_ofList_of_nodup hcodes⟩

/-- The plan of a run on such a listing is its loop over the sales. -/
theorem planListing_plain (hnotes : txs.filter isOpenCreditNote = [])
    (hcodes : ((txs.filter isOpenPurchase).map Transaction.purchaseCode).Nodup)
    {sales : List Transaction} {processor : CalculateCostOfSalesProcessor} :
    planListing P env fb ib a (collect P txs) = .ok (.fire a' sales processor) ↔
      a' = a ∧ sales = BotService.sortFIFO P (txs.filter isOpenSale) ∧
        ∃ ps, processSales P env fb ib sales
          (BotService.sortFIFO P (txs.filter isOpenPurchase)) {} = .ok (some (ps, processor)) := by
  obtain ⟨hentries, hvalues⟩ := collect_plain P hnotes hcodes
  constructor
  · intro h
    obtain ⟨rfl, rfl, purchases, processor₁, ps, hdone, hsales⟩ := planListing_fire h
    rw [hentries] at hdone
    cases hdone
    rw [collect_sales, hvalues] at hsales
    rw [collect_sales]
    exact ⟨rfl, rfl, ps, hsales⟩
  · rintro ⟨rfl, rfl, ps, hsales⟩
    unfold planListing
    rw [hentries, collect_sales]
    show (processSales P env fb ib _ (BotService.sortFIFO P
      (collect P txs).goodAccountPurchaseTransactionsMap.values) {} >>= _) = _
    rw [hvalues, hsales]
    rfl

end PlainListing

/-- The sorted transactions of a kind that a run up to `day` lists. -/
def sortedUntil (P : Platform) (b : Book) (a : Account) (day : Date) (kind : Transaction → Bool) :
    List Transaction :=
  BotService.sortFIFO P ((listTransactions b a day).filter kind)

/-- The sorted transactions of a kind that a run up to `day'` lists, but not one up to `day`. -/
def sortedBetween (P : Platform) (b : Book) (a : Account) (day day' : Date)
    (kind : Transaction → Bool) : List Transaction :=
  BotService.sortFIFO P (((listTransactions b a day').filter kind).filter fun t =>
    !decide (t.date < BotService.getBeforeDateIsoString day))

theorem nodup_sortedUntil (P : Platform) {b : Book} (h : (b.transactions.map Transaction.id).Nodup)
    (a : Account) (day : Date) (kind : Transaction → Bool) :
    ((sortedUntil P b a day kind).map Transaction.id).Nodup := by
  refine (((sortFIFO_perm _).map _).nodup_iff).2 (h.sublist (List.Sublist.map _ ?_))
  exact List.filter_sublist.trans List.filter_sublist

/-- The listing up to a date is a part of the one up to a later date. -/
theorem listTransactions_until (b : Book) (a : Account) {day day' : Date} (hle : day ≤ day') :
    listTransactions b a day = (listTransactions b a day').filter fun t =>
      t.date < BotService.getBeforeDateIsoString day := by
  unfold listTransactions Book.getTransactions
  rw [List.filter_filter]
  refine List.filter_congr fun t _ => ?_
  have hbefore : t.date < BotService.getBeforeDateIsoString day →
      t.date < BotService.getBeforeDateIsoString day' :=
    fun hlt => lt_of_lt_of_le hlt (Int.add_le_add_right hle 1)
  simp only [helper.getAccountQuery, Query.selects]
  by_cases hlt : t.date < BotService.getBeforeDateIsoString day
  · simp [hlt, hbefore hlt]
  · simp [hlt]

/-! ## The transactions after a run -/

/-- What a run over the listing `txs` leaves of the stored transactions: `u` takes each to what it
    is afterwards, and `ps` are the purchases that the loop over the sales hands on. -/
structure Leaves (P : Platform) (store txs ps : List Transaction)
    (u : Transaction → Transaction) : Prop where
  trace : ∀ t ∈ store, Relation.ReflTransGen (Written P) t (u t)
  others : ∀ t ∈ store, t ∉ txs.filter isOpenSale → t ∉ txs.filter isOpenPurchase → u t = t
  sold : ∀ t ∈ txs.filter isOpenSale, (u t).checked = true
  purchases : ps = (BotService.sortFIFO P (txs.filter isOpenPurchase)).map u

section Run

variable {P : Platform} {env : RunEnv} {s : State} {goodAccount a : Account} {day : Date}
  {sales : List Transaction} {processor : CalculateCostOfSalesProcessor}

theorem mem_filter_listTransactions {b : Book} {kind : Transaction → Bool} {t : Transaction}
    (ht : t ∈ (listTransactions b a day).filter kind) : t ∈ b.transactions :=
  (mem_listTransactions.1 (List.mem_of_mem_filter ht)).1

/-- What a processor has queued for a transaction comes from rewriting it. -/
theorem Coherent.trace {fb : Book} {digits : ℕ} {account : String} {before : Date}
    {closes : ℚ → Prop} {store : List Transaction} {numbers : List String} {d : Desk}
    (hids : (store.map Transaction.id).Nodup) (h : Coherent env store numbers processor d)
    (hmoves : Moves P env fb digits account before closes (Desk.start store) d) :
    ∀ t ∈ store, Relation.ReflTransGen (Written P) t
      (Book.updated processor.inventoryBookTransactionsToUpdateMap.values t) := by
  intro t ht
  obtain ⟨t₀, ht₀, htrace⟩ := hmoves.stored_trace _ (h.stored ▸ List.mem_map_of_mem ht)
  have hid := (sameIdentity_of_trace htrace).id
  rw [Book.updated_values_id h.keyed] at hid
  obtain rfl : t₀ = t := List.inj_on_of_nodup_map hids ht₀ ht hid.symm
  exact htrace

/-- A run on a plain listing that its purchases cover checks the sales, and stores the purchases
    as its loop hands them on. -/
theorem leaves_of_run (hP : P.Exact) (hwf : WellFormed s.inventoryBook)
    (hkind : ∀ t ∈ s.inventoryBook.transactions, t.moves goodAccount.name → OneKind t)
    (hfresh : Book.FreshIds env.uuid (creditNoteNumbers s.inventoryBook))
    (hplain : PlainListing P (listTransactions s.inventoryBook goodAccount day))
    (hcovered : Covered (listTransactions s.inventoryBook goodAccount day))
    (h : planListing P env (costOfSalesBook env s) s.inventoryBook goodAccount
      (listingOf P s.inventoryBook goodAccount day) = .ok (.fire a sales processor)) :
    Book.KeyedById processor.inventoryBookTransactionsToUpdateMap ∧
      ∃ ps, processSales P env (costOfSalesBook env s) s.inventoryBook sales (BotService.sortFIFO P
          ((listTransactions s.inventoryBook goodAccount day).filter isOpenPurchase)) {} =
            .ok (some (ps, processor)) ∧
        Leaves P s.inventoryBook.transactions (listTransactions s.inventoryBook goodAccount day) ps
          (Book.updated processor.inventoryBookTransactionsToUpdateMap.values) := by
  obtain ⟨hentries, hvalues⟩ := collect_plain P hplain.notes hplain.codes
  obtain ⟨-, rfl, -⟩ := (planListing_plain hplain.notes hplain.codes).1 h
  have hallocated := (planListing_allocated_iff hP hwf.ids hkind hplain.positive h).2 hcovered
  obtain ⟨purchases, processor₁, ps, d, hnotes, hsales, hmoves, hd⟩ := planListing_end hwf.ids
    hkind hfresh h fun _ _ _ => Or.inl fun q => (trivial : (fun _ : ℚ => True) q)
  rw [hentries] at hnotes
  cases hnotes
  rw [collect_sales, hvalues] at hsales
  set txs := listTransactions s.inventoryBook goodAccount day with htxs
  set u := Book.updated processor.inventoryBookTransactionsToUpdateMap.values with hu
  have hkeyed := hd.coherent.keyed
  have hid : ∀ t, (u t).id = t.id := Book.updated_values_id hkeyed
  have hstored : ∀ {kind : Transaction → Bool} {t : Transaction}, t ∈ txs.filter kind →
      t ∈ s.inventoryBook.transactions := mem_filter_listTransactions
  have hsame : ∀ {t t' : Transaction}, t ∈ s.inventoryBook.transactions →
      t' ∈ s.inventoryBook.transactions → t.id = t'.id → t = t' :=
    fun ht ht' => List.inj_on_of_nodup_map hwf.ids ht ht'
  refine ⟨hkeyed, ps, hsales, hd.coherent.trace hwf.ids hmoves, ?_, ?_, ?_⟩
  · intro t ht hsale hpurchase
    have habsent : processor.inventoryBookTransactionsToUpdateMap.get t.id = none := by
      rw [processSales_frame hsales ?_ ?_]
      · exact OrderedMap.get_empty _
      · intro hmem
        obtain ⟨p, hp, hpid⟩ := List.mem_map.1 hmem
        have hp := (sortFIFO_perm _).mem_iff.1 hp
        exact hpurchase (hsame (hstored hp) ht hpid ▸ hp)
      · intro hmem
        obtain ⟨t', ht', hid'⟩ := List.mem_map.1 hmem
        have ht' := (sortFIFO_perm _).mem_iff.1 ht'
        exact hsale (hsame (hstored ht') ht hid' ▸ ht')
    rw [hu, Book.updated_values hkeyed, habsent]
    rfl
  · intro t ht
    obtain ⟨w, hw, hdone, -⟩ := hallocated t ht
    rw [hu, Book.updated_values hkeyed, hw]
    exact hdone.1
  · -- a purchase that is handed on is stored, and it is known by its id
    have hids := processSales_ids hsales
    refine List.ext_getElem (by simpa using congrArg List.length hids) fun i hi hi' => ?_
    obtain ⟨t, ht, htu⟩ := List.mem_map.1
      (hd.coherent.stored ▸ (hd.offered ps[i] (List.getElem_mem hi)).stored)
    rw [List.getElem_map]
    have hsorted : i < (BotService.sortFIFO P (txs.filter isOpenPurchase)).length := by
      simpa using hi'
    have hp : (BotService.sortFIFO P (txs.filter isOpenPurchase))[i] ∈ txs.filter isOpenPurchase :=
      (sortFIFO_perm _).mem_iff.1 (List.getElem_mem hsorted)
    have hpid : ps[i].id = (BotService.sortFIFO P (txs.filter isOpenPurchase))[i].id := by
      have hget := List.getElem_of_eq hids (i := i) (by simpa using hi)
      simpa using hget
    have htid : t.id = ps[i].id := by rw [← htu]; exact (hid t).symm
    rw [← hsame ht (hstored hp) (htid.trans hpid)]
    exact htu.symm

end Run

/-! ## The listing after a run -/

section After

variable {P : Platform} {b b' : Book} {a a' : Account} {day day' : Date}
  {ps created : List Transaction} {u : Transaction → Transaction}

theorem Leaves.sameIdentity {store txs : List Transaction} (h : Leaves P store txs ps u) :
    ∀ t ∈ store, SameIdentity t (u t) :=
  fun t ht => sameIdentity_of_trace (h.trace t ht)

/-- The open transactions of a kind after a run are among those that were listed before: what it
    has created is checked. -/
theorem filter_listTransactions_after (kind : Transaction → Bool)
    (hrows : b'.transactions = b.transactions.map u ++ created)
    (hcreated : ∀ t ∈ created, t.checked = true) (hname : a'.name = a.name)
    (hsame : ∀ t ∈ b.transactions, SameIdentity t (u t))
    (hkind : ∀ t, kind t = true → t.checked = false) :
    (listTransactions b' a' day').filter kind =
      ((listTransactions b a day').map u).filter kind := by
  have hsplits : ∀ p : Transaction → Bool, (created.filter p).filter kind = [] := by
    intro p
    refine List.filter_eq_nil_iff.2 fun t ht hk => ?_
    have hchecked := hcreated t (List.mem_of_mem_filter ht)
    rw [hkind t hk] at hchecked
    cases hchecked
  unfold listTransactions Book.getTransactions
  rw [hrows, List.filter_append, List.filter_append, hsplits, List.append_nil, hname,
    List.filter_map]
  refine congrArg (fun l => (List.map u l).filter kind) (List.filter_congr fun t ht => ?_)
  have hsame := hsame t ht
  simp only [Function.comp_apply, helper.getAccountQuery, Query.selects, hsame.moves, hsame.date]

theorem checked_of_open {kind : Transaction → Bool} {t : Transaction}
    (h : (!t.checked && kind t) = true) : t.checked = false := by
  simp only [Bool.and_eq_true, Bool.not_eq_true'] at h
  exact h.1

/-- A transaction that a run has not listed as an open sale or purchase is as it was. -/
theorem Leaves.same_of_late (h : Leaves P b.transactions (listTransactions b a day) ps u)
    {t : Transaction} (ht : t ∈ b.transactions)
    (hlate : ¬t.date < BotService.getBeforeDateIsoString day) : u t = t := by
  have hunlisted : ∀ kind : Transaction → Bool, t ∉ (listTransactions b a day).filter kind :=
    fun kind hmem => hlate (mem_listTransactions.1 (List.mem_of_mem_filter hmem)).2.2
  exact h.others t ht (hunlisted _) (hunlisted _)

/-- The open sales after a run up to `day` are those that are dated later. -/
theorem openSales_after (h : Leaves P b.transactions (listTransactions b a day) ps u)
    (hrows : b'.transactions = b.transactions.map u ++ created)
    (hcreated : ∀ t ∈ created, t.checked = true) (hname : a'.name = a.name) :
    (listTransactions b' a' day').filter isOpenSale =
      ((listTransactions b a day').filter isOpenSale).filter fun t =>
        !decide (t.date < BotService.getBeforeDateIsoString day) := by
  rw [filter_listTransactions_after isOpenSale hrows hcreated hname h.sameIdentity
      fun t ht => checked_of_open ht, List.filter_map, List.filter_filter]
  have hkept : ∀ t ∈ listTransactions b a day', (isOpenSale ∘ u) t =
      (!decide (t.date < BotService.getBeforeDateIsoString day) && isOpenSale t) := by
    intro t ht
    obtain ⟨hstored, hmoves, -⟩ := mem_listTransactions.1 ht
    rw [Function.comp_apply]
    by_cases hdate : t.date < BotService.getBeforeDateIsoString day
    · -- an early sale is checked, and nothing else becomes an open sale
      cases hopen : isOpenSale t with
      | true =>
        have hsold := h.sold t (List.mem_filter.2
          ⟨mem_listTransactions.2 ⟨hstored, hmoves, hdate⟩, hopen⟩)
        simp [isOpenSale, hsold, hdate]
      | false =>
        have hstill : isOpenSale (u t) = false := by
          cases hchecked : t.checked with
          | true => rwa [eq_of_trace_of_checked (h.trace t hstored) hchecked]
          | false =>
            have hkind : BotService.isSale t = false := by simpa [isOpenSale, hchecked] using hopen
            rw [isOpenSale, (h.sameIdentity t hstored).isSale, hkind, Bool.and_false]
        simp [hstill]
    · simp [h.same_of_late hstored hdate, hdate]
  rw [List.filter_congr hkept]
  conv_rhs => rw [← List.map_id (List.filter _ _)]
  refine List.map_congr_left fun t ht => ?_
  obtain ⟨ht, hlate⟩ := List.mem_filter.1 ht
  simp only [Bool.and_eq_true, Bool.not_eq_true', decide_eq_false_iff_not] at hlate
  exact h.same_of_late (mem_listTransactions.1 ht).1 hlate.1

/-- The open purchases after a run are the rewritten ones that are not used up. -/
theorem openPurchases_after (h : Leaves P b.transactions (listTransactions b a day) ps u)
    (hrows : b'.transactions = b.transactions.map u ++ created)
    (hcreated : ∀ t ∈ created, t.checked = true) (hname : a'.name = a.name) :
    (listTransactions b' a' day').filter isOpenPurchase =
      (((listTransactions b a day').filter isOpenPurchase).map u).filter fun t => !t.checked := by
  rw [filter_listTransactions_after isOpenPurchase hrows hcreated hname h.sameIdentity
      fun t ht => checked_of_open ht, List.filter_map, List.filter_map, List.filter_filter]
  refine congrArg (List.map u) (List.filter_congr fun t ht => ?_)
  have hstored := (mem_listTransactions.1 ht).1
  simp only [Function.comp_apply]
  cases hchecked : t.checked with
  | true =>
    rw [eq_of_trace_of_checked (h.trace t hstored) hchecked]
    simp [isOpenPurchase, hchecked]
  | false =>
    simp [isOpenPurchase, (h.sameIdentity t hstored).isPurchase, hchecked]

/-- A run does not open credit notes. -/
theorem openCreditNotes_after (h : Leaves P b.transactions (listTransactions b a day) ps u)
    (hrows : b'.transactions = b.transactions.map u ++ created)
    (hcreated : ∀ t ∈ created, t.checked = true) (hname : a'.name = a.name)
    (hside : ∀ t ∈ b.transactions, t.moves a.name → OneSided t)
    (hnotes : (listTransactions b a day').filter isOpenCreditNote = []) :
    (listTransactions b' a' day').filter isOpenCreditNote = [] := by
  rw [filter_listTransactions_after isOpenCreditNote hrows hcreated hname h.sameIdentity
      fun t ht => checked_of_open ht]
  refine List.filter_eq_nil_iff.2 fun t' ht' hopen => ?_
  obtain ⟨t, ht, rfl⟩ := List.mem_map.1 ht'
  obtain ⟨hstored, hmoves, -⟩ := mem_listTransactions.1 ht
  have hsame := h.sameIdentity t hstored
  have hnote : BotService.isCreditNote (u t) := by
    simp only [isOpenCreditNote, Bool.and_eq_true] at hopen
    exact hopen.2
  by_cases hsale : t ∈ (listTransactions b a day).filter isOpenSale
  · have hkind := List.of_mem_filter hsale
    simp only [isOpenSale, Bool.and_eq_true] at hkind
    exact not_creditNote_of_sale (hsame.isSale ▸ hkind.2) hnote
  · by_cases hpurchase : t ∈ (listTransactions b a day).filter isOpenPurchase
    · have hkind := List.of_mem_filter hpurchase
      simp only [isOpenPurchase, Bool.and_eq_true] at hkind
      exact ((hside t hstored hmoves).congr hsame).not_creditNote (hsame.isPurchase ▸ hkind.2) hnote
    · rw [h.others t hstored hsale hpurchase] at hopen
      exact List.filter_eq_nil_iff.1 hnotes t ht hopen

/-- What is sorted up to a date comes first in what is sorted up to a later date. -/
theorem sortedUntil_eq_append {kind : Transaction → Bool} (hle : day ≤ day')
    (h : ∀ t ∈ (listTransactions b a day').filter kind, Sortable P t) :
    sortedUntil P b a day' kind =
      sortedUntil P b a day kind ++ sortedBetween P b a day day' kind := by
  unfold sortedUntil sortedBetween
  rw [listTransactions_until b a hle, List.filter_comm]
  exact sortFIFO_until h _

/-- The sorted open purchases after a run are those that its loop has handed on, before those that
    it did not list. -/
theorem sortedUntil_openPurchases_after (hle : day ≤ day')
    (hplain : PlainListing P (listTransactions b a day'))
    (h : Leaves P b.transactions (listTransactions b a day) ps u)
    (hrows : b'.transactions = b.transactions.map u ++ created)
    (hcreated : ∀ t ∈ created, t.checked = true) (hname : a'.name = a.name) :
    sortedUntil P b' a' day' isOpenPurchase =
      (ps ++ sortedBetween P b a day day' isOpenPurchase).filter fun t => !t.checked := by
  have hstored : ∀ t ∈ (listTransactions b a day').filter isOpenPurchase, t ∈ b.transactions :=
    fun t ht => mem_filter_listTransactions ht
  have hsorted : ∀ t ∈ ((listTransactions b a day').filter isOpenPurchase).map u,
      Sortable P t := by
    intro t' ht'
    obtain ⟨t, ht, rfl⟩ := List.mem_map.1 ht'
    exact sortable_of_trace (h.trace t (hstored t ht)) (hplain.sortable_purchases t ht)
  have hlate : (sortedBetween P b a day day' isOpenPurchase).map u =
      sortedBetween P b a day day' isOpenPurchase := by
    conv_rhs => rw [← List.map_id (sortedBetween P b a day day' isOpenPurchase)]
    refine List.map_congr_left fun t ht => ?_
    obtain ⟨ht, hdate⟩ := List.mem_filter.1 ((sortFIFO_perm _).mem_iff.1 ht)
    exact h.same_of_late (hstored t ht) (by simpa using hdate)
  have hrewritten : BotService.sortFIFO P (((listTransactions b a day').filter
      isOpenPurchase).map u) = (sortedUntil P b a day' isOpenPurchase).map u := by
    refine sortFIFO_map hplain.sortable_purchases u fun t ht => ?_
    obtain ⟨horder, hcreatedAt⟩ := order_of_trace (h.trace t (hstored t ht))
    exact ⟨(h.sameIdentity t (hstored t ht)).date, horder, hcreatedAt⟩
  rw [sortedUntil, openPurchases_after h hrows hcreated hname, ← sortFIFO_filter hsorted,
    hrewritten, sortedUntil_eq_append hle hplain.sortable_purchases, List.map_append, hlate,
    h.purchases]
  rfl

/-- What open transactions amount to is what they have to offer. -/
theorem amounts_filter_open (l : List Transaction) :
    amounts (l.filter fun t => !t.checked) = (l.map lot).sum := by
  induction l with
  | nil => rfl
  | cons t l ih =>
    rw [List.map_cons, List.sum_cons]
    cases hchecked : t.checked with
    | true =>
      rw [List.filter_cons_of_neg (by simp [hchecked]), ih, lot_of_checked hchecked, zero_add]
    | false =>
      rw [List.filter_cons_of_pos (by simp [hchecked]), amounts_cons, ih, lot_of_unchecked hchecked]

end After

/-! ## The second run -/

section SecondRun

variable {P : Platform} {env : RunEnv} {fb ib : Book}

/-- A loop over sales that runs to its end has queued nothing that is locked. -/
theorem processSales_unlocked :
    ∀ {sales ps ps' : List Transaction} {processor processor' : CalculateCostOfSalesProcessor},
      processSales P env fb ib sales ps processor = .ok (some (ps', processor')) →
      processor.isAnyTransactionLocked = false → processor'.isAnyTransactionLocked = false := by
  intro sales
  induction sales with
  | nil =>
    intro ps ps' processor processor' h hunlocked
    cases h
    exact hunlocked
  | cons sale sales ih =>
    intro ps ps' processor processor' h _
    obtain ⟨qs, processor₁, -, hunlocked, h⟩ := processSales_cons.1 h
    exact ih h hunlocked

/-- A loop over the sales up to a later date goes on with what the loop up to an earlier date
    leaves, and has queued the same until then. -/
theorem processSales_split {env₁ : RunEnv} {numbers : List String}
    {earlier later early late ps qs : List Transaction}
    {processor processor₁ : CalculateCostOfSalesProcessor}
    (hfresh : Book.FreshIds env.uuid numbers) (hfresh₁ : Book.FreshIds env₁.uuid numbers)
    (hcogs : env₁.cogsAccountId = env.cogsAccountId)
    (h : processSales P env fb ib (earlier ++ later) (early ++ late) {} =
      .ok (some (qs, processor)))
    (h₁ : processSales P env₁ fb ib earlier early {} = .ok (some (ps, processor₁)))
    (hsales : ∀ t ∈ earlier, 0 < t.amount) (hps : ∀ p ∈ early, Stocked p)
    (hcovered : amounts earlier ≤ (early.map lot).sum) :
    ∃ first, SameQueues env₁ env numbers processor₁ first ∧
      processSales P env fb ib earlier early {} = .ok (some (ps, first)) ∧
      (ps.map lot).sum = (early.map lot).sum - amounts earlier ∧
      processSales P env fb ib later (ps ++ late) first = .ok (some (qs, processor)) := by
  have hagree : Agree _ (processSales P env₁ fb ib earlier early {})
      (processSales P env fb ib earlier early {}) :=
    processSales_agree hfresh₁ hfresh hcogs.symm earlier early (sameQueues_start env₁ env numbers)
  rw [h₁] at hagree
  obtain ⟨result, hfirst, hrel⟩ := hagree.of_ok
  cases hrel with
  | some hsame =>
    rename_i r
    obtain ⟨hps', hqueues⟩ := hsame
    obtain ⟨ps', first⟩ := r
    obtain rfl : ps' = ps := hps'
    obtain ⟨hextended, -, hlots⟩ := processSales_extend late hfirst hsales hps hcovered
    obtain ⟨_, _, hearlier, hlater⟩ := processSales_append.1 h
    rw [hextended] at hearlier
    cases hearlier
    exact ⟨first, hqueues, hfirst, hlots, hlater⟩

variable {collection : Option (List BookInfo)} {s : State} {goodAccountId : String}
  {goodAccount : Account} {day day' : Date} {sales : List Transaction}
  {processor : CalculateCostOfSalesProcessor}

/-- A run that passed the quantity guard on a plain listing has enough for its sales. -/
theorem PlainListing.covered (hP : P.Exact)
    (hplain : PlainListing P (listTransactions s.inventoryBook goodAccount day))
    (hpassed : Passed P s goodAccountId day goodAccount) :
    Covered (listTransactions s.inventoryBook goodAccount day) := by
  obtain ⟨hsold, hbought⟩ := collect_totals (listTransactions s.inventoryBook goodAccount day) hP
  have hguard := hpassed.covered
  rw [hsold, hbought] at hguard
  refine covered_of_guard hplain.codes (fun t ht hnote => ?_) hguard
  exact (hplain.positive t ht (Or.inr (Or.inr hnote))).le

/-- Sorted, its purchases cover its sales. -/
theorem PlainListing.enough (hP : P.Exact)
    (hplain : PlainListing P (listTransactions s.inventoryBook goodAccount day))
    (hpassed : Passed P s goodAccountId day goodAccount) :
    (∀ t ∈ sortedUntil P s.inventoryBook goodAccount day isOpenSale, 0 < t.amount) ∧
      (∀ p ∈ sortedUntil P s.inventoryBook goodAccount day isOpenPurchase, Stocked p) ∧
      amounts (sortedUntil P s.inventoryBook goodAccount day isOpenSale) ≤
        ((sortedUntil P s.inventoryBook goodAccount day isOpenPurchase).map lot).sum := by
  obtain ⟨hsold, hbought⟩ := collect_totals (listTransactions s.inventoryBook goodAccount day) hP
  have hguard := hpassed.covered
  rw [hsold, hbought, hplain.notes] at hguard
  have hsales : (sortedUntil P s.inventoryBook goodAccount day isOpenSale).Perm _ :=
    sortFIFO_perm _
  have hpurchases : (sortedUntil P s.inventoryBook goodAccount day isOpenPurchase).Perm _ :=
    sortFIFO_perm _
  refine ⟨fun t ht => ?_, fun p hp _ => ?_, ?_⟩
  · have ht := hsales.mem_iff.1 ht
    exact hplain.positive t (List.mem_of_mem_filter ht) (Or.inl (List.of_mem_filter ht))
  · have hp := hpurchases.mem_iff.1 hp
    exact hplain.positive p (List.mem_of_mem_filter hp) (Or.inr (Or.inl (List.of_mem_filter hp)))
  · have hopen : ∀ p ∈ sortedUntil P s.inventoryBook goodAccount day isOpenPurchase,
        p.checked = false := by
      intro p hp
      have hkind : isOpenPurchase p = true := List.of_mem_filter (hpurchases.mem_iff.1 hp)
      exact checked_of_open hkind
    rw [lots_of_unchecked hopen, amounts_perm hsales, amounts_perm hpurchases]
    simpa [amounts] using hguard

/-- The books after a run up to `day` over a plain listing, which has read `fb`: `u` takes the stored
    transactions to what they are then, and `ps` are the purchases that the loop has handed on. -/
structure AfterRun (P : Platform) (s s₁ : State) (goodAccountId : String) (goodAccount : Account)
    (day : Date) (fb : Book) (ps : List Transaction) (u : Transaction → Transaction) : Prop where
  leaves : Leaves P s.inventoryBook.transactions
    (listTransactions s.inventoryBook goodAccount day) ps u
  rows : ∃ created, s₁.inventoryBook.transactions = s.inventoryBook.transactions.map u ++ created ∧
    ∀ t ∈ created, t.checked = true
  info : s₁.inventoryBook.info = s.inventoryBook.info
  account : ∃ a, s₁.inventoryBook.getAccount goodAccountId = some a ∧ SameAccount goodAccount a ∧
    GoodAccount.needsRebuild a = false
  found : fb.getAccount cogsAccount ≠ none
  financialAccounts : s₁.financialBook.accounts = fb.accounts
  linked : ∀ p, getAdditionalCostsAndCreditNotes P s₁.financialBook p =
    getAdditionalCostsAndCreditNotes P fb p

/-- What a run over a plain listing leaves of the books. -/
theorem afterRun (hP : P.Exact) (hwf : WellFormed s.inventoryBook) (hfresh : env.Fresh s)
    (hplain : PlainListing P (listTransactions s.inventoryBook goodAccount day))
    (hplan : planCalculation P collection env s goodAccountId (some day) =
      .ok (.fire goodAccount sales processor)) :
    Book.KeyedById processor.inventoryBookTransactionsToUpdateMap ∧
      ∃ ps, processSales P env (costOfSalesBook env s) s.inventoryBook
          (sortedUntil P s.inventoryBook goodAccount day isOpenSale)
          (sortedUntil P s.inventoryBook goodAccount day isOpenPurchase) {} =
            .ok (some (ps, processor)) ∧
        AfterRun P s
          (calculateCostOfSalesForAccount P collection env s goodAccountId (some day)).1
          goodAccountId goodAccount day (costOfSalesBook env s) ps
          (Book.updated processor.inventoryBookTransactionsToUpdateMap.values) := by
  obtain ⟨hpassed, hlisting⟩ := planCalculation_fire hplan
  rw [Option.getD_some] at hpassed hlisting
  have hkind : ∀ t ∈ s.inventoryBook.transactions, t.moves goodAccount.name → OneKind t :=
    fun t ht hm => hwf.oneKind hpassed.account hpassed.notIncoming hpassed.notOutgoing ht hm
  obtain ⟨hkeyed, ps, hsales, hleaves⟩ := leaves_of_run hP hwf hkind hfresh.uuids hplain
    (hplain.covered hP hpassed) hlisting
  obtain ⟨d, hfires⟩ := calculation_fires (fun _ => True) hwf hfresh hplan
    fun _ _ _ => Or.inl fun _ => trivial
  obtain ⟨hinventory, hfinancial⟩ := fired_books hwf hfresh hplan
  obtain ⟨-, rfl, -⟩ := (planListing_plain hplain.notes hplain.codes).1 hlisting
  refine ⟨hkeyed, ps, hsales, hleaves, ⟨_, hinventory, fired_created hwf hfresh hplan⟩, hfires.info,
    hfires.account, getAccount_createCostOfSalesAccount env s.financialBook,
    hfires.financialAccounts, fun p => ?_⟩
  refine getAdditionalCostsAndCreditNotes_append hfires.financialAccounts hfinancial ?_ p
  intro t ht
  obtain ⟨k, v, hv, rfl⟩ := Book.mem_postAll ht
  rcases processSales_costs hsales v hv with hv | ⟨sale, -, cost, rfl⟩
  · cases hv
  · exact ⟨rfl, rfl⟩

/-- Between two runs the inventory book stays as it is, and of the financial book the accounts and
    the linked costs, as a run reads them, do. -/
structure Meanwhile (P : Platform) (s₁ t : State) : Prop where
  inventoryBook : t.inventoryBook = s₁.inventoryBook
  financialAccounts : t.financialBook.accounts = s₁.financialBook.accounts
  linked : ∀ env p, getAdditionalCostsAndCreditNotes P (costOfSalesBook env t) p =
    getAdditionalCostsAndCreditNotes P (costOfSalesBook env s₁) p

/-- A later run finds the account of the cost of goods sold. -/
theorem AfterRun.book {s₁ : State} {fb : Book} {ps : List Transaction}
    {u : Transaction → Transaction} (h : AfterRun P s s₁ goodAccountId goodAccount day fb ps u)
    (env : RunEnv) : costOfSalesBook env s₁ = s₁.financialBook := by
  refine createCostOfSalesAccount_of_found ?_
  unfold Book.getAccount
  rw [h.financialAccounts]
  exact h.found

theorem AfterRun.meanwhile (env : RunEnv) {s₁ t : State} {fb : Book} {ps : List Transaction}
    {u : Transaction → Transaction} (h : AfterRun P s s₁ goodAccountId goodAccount day fb ps u)
    (ht : Meanwhile P s₁ t) : AfterRun P s t goodAccountId goodAccount day fb ps u := by
  have haccounts := ht.financialAccounts.trans h.financialAccounts
  have hbook : ∀ env, costOfSalesBook env t = t.financialBook := by
    intro env
    refine createCostOfSalesAccount_of_found ?_
    unfold Book.getAccount
    rw [haccounts]
    exact h.found
  exact
    { leaves := h.leaves
      rows := ht.inventoryBook ▸ h.rows
      info := ht.inventoryBook ▸ h.info
      account := ht.inventoryBook ▸ h.account
      found := h.found
      financialAccounts := haccounts
      linked := fun p => by
        have hlinked := ht.linked env p
        rw [hbook, h.book] at hlinked
        exact hlinked.trans (h.linked p) }

/-- What happens meanwhile does not change the plan of a run that fires. -/
theorem Meanwhile.plan {s₁ t : State} (ht : Meanwhile P s₁ t) {toDate : Option Date}
    (h : planCalculation P collection env s₁ goodAccountId toDate =
      .ok (.fire goodAccount sales processor)) :
    planCalculation P collection env t goodAccountId toDate =
      .ok (.fire goodAccount sales processor) := by
  obtain ⟨hpassed, hlisting⟩ := planCalculation_fire h
  have hpassed' : Passed P t goodAccountId (toDate.getD env.today) goodAccount :=
    ⟨ht.inventoryBook ▸ hpassed.account, hpassed.notIncoming, hpassed.notOutgoing, hpassed.current,
      ht.inventoryBook ▸ hpassed.selling, ht.inventoryBook ▸ hpassed.covered⟩
  rw [planCalculation_passed (openAccount_of_resolves hpassed'.account
    (planCalculation_resolves h)) hpassed', ht.inventoryBook]
  unfold planListing at hlisting ⊢
  have haccounts : (costOfSalesBook env t).accounts = (costOfSalesBook env s₁).accounts :=
    createCostOfSalesAccount_accounts rfl ht.financialAccounts
  simpa only [processSales_financialBook haccounts (ht.linked env)] using hlisting

/-- The next run lists the sales that are left, and its loop is offered the purchases that are
    left. -/
theorem AfterRun.plan {s₁ : State} {fb : Book} {ps qs : List Transaction}
    {u : Transaction → Transaction} (hP : P.Exact) (hwf : WellFormed s.inventoryBook) (hle : day ≤ day')
    (h : AfterRun P s s₁ goodAccountId goodAccount day fb ps u)
    (hpassed : Passed P s goodAccountId day' goodAccount)
    (hresolves : resolves collection goodAccount = true)
    (hplain : PlainListing P (listTransactions s.inventoryBook goodAccount day'))
    (hselling : sortedBetween P s.inventoryBook goodAccount day day' isOpenSale ≠ [])
    (hcovered : amounts (sortedBetween P s.inventoryBook goodAccount day day' isOpenSale) ≤
      ((ps ++ sortedBetween P s.inventoryBook goodAccount day day' isOpenPurchase).map lot).sum)
    (hsales : processSales P env (costOfSalesBook env s₁) s₁.inventoryBook
      (sortedBetween P s.inventoryBook goodAccount day day' isOpenSale)
      ((ps ++ sortedBetween P s.inventoryBook goodAccount day day' isOpenPurchase).filter
        fun t => !t.checked) {} = .ok (some (qs, processor))) :
    ∃ a, planCalculation P collection env s₁ goodAccountId (some day') =
      .ok (.fire a (sortedBetween P s.inventoryBook goodAccount day day' isOpenSale)
        processor) := by
  obtain ⟨a, ha, hsame, hcalm⟩ := h.account
  obtain ⟨created, hrows, hcreated⟩ := h.rows
  have hopenSales : (listTransactions s₁.inventoryBook a day').filter isOpenSale = _ :=
    openSales_after h.leaves hrows hcreated hsame.name
  have hopenPurchases : (listTransactions s₁.inventoryBook a day').filter isOpenPurchase = _ :=
    openPurchases_after h.leaves hrows hcreated hsame.name
  have hnotes := openCreditNotes_after h.leaves hrows hcreated hsame.name
    (fun t ht hm => hwf.oneSided hpassed.account hpassed.notIncoming hpassed.notOutgoing ht hm)
    hplain.notes
  have hsorted := sortedUntil_openPurchases_after hle hplain h.leaves hrows hcreated hsame.name
  have hcodes : (((listTransactions s₁.inventoryBook a day').filter isOpenPurchase).map
      Transaction.purchaseCode).Nodup := by
    have hkept : (((listTransactions s.inventoryBook goodAccount day').filter isOpenPurchase).map
        u).map Transaction.purchaseCode = ((listTransactions s.inventoryBook goodAccount
          day').filter isOpenPurchase).map Transaction.purchaseCode := by
      rw [List.map_map]
      exact List.map_congr_left fun t ht =>
        (h.leaves.sameIdentity t (mem_filter_listTransactions ht)).purchaseCode
    rw [hopenPurchases]
    exact (hkept ▸ hplain.codes).sublist (List.filter_sublist.map _)
  have hpassed₁ : Passed P s₁ goodAccountId day' a := by
    obtain ⟨hsold, hbought⟩ := collect_totals (listTransactions s₁.inventoryBook a day') hP
    have hamounts : amounts ((listTransactions s₁.inventoryBook a day').filter isOpenSale) =
        amounts (sortedBetween P s.inventoryBook goodAccount day day' isOpenSale) := by
      rw [hopenSales]
      exact (amounts_perm (sortFIFO_perm _)).symm
    have hoffered : amounts ((listTransactions s₁.inventoryBook a day').filter isOpenPurchase) =
        ((ps ++ sortedBetween P s.inventoryBook goodAccount day day' isOpenPurchase).map
          lot).sum := by
      rw [← amounts_filter_open, ← hsorted]
      exact (amounts_perm (sortFIFO_perm _)).symm
    refine ⟨ha, hsame.type ▸ hpassed.notIncoming, hsame.type ▸ hpassed.notOutgoing, hcalm, ?_, ?_⟩
    · rw [hsold, hamounts]
      refine (List.sum_pos _ ?_ (by simpa using hselling)).ne'
      intro q hq
      obtain ⟨t, ht, rfl⟩ := List.mem_map.1 hq
      have ht := List.mem_of_mem_filter ((sortFIFO_perm _).mem_iff.1 ht)
      exact hplain.positive t (List.mem_of_mem_filter ht) (Or.inl (List.of_mem_filter ht))
    · rw [hsold, hbought, hamounts, hoffered, hnotes]
      simpa [amounts] using hcovered
  have hopen := openAccount_of_resolves ha ((hsame.resolves collection).trans hresolves)
  refine ⟨a, ?_⟩
  rw [planCalculation_passed hopen hpassed₁]
  refine (planListing_plain hnotes hcodes).2 ⟨rfl, ?_, qs, ?_⟩
  · rw [hopenSales]
    rfl
  · rw [← hsorted] at hsales
    exact hsales

/-- **The second run.** After a run up to `day`, a run up to `day'` queues over it what the run up
    to `day'` would have queued at once. -/
theorem second_run {env₁ env₂ : RunEnv} {s₁ t : State} {sales₁ : List Transaction}
    {processor₁ : CalculateCostOfSalesProcessor} (hP : P.Exact) (hwf : WellFormed s.inventoryBook)
    (hfresh : env.Fresh s) (hfresh₁ : env₁.Fresh s)
    (hfresh₂ : Book.FreshIds env₂.uuid (creditNoteNumbers t.inventoryBook))
    (hcogs₁ : env₁.cogsAccountId = env.cogsAccountId)
    (hcogs₂ : env₂.cogsAccountId = env.cogsAccountId) (hle : day ≤ day')
    (hplain : PlainListing P (listTransactions s.inventoryBook goodAccount day'))
    (hplan : planCalculation P collection env s goodAccountId (some day') =
      .ok (.fire goodAccount sales processor))
    (hplan₁ : planCalculation P collection env₁ s goodAccountId (some day) =
      .ok (.fire goodAccount sales₁ processor₁))
    (hs₁ : (calculateCostOfSalesForAccount P collection env₁ s goodAccountId (some day)).1 = s₁)
    (ht : Meanwhile P s₁ t) :
    ∃ later first processor₂, sales = sales₁ ++ later ∧
      SameQueues env₁ env (creditNoteNumbers s.inventoryBook) processor₁ first ∧
      Continues env env₂ (creditNoteNumbers s.inventoryBook) (creditNoteNumbers t.inventoryBook)
        first processor processor₂ ∧
      (∀ k ∈ processor₂.financialBookTransactionsToCreateMap.keys,
        k ∉ first.financialBookTransactionsToCreateMap.keys) ∧
      ((later = [] ∧ processor₂ = {} ∧ (calculateCostOfSalesForAccount P collection env₂ t
          goodAccountId (some day')).1 = t) ∨
        ∃ a, planCalculation P collection env₂ t goodAccountId (some day') =
          .ok (.fire a later processor₂)) := by
  obtain ⟨hpassed, hlisting⟩ := planCalculation_fire hplan
  obtain ⟨hpassed₁, hlisting₁⟩ := planCalculation_fire hplan₁
  rw [Option.getD_some] at hpassed hlisting hpassed₁ hlisting₁
  have hplain₁ : PlainListing P (listTransactions s.inventoryBook goodAccount day) := by
    rw [listTransactions_until _ _ hle]
    exact hplain.filter _
  obtain ⟨-, rfl, qs, hrun⟩ := (planListing_plain hplain.notes hplain.codes).1 hlisting
  obtain ⟨-, rfl, -⟩ := (planListing_plain hplain₁.notes hplain₁.codes).1 hlisting₁
  obtain ⟨-, ps, hrun₁, hafter⟩ := afterRun hP hwf hfresh₁ hplain₁ hplan₁
  have hbook : costOfSalesBook env₁ s = costOfSalesBook env s :=
    createCostOfSalesAccount_congr hcogs₁ s.financialBook
  rw [hs₁, hbook] at hafter
  rw [hbook] at hrun₁
  have hafter := hafter.meanwhile env₂ ht
  have hsales := sortedUntil_eq_append hle hplain.sortable_sales
  have hpurchases := sortedUntil_eq_append hle hplain.sortable_purchases
  obtain ⟨hpos, hstocked, henough⟩ := hplain₁.enough hP hpassed₁
  obtain ⟨-, -, henough'⟩ := hplain.enough hP hpassed
  have hrun : processSales P env (costOfSalesBook env s) s.inventoryBook
      (sortedUntil P s.inventoryBook goodAccount day' isOpenSale)
      (sortedUntil P s.inventoryBook goodAccount day' isOpenPurchase) {} =
        .ok (some (qs, processor)) := hrun
  rw [hsales, hpurchases] at hrun henough'
  obtain ⟨first, hqueues, hfirst, hlots, hlater⟩ := processSales_split hfresh.uuids hfresh₁.uuids
    hcogs₁ hrun hrun₁ hpos hstocked henough
  have hunlocked := processSales_unlocked hfirst rfl
  by_cases hnone : sortedBetween P s.inventoryBook goodAccount day day' isOpenSale = []
  · -- nothing is left to be sold
    rw [hnone] at hlater
    cases hlater
    refine ⟨[], _, {}, ?_, hqueues, continues_start hqueues.named' hunlocked, ?_,
      Or.inl ⟨rfl, rfl, ?_⟩⟩
    · exact hsales.trans (congrArg _ hnone)
    · exact fun k hk => absurd hk List.not_mem_nil
    · refine rerun_writes_nothing fun a ha => ?_
      obtain ⟨a', ha', hsame, hcalm⟩ := hafter.account
      obtain rfl : a' = a := Option.some.inj (ha'.symm.trans ha)
      obtain ⟨created, hrows, hcreated⟩ := hafter.rows
      refine ⟨hcalm, ?_⟩
      rw [Option.getD_some, openSales_after hafter.leaves hrows hcreated hsame.name]
      exact List.Perm.nil_eq ((hnone ▸ sortFIFO_perm _ : List.Perm [] _)) |>.symm
  · obtain ⟨qs', processor₂, hsecond, hcontinues⟩ := processSales_continued
      hfresh.uuids hfresh₂ hcogs₂ hafter.info hafter.financialAccounts hafter.linked
      hqueues.named' hunlocked hlater
    have hcovered : amounts (sortedBetween P s.inventoryBook goodAccount day day' isOpenSale) ≤
        ((ps ++ sortedBetween P s.inventoryBook goodAccount day day' isOpenPurchase).map
          lot).sum := by
      rw [amounts, List.map_append, List.sum_append, List.map_append, List.sum_append] at henough'
      rw [List.map_append, List.sum_append, hlots]
      unfold amounts at *
      linarith
    rw [← hafter.book env₂] at hsecond
    obtain ⟨a, hplan₂⟩ := hafter.plan hP hwf hle hpassed (planCalculation_resolves hplan) hplain
      hnone hcovered hsecond
    refine ⟨_, first, processor₂, hsales, hqueues, hcontinues, ?_, Or.inr ⟨a, hplan₂⟩⟩
    -- each sale is posted in one of the runs
    have hnodup := nodup_sortedUntil P hwf.ids goodAccount day' isOpenSale
    rw [hsales, List.map_append] at hnodup
    have hposted := processSales_posted hfirst
    have hposted₂ := processSales_posted hsecond
    simp only [OrderedMap.keys_empty, List.not_mem_nil, false_or] at hposted hposted₂
    intro k hk hk'
    exact (List.nodup_append.1 hnodup).2.2 k ((hposted k).1 hk') k ((hposted₂ k).1 hk) rfl

end SecondRun

end InventoryBot.Menu
