import InventoryBot.Menu.CreditNotes
import InventoryBot.Menu.Served

/-!
# When a calculation is processed to the end

A run that passed the quantity guard, and that neither a credit note nor a locked transaction
stops, fires its batches or ends with an error.

* `processCreditNotes_returns_iff`, `processCreditNotes_values`: when the loop over the credit
  notes returns, and what it leaves of each purchase.
* `planListing_fires_iff`: the listings of which nothing is missing that a run reads.
-/

namespace InventoryBot.Menu

open Lib CostOfSalesService

/-- A purchase after some credit notes have been applied to it. -/
def lessNotes (notes : List Transaction) (p : Transaction) : Transaction :=
  { p with amount := p.amount - returned p.purchaseCode notes }

/-- The purchases that the sales of a listing take from: those that the map keeps, less the credit
    notes applied to them, first in, first out. -/
def offeredPurchases (P : Platform) (txs : List Transaction) : List Transaction :=
  BotService.sortFIFO P ((OrderedMap.ofList Transaction.purchaseCode
    (txs.filter isOpenPurchase)).values.map (lessNotes (keptCreditNotes txs)))

/-- Nothing that a run reads of a listing is missing. -/
structure Processable (P : Platform) (fb : Book) (txs : List Transaction) : Prop where
  /-- a credit note of a purchase without a code has none to split it by -/
  notesCoded : ∀ note ∈ matchedCreditNotes txs, note.purchaseCode ≠ none
  served : Served P fb (BotService.sortFIFO P (txs.filter isOpenSale)) (offeredPurchases P txs)

section Returns

variable {P : Platform} {env : RunEnv} {fb ib : Book}

/-- The loop over the credit notes, where it is not stopped, gets to the end exactly if every
    credit note of a purchase has a purchase code. -/
theorem processCreditNotes_returns_iff :
    ∀ {notes : List (Option String × Transaction)}
      {purchases : OrderedMap (Option String) Transaction}
      {processor : CalculateCostOfSalesProcessor},
      (∀ number, processCreditNotes P notes purchases processor ≠ .ok (.stop number)) →
      ((∃ purchases' processor', processCreditNotes P notes purchases processor =
          .ok (.done purchases' processor')) ↔
        ∀ e ∈ notes, e.2.purchaseCode ∈ purchases.keys → e.2.purchaseCode ≠ none) := by
  intro notes
  induction notes with
  | nil => exact fun _ => iff_of_true ⟨_, _, rfl⟩ (by simp)
  | cons e notes ih =>
    obtain ⟨number, note⟩ := e
    intro purchases processor hstop
    rw [List.forall_mem_cons]
    rw [processCreditNotes] at hstop ⊢
    cases hp : purchases.get note.purchaseCode with
    | none =>
      rw [hp] at hstop
      rw [ih hstop]
      exact (and_iff_right fun hkey => absurd hkey (OrderedMap.get_eq_none.1 hp)).symm
    | some p =>
      rw [hp] at hstop
      dsimp only at hstop ⊢
      have hkey : note.purchaseCode ∈ purchases.keys := OrderedMap.mem_keys_of_get hp
      split at hstop
      · exact absurd rfl (hstop _)
      · rename_i hleft
        rw [if_neg hleft]
        cases hcode : note.purchaseCode with
        | none =>
          rw [hcode] at hkey
          exact iff_of_false (by rintro ⟨_, _, h⟩; cases h) fun h => h.1 hkey rfl
        | some code =>
          rw [hcode] at hp hstop
          have hkeys : ∀ (q : Transaction) k, k ∈ (purchases.set (some code) q).keys ↔
              k ∈ purchases.keys := by
            intro q k
            rw [OrderedMap.mem_keys_set]
            exact or_iff_right_of_imp fun hk => hk ▸ OrderedMap.mem_keys_of_get hp
          dsimp only at hstop ⊢
          rw [ih hstop]
          simp only [hkeys]
          exact (and_iff_right fun _ => Option.some_ne_none code).symm

/-- What the credit notes leave of the purchases, one by one. -/
theorem processCreditNotes_values (hP : P.Exact) :
    ∀ {notes : List (Option String × Transaction)}
      {purchases purchases' : OrderedMap (Option String) Transaction}
      {processor processor' : CalculateCostOfSalesProcessor},
      processCreditNotes P notes purchases processor = .ok (.done purchases' processor') →
      (∀ k p, purchases.get k = some p → p.purchaseCode = k) →
      purchases'.values = purchases.values.map (lessNotes (notes.map Prod.snd)) := by
  intro notes
  induction notes with
  | nil =>
    intro purchases purchases' processor processor' h _
    cases h
    have hid : lessNotes [] = id := by
      funext p
      simp [lessNotes]
    rw [List.map_nil, hid, List.map_id]
  | cons e notes ih =>
    obtain ⟨number, note⟩ := e
    intro purchases purchases' processor processor' h hkeyed
    rw [List.map_cons]
    have hother : ∀ {j : Option String} {q : Transaction}, purchases.get j = some q →
        note.purchaseCode ≠ j →
        lessNotes (notes.map Prod.snd) q = lessNotes (note :: notes.map Prod.snd) q := by
      intro j q hq hne
      rw [lessNotes, lessNotes, returned_cons, if_neg (hkeyed j q hq ▸ hne), zero_add]
    rcases processCreditNotes_cons h with ⟨hnone, h⟩ | ⟨p, code, hp, hcode, -, h⟩
    · rw [ih h hkeyed]
      refine List.map_congr_left fun q hq => ?_
      obtain ⟨j, hj⟩ := OrderedMap.mem_values_iff.1 hq
      refine hother hj fun hj' => ?_
      rw [← hj', hnone] at hj
      cases hj
    · have hpcode : p.purchaseCode = some code := hkeyed _ p hp
      have hkeyed' : ∀ k q, (purchases.set (some code) (credited P note p)).get k = some q →
          q.purchaseCode = k := by
        intro k q hq
        rw [OrderedMap.get_set] at hq
        split_ifs at hq with hk
        · cases hq
          exact hpcode.trans hk.symm
        · exact hkeyed k q hq
      rw [ih h hkeyed']
      refine OrderedMap.map_values_set_of hp ?_ fun j q hq hne =>
        hother hq fun hj => hne (hj.symm.trans hcode)
      simp only [lessNotes, credited, hP.toNumber, returned_cons, hpcode, hcode, if_true, sub_sub]

/-- What the map of a listing keeps after its credit notes, in the order of the sales' loop. -/
theorem sorted_after_notes (hP : P.Exact) {txs : List Transaction}
    {purchases : OrderedMap (Option String) Transaction} {processor : CalculateCostOfSalesProcessor}
    (h : processCreditNotes P (collect P txs).goodAccountCreditNoteTransactionsMap.entries
      (collect P txs).goodAccountPurchaseTransactionsMap {} = .ok (.done purchases processor)) :
    BotService.sortFIFO P purchases.values = offeredPurchases P txs := by
  have hless : lessNotes ((collect P txs).goodAccountCreditNoteTransactionsMap.entries.map
      Prod.snd) = lessNotes (keptCreditNotes txs) := by
    funext p
    rw [lessNotes, lessNotes, returned_perm _ (collect_creditNotes_perm txs)]
  rw [processCreditNotes_values hP h fun k p hp => (mem_of_get_collect hp).2, hless,
    collect_purchases]
  rfl

/-- The credit notes that the loop applies are those of the kept purchases. -/
theorem matchedCreditNotes_coded_iff {txs : List Transaction} :
    (∀ e ∈ (collect P txs).goodAccountCreditNoteTransactionsMap.entries,
        e.2.purchaseCode ∈ (collect P txs).goodAccountPurchaseTransactionsMap.keys →
          e.2.purchaseCode ≠ none) ↔
      ∀ note ∈ matchedCreditNotes txs, note.purchaseCode ≠ none := by
  simp only [matchedCreditNotes, List.mem_filter, decide_eq_true_eq,
    ← (collect_creditNotes_perm (P := P) txs).mem_iff, mem_keys_collect_purchases]
  constructor
  · rintro h note ⟨hnote, hkey⟩
    obtain ⟨e, he, rfl⟩ := List.mem_map.1 hnote
    exact h e he hkey
  · exact fun h e he hkey => h e.2 ⟨List.mem_map_of_mem he, hkey⟩

/-- A listing that passed the guard and is not stopped is processed to the end exactly if nothing
    is missing that is read of it. -/
theorem planListing_fires_iff (hP : P.Exact) {txs : List Transaction} (hpos : PositiveListing txs)
    {a : Account} (hstop : ∀ summary, planListing P env fb ib a (collect P txs) ≠
      .ok (.stop summary)) :
    (∃ goodAccount sales processor, planListing P env fb ib a (collect P txs) =
      .ok (.fire goodAccount sales processor)) ↔ Processable P fb txs := by
  have hnotes : ∀ number, processCreditNotes P
      (collect P txs).goodAccountCreditNoteTransactionsMap.entries
      (collect P txs).goodAccountPurchaseTransactionsMap {} ≠ .ok (.stop number) := by
    intro number h
    refine hstop (.creditNoteQuantityError number) ?_
    unfold planListing
    rw [h]
    rfl
  have hreturns := processCreditNotes_returns_iff hnotes
  rw [matchedCreditNotes_coded_iff] at hreturns
  cases hdone : processCreditNotes P (collect P txs).goodAccountCreditNoteTransactionsMap.entries
      (collect P txs).goodAccountPurchaseTransactionsMap {} with
  | error e =>
    refine iff_of_false ?_ fun h => ?_
    · rintro ⟨goodAccount, sales, processor, h⟩
      obtain ⟨-, -, purchases, processor₁, ps, h, -⟩ := planListing_fire h
      rw [hdone] at h
      cases h
    · obtain ⟨purchases, processor, h⟩ := hreturns.2 h.notesCoded
      rw [hdone] at h
      cases h
  | ok result =>
    cases result with
    | stop number => exact absurd hdone (hnotes number)
    | done purchases processor =>
      have hsales : ∀ t ∈ BotService.sortFIFO P (txs.filter isOpenSale), 0 < t.amount :=
        fun t ht => hpos.sale ((sortFIFO_perm _).mem_iff.1 ht)
      have hstocked : ∀ p ∈ offeredPurchases P txs, Stocked p := by
        rw [← sorted_after_notes hP hdone]
        exact fun p hp => hpos.stocked hP hdone p ((sortFIFO_perm _).mem_iff.1 hp)
      have hloop : processSales P env fb ib (BotService.sortFIFO P (txs.filter isOpenSale))
          (offeredPurchases P txs) processor ≠ .ok none →
          ((∃ r, processSales P env fb ib (BotService.sortFIFO P (txs.filter isOpenSale))
            (offeredPurchases P txs) processor = .ok (some r)) ↔
              Served P fb (BotService.sortFIFO P (txs.filter isOpenSale))
                (offeredPurchases P txs)) := processSales_returns_iff hsales hstocked
      have hprocessable : Processable P fb txs ↔
          Served P fb (BotService.sortFIFO P (txs.filter isOpenSale)) (offeredPurchases P txs) :=
        ⟨fun h => h.served, fun h => ⟨hreturns.1 ⟨_, _, hdone⟩, h⟩⟩
      rw [hprocessable]
      unfold planListing at hstop ⊢
      rw [hdone] at hstop ⊢
      simp only [bind, Except.bind, collect_sales, sorted_after_notes hP hdone] at hstop ⊢
      generalize processSales P env fb ib _ _ processor = sold at hstop hloop ⊢
      cases sold with
      | error e =>
        rw [← hloop (by simp)]
        simp
      | ok result =>
        cases result with
        | none => exact absurd rfl (hstop .lockError)
        | some r =>
          rw [← hloop (by simp)]
          exact iff_of_true ⟨_, _, _, rfl⟩ ⟨r, rfl⟩

end Returns

end InventoryBot.Menu
