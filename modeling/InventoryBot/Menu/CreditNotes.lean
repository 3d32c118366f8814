import InventoryBot.Menu.Guard

/-!
# The credit notes of a calculation

Before the sales a calculation goes through the listed credit notes. Each reduces the purchase
with its code, and the run stops when nothing of a purchase is left.

* `processCreditNotes_result`: the loop stops exactly if a purchase is returned in full.
* `processCreditNotes_applied`: what the loop leaves of the purchases and queues otherwise.
* `credit_note_phase_iff`: the listings on which the run stops for the purchases of which more
  is returned than was bought, and applies every credit note otherwise.
-/

namespace InventoryBot.Menu

open Lib CostOfSalesService

/-! ## Quantities returned -/

/-- The quantity that some credit notes return of the purchase with a code. -/
def returned (code : Option String) (notes : List Transaction) : ℚ :=
  amounts (notes.filter fun note => decide (note.purchaseCode = code))

@[simp] theorem returned_nil (code : Option String) : returned code [] = 0 := rfl

theorem returned_cons (code : Option String) (note : Transaction) (notes : List Transaction) :
    returned code (note :: notes) =
      (if note.purchaseCode = code then note.amount else 0) + returned code notes := by
  unfold returned amounts
  by_cases h : note.purchaseCode = code
  · rw [List.filter_cons_of_pos (by simpa using h), if_pos h, List.map_cons, List.sum_cons]
  · rw [List.filter_cons_of_neg (by simpa using h), if_neg h, zero_add]

theorem returned_nonneg (code : Option String) {notes : List Transaction}
    (h : ∀ note ∈ notes, 0 < note.amount) : 0 ≤ returned code notes := by
  refine List.sum_nonneg fun q hq => ?_
  obtain ⟨note, hnote, rfl⟩ := List.mem_map.1 hq
  exact (h note (List.mem_of_mem_filter hnote)).le

theorem returned_perm (code : Option String) {notes notes' : List Transaction}
    (h : notes.Perm notes') : returned code notes = returned code notes' :=
  amounts_perm (h.filter _)

/-! ## How the loop ends -/

section Loop

variable {P : Platform}

/-- The loop stops exactly if the credit notes leave nothing of some purchase. -/
theorem processCreditNotes_result (hP : P.KeepsSign) :
    ∀ {notes : List (Option String × Transaction)}
      {purchases : OrderedMap (Option String) Transaction}
      (processor : CalculateCostOfSalesProcessor),
      none ∉ purchases.keys → (∀ k p, purchases.get k = some p → 0 < p.amount) →
      (∀ e ∈ notes, 0 < e.2.amount ∧ P.toNumber e.2.amount = e.2.amount) →
      ((∃ number, processCreditNotes P notes purchases processor = .ok (.stop number)) ∧
          ∃ k p, purchases.get k = some p ∧ p.amount ≤ returned k (notes.map Prod.snd)) ∨
        (∃ purchases' processor', processCreditNotes P notes purchases processor =
            .ok (.done purchases' processor')) ∧
          ∀ k p, purchases.get k = some p → returned k (notes.map Prod.snd) < p.amount := by
  intro notes
  induction notes with
  | nil =>
    intro purchases processor _ hstocked _
    exact Or.inr ⟨⟨purchases, processor, rfl⟩, by simpa using hstocked⟩
  | cons e notes ih =>
    obtain ⟨number, note⟩ := e
    intro purchases processor hcoded hstocked hnotes
    obtain ⟨hpos, hexact⟩ := hnotes _ List.mem_cons_self
    have hrest : ∀ e ∈ notes, 0 < e.2.amount ∧ P.toNumber e.2.amount = e.2.amount :=
      fun e he => hnotes e (List.mem_cons_of_mem _ he)
    simp only [processCreditNotes, List.map_cons, returned_cons]
    cases hp : purchases.get note.purchaseCode with
    | none =>
      have hother : ∀ k p, purchases.get k = some p → note.purchaseCode ≠ k := by
        rintro k p hk rfl
        rw [hp] at hk
        cases hk
      rcases ih processor hcoded hstocked hrest with
        ⟨hstop, k, p, hk, hle⟩ | ⟨hdone, hlt⟩
      · exact Or.inl ⟨hstop, k, p, hk, by rwa [if_neg (hother k p hk), zero_add]⟩
      · refine Or.inr ⟨hdone, fun k p hk => ?_⟩
        rw [if_neg (hother k p hk), zero_add]
        exact hlt k p hk
    | some p =>
      dsimp only
      split
      · rename_i hle
        rw [hexact] at hle
        have hfull : p.amount ≤ note.amount :=
          sub_nonpos.1 (not_lt.1 fun h => absurd ((hP _).2 h) (not_lt.2 hle))
        refine Or.inl ⟨⟨_, rfl⟩, _, p, hp, ?_⟩
        rw [if_pos rfl]
        have hnonneg : 0 ≤ returned note.purchaseCode (notes.map Prod.snd) := by
          refine returned_nonneg _ fun t ht => ?_
          obtain ⟨e, he, rfl⟩ := List.mem_map.1 ht
          exact (hrest e he).1
        linarith
      · rename_i hle
        rw [hexact] at hle ⊢
        have hleft : 0 < p.amount - note.amount := (hP _).1 (not_le.1 hle)
        cases hcode : note.purchaseCode with
        | none => exact absurd (OrderedMap.mem_keys_of_get hp) (hcode ▸ hcoded)
        | some code =>
          rw [hcode] at hp
          dsimp only
          have hget := OrderedMap.get_set purchases (some code)
            (v := { p with amount := p.amount - note.amount })
          have hcoded' : none ∉ (purchases.set (some code)
              { p with amount := p.amount - note.amount }).keys := by
            rw [OrderedMap.mem_keys_set]
            exact fun h => h.elim (fun h => Option.some_ne_none code h.symm) hcoded
          have hstocked' : ∀ k q, (purchases.set (some code)
              { p with amount := p.amount - note.amount }).get k = some q → 0 < q.amount := by
            intro k q hk
            rw [hget] at hk
            split_ifs at hk
            · cases hk
              exact hleft
            · exact hstocked k q hk
          rcases ih _ hcoded' hstocked' hrest with ⟨hstop, k, q, hk, hle⟩ | ⟨hdone, hlt⟩
          · refine Or.inl ⟨hstop, ?_⟩
            rw [hget] at hk
            split_ifs at hk with hcase
            · cases hk
              exact ⟨k, p, hcase ▸ hp, by rw [if_pos hcase.symm]; linarith⟩
            · exact ⟨k, q, hk, by rwa [if_neg (Ne.symm hcase), zero_add]⟩
          · refine Or.inr ⟨hdone, fun k q hk => ?_⟩
            have hlt := hlt k
            simp only [hget] at hlt
            by_cases hcase : k = some code
            · obtain rfl : p = q := Option.some.inj (hp.symm.trans (hcase ▸ hk))
              have := hlt _ (if_pos hcase)
              rw [if_pos hcase.symm]
              linarith
            · rw [if_neg (Ne.symm hcase), zero_add]
              exact hlt q (by rwa [if_neg hcase])

/-- The split that the loop queues for a credit note, if its purchase is listed. -/
def splitOf (P : Platform) (purchases : OrderedMap (Option String) Transaction)
    (e : Option String × Transaction) : Option Transaction :=
  (purchases.get e.2.purchaseCode).map fun p =>
    splitCreditNote (P.toNumber e.2.amount) (e.2.purchaseCode.getD "undefined")
      (e.1.getD "undefined") p

/-- A split does not depend on what earlier credit notes left of the purchase. -/
theorem splitOf_credited {purchases : OrderedMap (Option String) Transaction} {code : String}
    {p : Transaction} (note : Transaction) (hp : purchases.get (some code) = some p) :
    splitOf P (purchases.set (some code) (credited P note p)) = splitOf P purchases := by
  funext e
  unfold splitOf
  rw [OrderedMap.get_set]
  split_ifs with h
  · rw [h, hp]
    rfl
  · rfl

variable {env : RunEnv} {account : String} {before : Date} {store : List Transaction}
  {numbers : List String}

/-- What the loop leaves when it goes through all credit notes: each purchase less what was
    returned of it, a split for each credit note of a listed purchase, and these checked. -/
theorem processCreditNotes_applied :
    ∀ {notes : List (Option String × Transaction)}
      {purchases purchases' : OrderedMap (Option String) Transaction}
      {processor processor' : CalculateCostOfSalesProcessor} {d : Desk},
      processCreditNotes P notes purchases processor = .ok (.done purchases' processor') →
      NotesInvariant env account before store numbers notes purchases processor d →
      (∀ e ∈ notes, P.toNumber e.2.amount = e.2.amount) →
      (∀ k, purchases'.get k = (purchases.get k).map fun p =>
          { p with amount := p.amount - returned k (notes.map Prod.snd) }) ∧
        processor'.inventoryBookTransactionsToCreateMap.values =
          processor.inventoryBookTransactionsToCreateMap.values ++
            notes.filterMap (splitOf P purchases) ∧
        (∀ id, id ∉ purchases.values.map Transaction.id → id ∉ (notes.map fun e => e.2.id) →
          processor'.inventoryBookTransactionsToUpdateMap.get id =
            processor.inventoryBookTransactionsToUpdateMap.get id) ∧
        ∀ e ∈ notes, e.2.purchaseCode ∈ purchases.keys →
          processor'.inventoryBookTransactionsToUpdateMap.get e.2.id = some (applied e.2) := by
  intro notes
  induction notes with
  | nil =>
    intro purchases purchases' processor processor' d h _ _
    cases h
    exact ⟨fun k => by simp, by simp, fun _ _ _ => rfl, by simp⟩
  | cons e notes ih =>
    obtain ⟨creditNote, note⟩ := e
    intro purchases purchases' processor processor' d h hd hexact
    have hnote : P.toNumber note.amount = note.amount := hexact _ List.mem_cons_self
    have hrest : ∀ e ∈ notes, P.toNumber e.2.amount = e.2.amount :=
      fun e he => hexact e (List.mem_cons_of_mem _ he)
    have hnodup := hd.nodup
    rw [List.map_cons, List.nodup_middle, List.nodup_cons, List.mem_append, not_or] at hnodup
    obtain ⟨⟨hnotep, hnoten⟩, hnodup⟩ := hnodup
    simp only [List.map_cons, List.mem_cons, not_or, returned_cons]
    rcases processCreditNotes_cons h with ⟨hnone, h⟩ | ⟨p, code, hp, hcode, hleft, h⟩
    · -- the purchase of the credit note is not listed
      have habsent : note.purchaseCode ∉ purchases.keys := OrderedMap.get_eq_none.1 hnone
      obtain ⟨hget, hcreated, hframe, hchecked⟩ := ih h hd.skip hrest
      refine ⟨fun k => ?_, ?_, fun id hid hids => hframe id hid hids.2, ?_⟩
      · rw [hget k]
        by_cases hk : note.purchaseCode = k
        · rw [← hk, hnone]
          rfl
        · rw [if_neg hk, zero_add]
      · rw [hcreated, List.filterMap_cons_none (by simp [splitOf, hnone])]
      · rintro e (rfl | he) hkey
        · exact absurd hkey habsent
        · exact hchecked e he hkey
    · obtain ⟨-, -, number, -, hkey, -⟩ := hd.waiting _ List.mem_cons_self
      obtain rfl : creditNote = some number := hkey
      rw [Option.getD_some] at h
      obtain ⟨hget, hcreated, hframe, hchecked⟩ := ih h (hd.next hp) hrest
      have hsame : (purchases.set (some code) (credited P note p)).values.map Transaction.id =
          purchases.values.map Transaction.id := OrderedMap.map_values_set _ hp (by rfl)
      rw [hsame] at hframe
      have hpurchase : p.id ∈ purchases.values.map Transaction.id :=
        List.mem_map_of_mem (OrderedMap.mem_values_of_get hp)
      have hqueued : ∀ id, (afterCreditNote P note p code number
          processor).inventoryBookTransactionsToUpdateMap.get id =
            if id = note.id then some (applied note)
            else if id = p.id then some (credited P note p)
            else processor.inventoryBookTransactionsToUpdateMap.get id := by
        intro id
        exact (OrderedMap.get_set _ _ _ _).trans (if_congr Iff.rfl rfl (OrderedMap.get_set _ _ _ _))
      refine ⟨fun k => ?_, ?_, fun id hid hids => ?_, ?_⟩
      · rw [hget k, OrderedMap.get_set]
        by_cases hk : k = some code
        · subst hk
          rw [if_pos rfl, hp, if_pos hcode]
          simp only [Option.map_some, credited, hnote, sub_sub]
        · rw [if_neg hk, if_neg (fun he : note.purchaseCode = k => hk (he.symm.trans hcode)), zero_add]
      · have hnew := hd.unsplit _ List.mem_cons_self _ rfl
        have hvalues : (afterCreditNote P note p code number
            processor).inventoryBookTransactionsToCreateMap.values =
              processor.inventoryBookTransactionsToCreateMap.values ++
                [splitCreditNote (P.toNumber note.amount) code number p] :=
          OrderedMap.values_set_of_absent _ hnew
        have hsplit : splitOf P purchases (some number, note) =
            some (splitCreditNote (P.toNumber note.amount) code number p) := by
          simp [splitOf, hcode, hp]
        rw [hcreated, hvalues, splitOf_credited note hp, List.filterMap_cons_some hsplit,
          List.append_assoc, List.singleton_append]
      · rw [hframe id hid hids.2, hqueued, if_neg hids.1,
          if_neg (fun he : id = p.id => hid (he ▸ hpurchase))]
      · rintro e (rfl | he) hlisted
        · rw [hframe _ hnotep hnoten, hqueued, if_pos rfl]
        · exact hchecked e he (OrderedMap.mem_keys_set.2 (Or.inr hlisted))

/-- What is recorded with the split for a credit note. -/
def record (t : Transaction) : Option String × ℚ × Bool := (t.creditNote, t.amount, t.checked)

/-- The splits queued for a purchase are one for each credit note with its code. -/
theorem records_filterMap_splitOf {purchases : OrderedMap (Option String) Transaction}
    {k : Option String} {p : Transaction} (hp : purchases.get k = some p)
    (hdistinct : ∀ j q, purchases.get j = some q → q.id = p.id → j = k)
    {notes : List (Option String × Transaction)}
    (hnotes : ∀ e ∈ notes, P.toNumber e.2.amount = e.2.amount ∧
      ∃ number, e.1 = some number ∧ e.2.creditNote = some number) :
    ((notes.filterMap (splitOf P purchases)).filter fun t =>
        decide (t.parentId = some p.id)).map record =
      ((notes.map Prod.snd).filter fun note => decide (note.purchaseCode = k)).map
        fun note => record (applied note) := by
  induction notes with
  | nil => rfl
  | cons e notes ih =>
    obtain ⟨hexact, number, hkey, hnumber⟩ := hnotes e List.mem_cons_self
    have ih := ih fun e he => hnotes e (List.mem_cons_of_mem _ he)
    rw [List.map_cons]
    by_cases hk : e.2.purchaseCode = k
    · have hsplit : splitOf P purchases e = some (splitCreditNote e.2.amount
          (k.getD "undefined") number p) := by
        simp [splitOf, hk, hp, hexact, hkey]
      rw [List.filterMap_cons_some hsplit, List.filter_cons_of_pos (by simp [splitCreditNote]),
        List.filter_cons_of_pos (by simpa using hk), List.map_cons, List.map_cons, ih]
      simp [record, splitCreditNote, applied, hnumber]
    · rw [List.filter_cons_of_neg (by simpa using hk)]
      cases hq : purchases.get e.2.purchaseCode with
      | none => rw [List.filterMap_cons_none (by simp [splitOf, hq]), ih]
      | some q =>
        have hother : q.id ≠ p.id := fun he => hk (hdistinct _ q hq he)
        have hsplit : splitOf P purchases e = some (splitCreditNote (P.toNumber e.2.amount)
            (e.2.purchaseCode.getD "undefined") (e.1.getD "undefined") q) := by
          simp [splitOf, hq]
        rw [List.filterMap_cons_some hsplit,
          List.filter_cons_of_neg (by simpa [splitCreditNote] using hother), ih]

end Loop

/-! ## The listing of a calculation -/

/-- More of some open purchase is returned than was bought. -/
def Overreturned (txs : List Transaction) : Prop :=
  ∃ p ∈ txs.filter isOpenPurchase,
    p.amount < returned p.purchaseCode (txs.filter isOpenCreditNote)

instance (txs : List Transaction) : Decidable (Overreturned txs) :=
  inferInstanceAs (Decidable (∃ p ∈ _, _))

/-- A listing whose open purchases have different codes and whose open transactions have
    positive amounts; `toNumber` gives those of the credit notes exactly. -/
structure Returnable (P : Platform) (txs : List Transaction) : Prop where
  positive : PositiveListing txs
  coded : ∀ p ∈ txs.filter isOpenPurchase, p.purchaseCode ≠ none
  distinct : ((txs.filter isOpenPurchase).map Transaction.purchaseCode).Nodup
  exact : ∀ note ∈ txs.filter isOpenCreditNote, P.toNumber note.amount = note.amount

/-- Every credit note of `notes` is applied to the open purchase with its code. -/
structure NotesApplied (txs notes : List Transaction)
    (purchases : OrderedMap (Option String) Transaction)
    (processor : CalculateCostOfSalesProcessor) : Prop where
  /-- each purchase is reduced by what is returned of it -/
  reduced : ∀ p ∈ txs.filter isOpenPurchase, purchases.get p.purchaseCode =
    some { p with amount := p.amount - returned p.purchaseCode notes }
  /-- the credit notes of the purchase are checked -/
  checked : ∀ p ∈ txs.filter isOpenPurchase, ∀ note ∈ notes, note.purchaseCode = p.purchaseCode →
    processor.inventoryBookTransactionsToUpdateMap.get note.id = some (applied note)
  /-- and each of them has one split of the purchase, with its number and quantity -/
  split : ∀ p ∈ txs.filter isOpenPurchase,
    ((processor.inventoryBookTransactionsToCreateMap.values.filter fun t =>
        decide (t.parentId = some p.id)).map record).Perm
      ((notes.filter fun note => decide (note.purchaseCode = p.purchaseCode)).map
        fun note => record (applied note))

/-- What is applied to a purchase depends on the credit notes with its code. -/
theorem NotesApplied.congr {txs notes notes' : List Transaction}
    {purchases : OrderedMap (Option String) Transaction} {processor : CalculateCostOfSalesProcessor}
    (h : NotesApplied txs notes purchases processor)
    (hsame : ∀ p ∈ txs.filter isOpenPurchase,
      (notes.filter fun note => decide (note.purchaseCode = p.purchaseCode)) =
        notes'.filter fun note => decide (note.purchaseCode = p.purchaseCode)) :
    NotesApplied txs notes' purchases processor := by
  refine ⟨fun p hp => ?_, fun p hp note hnote hcode => ?_, fun p hp => ?_⟩
  · have hreturned : returned p.purchaseCode notes = returned p.purchaseCode notes' :=
      congrArg amounts (hsame p hp)
    rw [h.reduced p hp, hreturned]
  · have hmem : note ∈ notes'.filter fun note => decide (note.purchaseCode = p.purchaseCode) :=
      List.mem_filter.2 ⟨hnote, by simpa using hcode⟩
    rw [← hsame p hp] at hmem
    exact h.checked p hp note (List.mem_of_mem_filter hmem) hcode
  · rw [← hsame p hp]
    exact h.split p hp

/-- The splits of a purchase show how many credit notes were applied to it. -/
theorem NotesApplied.filter_eq {txs notes notes' : List Transaction}
    {purchases : OrderedMap (Option String) Transaction} {processor : CalculateCostOfSalesProcessor}
    (h : NotesApplied txs notes purchases processor)
    (h' : NotesApplied txs notes' purchases processor) (hsub : notes.Sublist notes')
    {p : Transaction} (hp : p ∈ txs.filter isOpenPurchase) :
    (notes.filter fun note => decide (note.purchaseCode = p.purchaseCode)) =
      notes'.filter fun note => decide (note.purchaseCode = p.purchaseCode) := by
  have hlength := ((h.split p hp).symm.trans (h'.split p hp)).length_eq
  rw [List.length_map, List.length_map] at hlength
  exact (hsub.filter _).eq_of_length hlength

section Listed

variable {P : Platform} {s : State} {goodAccount : Account} {toDate : Date}

/-- A purchase is found under its code. -/
theorem get_collect_purchases {txs : List Transaction}
    (hdistinct : ((txs.filter isOpenPurchase).map Transaction.purchaseCode).Nodup)
    {p : Transaction} (hp : p ∈ txs.filter isOpenPurchase) :
    (collect P txs).goodAccountPurchaseTransactionsMap.get p.purchaseCode = some p := by
  rw [collect_purchases]
  refine OrderedMap.mem_lastOf.1 ?_
  rwa [OrderedMap.lastOf_of_nodup hdistinct]

theorem mem_of_get_collect {txs : List Transaction} {k : Option String} {p : Transaction}
    (hp : (collect P txs).goodAccountPurchaseTransactionsMap.get k = some p) :
    p ∈ txs.filter isOpenPurchase ∧ p.purchaseCode = k := by
  rw [collect_purchases] at hp
  exact OrderedMap.get_ofList hp

theorem mem_keptCreditNotes {txs : List Transaction} {note : Transaction}
    (h : note ∈ keptCreditNotes txs) : note ∈ txs.filter isOpenCreditNote :=
  (OrderedMap.lastOf_sublist _ _).subset h

theorem mem_entries_creditNotes {txs : List Transaction} {e : Option String × Transaction}
    (he : e ∈ (collect P txs).goodAccountCreditNoteTransactionsMap.entries) :
    e.2 ∈ txs.filter isOpenCreditNote :=
  mem_keptCreditNotes ((collect_creditNotes_perm txs).subset (List.mem_map_of_mem he))

/-- The loop over a listing stops exactly if the kept credit notes return a purchase in full. -/
theorem listing_stops_iff (hP : P.KeepsSign) {txs : List Transaction} (h : Returnable P txs) :
    ((∃ number, processCreditNotes P (collect P txs).goodAccountCreditNoteTransactionsMap.entries
        (collect P txs).goodAccountPurchaseTransactionsMap {} = .ok (.stop number)) ↔
      ∃ p ∈ txs.filter isOpenPurchase, p.amount ≤ returned p.purchaseCode (keptCreditNotes txs)) ∧
    ((¬∃ p ∈ txs.filter isOpenPurchase, p.amount ≤ returned p.purchaseCode (keptCreditNotes txs)) →
      ∃ purchases processor, processCreditNotes P
        (collect P txs).goodAccountCreditNoteTransactionsMap.entries
        (collect P txs).goodAccountPurchaseTransactionsMap {} = .ok (.done purchases processor)) := by
  have hcoded : none ∉ (collect P txs).goodAccountPurchaseTransactionsMap.keys := by
    rw [collect_purchases, OrderedMap.mem_keys_ofList, List.mem_map]
    rintro ⟨p, hp, hnone⟩
    exact h.coded p hp hnone
  have hstocked : ∀ k p, (collect P txs).goodAccountPurchaseTransactionsMap.get k = some p →
      0 < p.amount := fun k p hp =>
    h.positive p (List.mem_of_mem_filter (mem_of_get_collect hp).1)
      (Or.inr (Or.inl (List.of_mem_filter (mem_of_get_collect hp).1)))
  have hnotes : ∀ e ∈ (collect P txs).goodAccountCreditNoteTransactionsMap.entries,
      0 < e.2.amount ∧ P.toNumber e.2.amount = e.2.amount := fun e he =>
    ⟨h.positive _ (List.mem_of_mem_filter (mem_entries_creditNotes he))
      (Or.inr (Or.inr (List.of_mem_filter (mem_entries_creditNotes he)))),
      h.exact _ (mem_entries_creditNotes he)⟩
  rcases processCreditNotes_result hP {} hcoded hstocked hnotes with
    ⟨hstop, k, p, hp, hle⟩ | ⟨⟨purchases, processor, hdone⟩, hlt⟩
  · obtain ⟨hmem, rfl⟩ := mem_of_get_collect hp
    rw [returned_perm _ (collect_creditNotes_perm txs)] at hle
    exact ⟨⟨fun _ => ⟨p, hmem, hle⟩, fun _ => hstop⟩, fun hno => absurd ⟨p, hmem, hle⟩ hno⟩
  · have hno : ¬∃ p ∈ txs.filter isOpenPurchase,
        p.amount ≤ returned p.purchaseCode (keptCreditNotes txs) := by
      rintro ⟨p, hp, hle⟩
      have hlt := hlt _ p (get_collect_purchases h.distinct hp)
      rw [returned_perm _ (collect_creditNotes_perm txs)] at hlt
      exact absurd hle (not_le.2 hlt)
    refine ⟨⟨?_, fun hle => absurd hle hno⟩, fun _ => ⟨purchases, processor, hdone⟩⟩
    rintro ⟨number, hstop⟩
    rw [hdone] at hstop
    cases hstop

/-- The loop over a listing applies the credit notes that the map keeps. -/
theorem listing_applied (env : RunEnv)
    (hids : (s.inventoryBook.transactions.map Transaction.id).Nodup)
    (hkind : ∀ t ∈ s.inventoryBook.transactions, t.moves goodAccount.name → OneKind t)
    (h : Returnable P (listTransactions s.inventoryBook goodAccount toDate))
    {purchases : OrderedMap (Option String) Transaction} {processor : CalculateCostOfSalesProcessor}
    (hdone : processCreditNotes P
      (listingOf P s.inventoryBook goodAccount toDate).goodAccountCreditNoteTransactionsMap.entries
      (listingOf P s.inventoryBook goodAccount toDate).goodAccountPurchaseTransactionsMap {} =
        .ok (.done purchases processor)) :
    NotesApplied (listTransactions s.inventoryBook goodAccount toDate)
      (keptCreditNotes (listTransactions s.inventoryBook goodAccount toDate)) purchases
      processor := by
  have hstart := notesInvariant_start P env toDate hids hkind
  have hperm := collect_creditNotes_perm (P := P)
    (listTransactions s.inventoryBook goodAccount toDate)
  have hexact : ∀ e ∈ (listingOf P s.inventoryBook goodAccount
      toDate).goodAccountCreditNoteTransactionsMap.entries, P.toNumber e.2.amount = e.2.amount :=
    fun e he => h.exact _ (mem_entries_creditNotes he)
  obtain ⟨hget, hcreated, -, hchecked⟩ := processCreditNotes_applied hdone hstart hexact
  refine ⟨fun p hp => ?_, fun p hp note hnote hcode => ?_, fun p hp => ?_⟩
  · rw [hget, get_collect_purchases h.distinct hp, Option.map_some, returned_perm _ hperm]
  · obtain ⟨e, he, rfl⟩ := List.mem_map.1 (hperm.symm.subset hnote)
    exact hchecked e he
      (hcode ▸ OrderedMap.mem_keys_of_get (get_collect_purchases h.distinct hp))
  · have hlisted := get_collect_purchases (P := P) h.distinct hp
    have hother : ∀ j q, (collect P (listTransactions s.inventoryBook goodAccount
        toDate)).goodAccountPurchaseTransactionsMap.get j = some q → q.id = p.id →
          j = p.purchaseCode := by
      intro j q hq hid
      obtain rfl : q = p := List.inj_on_of_nodup_map (List.nodup_append.1 hstart.nodup).1
        (OrderedMap.mem_values_of_get hq) (OrderedMap.mem_values_of_get hlisted) hid
      exact (mem_of_get_collect hq).2.symm
    have hrecords := records_filterMap_splitOf hlisted hother fun e he =>
      ⟨hexact e he, (hstart.waiting e he).2.2.imp fun number hn => hn.2⟩
    rw [hcreated]
    refine List.Perm.trans (List.Perm.of_eq ?_) ((hperm.filter _).map _)
    exact hrecords

end Listed

/-! ## The phase of a run -/

section Phase

variable {P : Platform} {collection : Option (List BookInfo)} {env : RunEnv} {s : State}
  {goodAccountId : String} {toDate : Option Date} {goodAccount : Account}

/-- A run that passes the quantity guard goes on with its credit notes. -/
theorem planCalculation_passed
    (hopen : openAccount collection s goodAccountId = .ok (goodAccount, some s.financialBook))
    (hpassed : Passed P s goodAccountId (toDate.getD env.today) goodAccount) :
    planCalculation P collection env s goodAccountId toDate =
      planListing P env (costOfSalesBook env s) s.inventoryBook goodAccount
        (listingOf P s.inventoryBook goodAccount (toDate.getD env.today)) := by
  have hcovered := not_lt.2 hpassed.covered
  have hselling := hpassed.selling
  unfold planCalculation
  rw [hopen]
  show (if GoodAccount.needsRebuild goodAccount then _ else _) = _
  rw [if_neg (by simp [hpassed.current])]
  show (if (listingOf P s.inventoryBook goodAccount (toDate.getD env.today)).totalSalesQuantity = 0
    then _ else _) = _
  rw [if_neg hselling, if_neg hcovered]

/-- Such a run stops for a credit note exactly if its loop over the credit notes stops. -/
theorem calculate_creditNoteQuantityError_iff
    (hopen : openAccount collection s goodAccountId = .ok (goodAccount, some s.financialBook))
    (hpassed : Passed P s goodAccountId (toDate.getD env.today) goodAccount) :
    (∃ number, (calculateCostOfSalesForAccount P collection env s goodAccountId toDate).2 =
        .returned (.creditNoteQuantityError number)) ↔
      ∃ number, processCreditNotes P (listingOf P s.inventoryBook goodAccount
          (toDate.getD env.today)).goodAccountCreditNoteTransactionsMap.entries
        (listingOf P s.inventoryBook goodAccount
          (toDate.getD env.today)).goodAccountPurchaseTransactionsMap {} = .ok (.stop number) := by
  unfold calculateCostOfSalesForAccount
  rw [planCalculation_passed hopen hpassed]
  unfold planListing
  generalize hnotes : processCreditNotes P (listingOf P s.inventoryBook goodAccount
    (toDate.getD env.today)).goodAccountCreditNoteTransactionsMap.entries
    (listingOf P s.inventoryBook goodAccount
      (toDate.getD env.today)).goodAccountPurchaseTransactionsMap {} = result
  match result with
  | .error e => simp [bind, Except.bind]
  | .ok (.stop number) => simp [bind, Except.bind, pure, Except.pure]
  | .ok (.done purchases processor) =>
    simp only [bind, Except.bind]
    generalize processSales P env (costOfSalesBook env s) s.inventoryBook _ _ processor = sold
    match sold with
    | .error e => simp
    | .ok none => simp [pure, Except.pure]
    | .ok (some (ps, processor)) => simp [pure, Except.pure]

/-- The credit-note phase of a run does what it is there for: the run stops exactly if more of
    some open purchase is returned than was bought, and otherwise all open credit notes are
    applied before the sales are processed. -/
structure CreditNotePhase (P : Platform) (collection : Option (List BookInfo)) (env : RunEnv)
    (s : State) (goodAccountId : String) (toDate : Option Date) (goodAccount : Account) :
    Prop where
  stops : (∃ number, (calculateCostOfSalesForAccount P collection env s goodAccountId toDate).2 =
      .returned (.creditNoteQuantityError number)) ↔
    Overreturned (listTransactions s.inventoryBook goodAccount (toDate.getD env.today))
  applies : ¬Overreturned (listTransactions s.inventoryBook goodAccount (toDate.getD env.today)) →
    ∃ purchases processor, processCreditNotes P (listingOf P s.inventoryBook goodAccount
        (toDate.getD env.today)).goodAccountCreditNoteTransactionsMap.entries
      (listingOf P s.inventoryBook goodAccount
        (toDate.getD env.today)).goodAccountPurchaseTransactionsMap {} =
          .ok (.done purchases processor) ∧
      NotesApplied (listTransactions s.inventoryBook goodAccount (toDate.getD env.today))
        ((listTransactions s.inventoryBook goodAccount (toDate.getD env.today)).filter
          isOpenCreditNote) purchases processor

/-- No open purchase is returned in full, and of two open credit notes with one number the
    first listed has no open purchase. -/
def NotesKept (txs : List Transaction) : Prop :=
  ∀ p ∈ txs.filter isOpenPurchase,
    returned p.purchaseCode (txs.filter isOpenCreditNote) < p.amount ∧
      ∀ note ∈ txs.filter isOpenCreditNote, note.purchaseCode = p.purchaseCode →
        note ∈ keptCreditNotes txs

instance (txs : List Transaction) : Decidable (NotesKept txs) :=
  inferInstanceAs (Decidable (∀ p ∈ _, _))

/-- The credit notes of a purchase that are all kept are the ones that the loop applies. -/
theorem filter_keptCreditNotes {txs : List Transaction} {code : Option String}
    (h : ∀ note ∈ txs.filter isOpenCreditNote, note.purchaseCode = code →
      note ∈ keptCreditNotes txs) (hnodup : (txs.filter isOpenCreditNote).Nodup) :
    (keptCreditNotes txs).filter (fun note => decide (note.purchaseCode = code)) =
      (txs.filter isOpenCreditNote).filter fun note => decide (note.purchaseCode = code) := by
  refine (List.Sublist.filter _ (OrderedMap.lastOf_sublist _ _)).eq_of_length_le ?_
  refine List.Subperm.length_le (List.subperm_of_subset (hnodup.filter _) ?_)
  intro note hnote
  rw [List.mem_filter] at hnote ⊢
  exact ⟨h note hnote.1 (by simpa using hnote.2), hnote.2⟩

/-- **The credit notes of a calculation.** A run that passed the quantity guard stops for the
    over-returned purchases and applies every open credit note otherwise, exactly if its listing
    shows the over-return in the credit notes that the map keeps, or no purchase is returned in
    full and the map keeps the credit notes of the open purchases. -/
theorem credit_note_phase_iff (hP : P.KeepsSign) (hwf : WellFormed s.inventoryBook)
    (hopen : openAccount collection s goodAccountId = .ok (goodAccount, some s.financialBook))
    (hpassed : Passed P s goodAccountId (toDate.getD env.today) goodAccount)
    (hlisting : Returnable P
      (listTransactions s.inventoryBook goodAccount (toDate.getD env.today))) :
    CreditNotePhase P collection env s goodAccountId toDate goodAccount ↔
      (Overreturned (listTransactions s.inventoryBook goodAccount (toDate.getD env.today)) ∧
        ∃ p ∈ (listTransactions s.inventoryBook goodAccount
            (toDate.getD env.today)).filter isOpenPurchase,
          p.amount ≤ returned p.purchaseCode (keptCreditNotes
            (listTransactions s.inventoryBook goodAccount (toDate.getD env.today)))) ∨
      NotesKept (listTransactions s.inventoryBook goodAccount (toDate.getD env.today)) := by
  have hkind : ∀ t ∈ s.inventoryBook.transactions, t.moves goodAccount.name → OneKind t :=
    fun t ht hm => hwf.oneKind hpassed.account hpassed.notIncoming hpassed.notOutgoing ht hm
  have hnodup : (listTransactions s.inventoryBook goodAccount
      (toDate.getD env.today)).Nodup := hwf.ids.of_map.filter _
  obtain ⟨hstops, hdone⟩ := listing_stops_iff hP hlisting
  have hrun := calculate_creditNoteQuantityError_iff hopen hpassed
  have hsub : (keptCreditNotes (listTransactions s.inventoryBook goodAccount
      (toDate.getD env.today))).Sublist _ := OrderedMap.lastOf_sublist _ _
  constructor
  · intro hphase
    by_cases hover : Overreturned (listTransactions s.inventoryBook goodAccount
        (toDate.getD env.today))
    · exact Or.inl ⟨hover, hstops.1 (hrun.1 (hphase.stops.2 hover))⟩
    · obtain ⟨purchases, processor, hloop, happlied⟩ := hphase.applies hover
      have hkept := listing_applied env hwf.ids hkind hlisting hloop
      refine Or.inr fun p hp => ?_
      have hfilter := hkept.filter_eq happlied hsub hp
      have hreturned : returned p.purchaseCode _ = returned p.purchaseCode _ :=
        congrArg amounts hfilter
      refine ⟨?_, fun note hnote hcode => ?_⟩
      · rw [← hreturned]
        refine not_le.1 fun hle => hover ?_
        exact hphase.stops.1 (hrun.2 (hstops.2 ⟨p, hp, hle⟩))
      · have hmem : note ∈ (keptCreditNotes (listTransactions s.inventoryBook goodAccount
            (toDate.getD env.today))).filter
              fun note => decide (note.purchaseCode = p.purchaseCode) := by
          rw [hfilter]
          exact List.mem_filter.2 ⟨hnote, by simpa using hcode⟩
        exact List.mem_of_mem_filter hmem
  · rintro (⟨hover, hstop⟩ | hkept)
    · exact ⟨⟨fun _ => hover, fun _ => hrun.2 (hstops.2 hstop)⟩, fun hno => absurd hover hno⟩
    · have hfilter := fun p hp => filter_keptCreditNotes (hkept p hp).2 (hnodup.filter _)
      have hover : ¬Overreturned (listTransactions s.inventoryBook goodAccount
          (toDate.getD env.today)) := fun ⟨p, hp, hlt⟩ => lt_asymm hlt (hkept p hp).1
      have hgoes : ¬∃ p ∈ (listTransactions s.inventoryBook goodAccount
          (toDate.getD env.today)).filter isOpenPurchase, p.amount ≤ returned p.purchaseCode
            (keptCreditNotes (listTransactions s.inventoryBook goodAccount
              (toDate.getD env.today))) := by
        rintro ⟨p, hp, hle⟩
        have hreturned : returned p.purchaseCode _ = returned p.purchaseCode _ :=
          congrArg amounts (hfilter p hp)
        rw [hreturned] at hle
        exact absurd (hkept p hp).1 (not_lt.2 hle)
      refine ⟨⟨fun h => absurd (hstops.1 (hrun.1 h)) hgoes, fun h => absurd h hover⟩, fun _ => ?_⟩
      obtain ⟨purchases, processor, hloop⟩ := hdone hgoes
      exact ⟨purchases, processor, hloop,
        (listing_applied env hwf.ids hkind hlisting hloop).congr hfilter⟩

end Phase

/-! ## A full return and a shared number -/

namespace Sample

/-- Two purchases of ten, of which one is returned, and a sale of five. -/
def fullReturn : State :=
  state [purchase "1" "P1" 1 10 100, purchase "5" "P2" 1 10 90, creditNote "3" "C1" "P1" 2 10,
    sale "2" "S1" 3 5 80] []

/-- Two purchases of ten, of which two and three are returned under numbers of their own, and a
    sale of five. -/
def twoNumbers : State :=
  state [purchase "1" "P1" 1 10 100, purchase "5" "P2" 1 10 90, creditNote "3" "C1" "P1" 2 2,
    creditNote "4" "C2" "P2" 2 3, sale "2" "S1" 3 5 80] []

/-- The same returns under one number. -/
def oneNumber : State :=
  state [purchase "1" "P1" 1 10 100, purchase "5" "P2" 1 10 90, creditNote "3" "C1" "P1" 2 2,
    creditNote "4" "C1" "P2" 2 3, sale "2" "S1" 3 5 80] []

/-- The update that the loop over the credit notes has queued for a transaction. -/
def queuedNote (id : String) : Except Exception CreditNotesResult → Option Transaction
  | .ok (.done _ processor) => processor.inventoryBookTransactionsToUpdateMap.get id
  | _ => none

end Sample

/-- The run stops for a purchase that is returned in full, and of two credit notes with one
    number it applies one. -/
theorem credit_note_phase_full_return_shared_number :
    ¬CreditNotePhase exactPlatform Sample.collection (Sample.env 9) Sample.fullReturn "a-widgets"
        none Sample.good ∧
      ¬CreditNotePhase exactPlatform Sample.collection (Sample.env 9) Sample.oneNumber "a-widgets"
        none Sample.good := by
  constructor
  · intro hphase
    have hbought : ¬Overreturned (listTransactions Sample.fullReturn.inventoryBook Sample.good 9) := by
      decide +kernel
    exact hbought (hphase.stops.1 ⟨"C1", by decide +kernel⟩)
  · intro hphase
    have hbought : ¬Overreturned (listTransactions Sample.oneNumber.inventoryBook Sample.good 9) := by
      decide +kernel
    obtain ⟨purchases, processor, hloop, happlied⟩ := hphase.applies hbought
    have hlost : Sample.queuedNote "3" (processCreditNotes exactPlatform
        (listingOf exactPlatform Sample.oneNumber.inventoryBook Sample.good
          9).goodAccountCreditNoteTransactionsMap.entries
        (listingOf exactPlatform Sample.oneNumber.inventoryBook Sample.good
          9).goodAccountPurchaseTransactionsMap {}) = none := by
      decide +kernel
    have hchecked := happlied.checked (Sample.purchase "1" "P1" 1 10 100) (by decide +kernel)
      (Sample.creditNote "3" "C1" "P1" 2 2) (by decide +kernel) rfl
    rw [Option.getD_none, show (Sample.env 9).today = 9 from rfl] at hloop
    rw [hloop] at hlost
    exact Option.some_ne_none _ (hchecked.symm.trans hlost)

/-- Under numbers of their own all returns are applied. -/
theorem credit_note_phase_iff_sample :
    CreditNotePhase exactPlatform Sample.collection (Sample.env 9) Sample.twoNumbers "a-widgets"
      none Sample.good := by
  have hwf : WellFormed Sample.twoNumbers.inventoryBook := ⟨by decide, by decide⟩
  have hpassed : Passed exactPlatform Sample.twoNumbers "a-widgets" 9 Sample.good :=
    ⟨by rfl, by decide, by decide, by decide +kernel, by decide +kernel, by decide +kernel⟩
  have hlisting : Returnable exactPlatform
      (listTransactions Sample.twoNumbers.inventoryBook Sample.good 9) :=
    ⟨by unfold PositiveListing; decide +kernel, by decide +kernel, by decide +kernel,
      fun _ _ => rfl⟩
  have hkept : NotesKept (listTransactions Sample.twoNumbers.inventoryBook Sample.good 9) := by
    decide +kernel
  exact (credit_note_phase_iff exactPlatform_keepsSign hwf (by rfl) hpassed hlisting).2
    (Or.inr hkept)

end InventoryBot.Menu
