import InventoryBot.Bkper.Json
import InventoryBot.Menu.ResetRoundTrip
import InventoryBot.Menu.SettledSales

/-!
# The recorded adjustments of a purchase

Each sale that takes of a purchase writes the additional costs and the credit notes of the
purchase to its properties. The books do not remember what has been folded into the cost before,
so a ledger beside them does: it is filled in as the loops of the runs go on.

* `Adjustments`, `ledgerAfterRun`: what was done to each purchase since the last reset.
* `processPurchases_touched`: what a sale writes to the purchases it takes of.
* `Adjusted`: what a purchase shows of its adjustments, in every state and at every sale.
* `adjustments_recorded_iff`: the sales after which the two properties tell the truth.
-/

namespace InventoryBot.Menu

open Lib CostOfSalesService

/-! ## The ledger -/

/-- What has been done to a purchase since the last reset: how many sales took of it, what was
    folded into its cost, and the quantities of the credit notes and of the sales. -/
structure Adjustments where
  touches : ℕ := 0
  additionalCosts : ℚ := 0
  creditNotesAmount : ℚ := 0
  creditNotesQuantity : ℚ := 0
  soldQuantity : ℚ := 0

/-- Credit notes of some quantity are applied to the purchase. -/
def Adjustments.credit (quantity : ℚ) (a : Adjustments) : Adjustments :=
  { a with creditNotesQuantity := a.creditNotesQuantity + quantity }

/-- A sale folds some amounts into the cost of the purchase and takes a quantity of it. -/
def Adjustments.touch (amounts : LinkedAmounts) (quantity : ℚ) (a : Adjustments) : Adjustments :=
  { a with
    touches := a.touches + 1
    additionalCosts := a.additionalCosts + amounts.additionalCosts
    creditNotesAmount := a.creditNotesAmount + amounts.creditNotesAmount
    soldQuantity := a.soldQuantity + quantity }

/-- The two properties of a purchase record its adjustments. -/
def Recorded (P : Platform) (a : Adjustments) (p : Transaction) : Prop :=
  p.additionalCosts = some a.additionalCosts ∧ p.creditNote =
    some (P.creditNoteJson (P.toNumber a.creditNotesQuantity) (P.toNumber a.creditNotesAmount))

/-- The quantity that the loop over the credit notes takes off the purchase with a code. -/
def creditedQuantity (P : Platform) (code : Option String)
    (notes : List (Option String × Transaction)) : ℚ :=
  ((notes.filter fun e => decide (e.2.purchaseCode = code)).map fun e =>
    P.toNumber e.2.amount).sum

/-- The ledger after the loop over the credit notes. -/
def ledgerAfterNotes (P : Platform) (notes : List (Option String × Transaction))
    (purchases : OrderedMap (Option String) Transaction) (ledger : String → Adjustments) :
    String → Adjustments := fun id =>
  match purchases.values.find? (·.id == id) with
  | some p => (ledger id).credit (creditedQuantity P p.purchaseCode notes)
  | none => ledger id

/-- The ledger after a sale that gathered the entries of its log from the purchases `ps`. -/
def ledgerAfterSale (P : Platform) (fb : Book) (ps : List Transaction)
    (entries : List PurchaseLogEntry) (ledger : String → Adjustments) : String → Adjustments :=
  fun id =>
    match ps.find? (·.id == id), entries.find? (·.id == id) with
    | some p, some entry =>
      (ledger id).touch ((unfoldedAmounts P fb p).toOption.getD {}) entry.qt
    | _, _ => ledger id

/-- The ledger after the loop over some sales, where it runs to its end. -/
def ledgerAfterSales (P : Platform) (env : RunEnv) (fb ib : Book) :
    List Transaction → List Transaction → CalculateCostOfSalesProcessor →
      (String → Adjustments) → String → Adjustments
  | [], _, _, ledger => ledger
  | sale :: rest, ps, processor, ledger =>
    match processPurchases P env fb sale ps
        { soldQuantity := sale.amount, processor := processor },
      processSale P env fb ib sale ps processor with
    | .ok (_, st), .ok (ps', processor') =>
      ledgerAfterSales P env fb ib rest ps' processor'
        (ledgerAfterSale P fb ps st.purchaseLogEntries ledger)
    | _, _ => ledger

/-- The ledger after a calculation. -/
def ledgerAfterRun (P : Platform) (collection : Option (List BookInfo)) (env : RunEnv) (s : State)
    (goodAccountId : String) (toDate : Option Date) (ledger : String → Adjustments) :
    String → Adjustments :=
  match planCalculation P collection env s goodAccountId toDate with
  | .ok (.fire goodAccount sales _) =>
    let l := listingOf P s.inventoryBook goodAccount (toDate.getD env.today)
    let notes := l.goodAccountCreditNoteTransactionsMap.entries
    match processCreditNotes P notes l.goodAccountPurchaseTransactionsMap {} with
    | .ok (.done purchases processor) =>
      ledgerAfterSales P env (costOfSalesBook env s) s.inventoryBook sales
        (BotService.sortFIFO P purchases.values) processor
        (ledgerAfterNotes P notes l.goodAccountPurchaseTransactionsMap ledger)
    | _ => ledger
  | .ok .reset =>
    if (resetCostOfSalesForAccount P collection s goodAccountId).2 = .returned .resetingAsync then
      fun _ => {}
    else ledger
  | _ => ledger

/-! ## What a purchase shows of its adjustments -/

/-- What holds of a purchase and its adjustments between the sales: it is marked as soon as a sale
    has touched it, and an unchecked one lacks what was credited and sold. -/
structure Adjusted (p : Transaction) (a : Adjustments) : Prop where
  marked : Unprocessed p ↔ a.touches = 0
  untouched : a.touches = 0 →
    a.additionalCosts = 0 ∧ a.creditNotesAmount = 0 ∧ a.soldQuantity = 0
  quantity : p.checked = false → ∃ originalQuantity, p.originalQuantity = some originalQuantity ∧
    originalQuantity - p.amount = a.creditNotesQuantity + a.soldQuantity

section Sale

variable {P : Platform} {env : RunEnv} {fb ib : Book}

/-- How a sale leaves a purchase that it takes `quantity` of. -/
inductive Touched (P : Platform) (fb : Book) (sale p : Transaction) (quantity : ℚ) :
    LinkedAmounts → Transaction → Prop
  | taken {recorded cost : ℚ} {amounts : LinkedAmounts} (hopen : p.checked = false)
      (hrecorded : RecordedQuantity P p recorded) (hvalued : Valued P fb p amounts cost)
      (hquantity : quantity = p.amount) :
      Touched P fb sale p quantity amounts (taken P sale p recorded cost amounts)
  | reduced {recorded cost : ℚ} {amounts : LinkedAmounts} (hopen : p.checked = false)
      (hrecorded : RecordedQuantity P p recorded) (hvalued : Valued P fb p amounts cost) :
      Touched P fb sale p quantity amounts (reduced P p quantity recorded cost amounts)

/-- One purchase is touched, and logged with what was taken of it. -/
theorem processPurchase_touched {sale p p' : Transaction} {st st' : SaleLoop}
    (h : processPurchase P env fb sale p st = .ok (p', st')) (hopen : p.checked = false) :
    ∃ entry amounts, st'.purchaseLogEntries = st.purchaseLogEntries ++ [entry] ∧
      entry.id = p.id ∧ Touched P fb sale p entry.qt amounts p' := by
  obtain ⟨recorded, cost, amounts, hrecorded, hvalued, -, hcase⟩ := processPurchase_cases h
  rcases hcase with ⟨-, rfl, rfl⟩ | ⟨-, code, -, rfl, rfl⟩
  · exact ⟨_, amounts, rfl, rfl, .taken hopen hrecorded hvalued rfl⟩
  · exact ⟨_, amounts, rfl, rfl, .reduced hopen hrecorded hvalued⟩

/-- A purchase after a sale that logged `entries`: touched if it is in the log, as before if it is
    not. -/
def AfterSale (P : Platform) (fb : Book) (sale : Transaction) (entries : List PurchaseLogEntry)
    (p p' : Transaction) : Prop :=
  p'.id = p.id ∧ match entries.find? (·.id == p.id) with
    | some entry => ∃ amounts, Touched P fb sale p entry.qt amounts p'
    | none => p' = p

theorem afterSale_of_absent {sale p : Transaction} {entries : List PurchaseLogEntry}
    (h : ∀ e ∈ entries, e.id ≠ p.id) : AfterSale P fb sale entries p p := by
  have hnone : entries.find? (·.id == p.id) = none :=
    List.find?_eq_none.2 fun e he => by simpa using h e he
  unfold AfterSale
  rw [hnone]
  exact ⟨rfl, rfl⟩

theorem AfterSale.cons {sale p p' : Transaction} {entries : List PurchaseLogEntry}
    {entry : PurchaseLogEntry} (h : AfterSale P fb sale entries p p') (hother : entry.id ≠ p.id) :
    AfterSale P fb sale (entry :: entries) p p' := by
  have hfind : (entry :: entries).find? (·.id == p.id) = entries.find? (·.id == p.id) :=
    List.find?_cons_of_neg (by simpa using hother)
  unfold AfterSale
  rw [hfind]
  exact h

/-- The loop over the purchases touches those that it logs, once each, and no others. -/
theorem processPurchases_touched {sale : Transaction} :
    ∀ {ps ps' : List Transaction} {st st' : SaleLoop},
      processPurchases P env fb sale ps st = .ok (ps', st') → (ps.map Transaction.id).Nodup →
      ∃ entries, st'.purchaseLogEntries = st.purchaseLogEntries ++ entries ∧
        (∀ e ∈ entries, e.id ∈ ps.map Transaction.id) ∧
        ∀ p' ∈ ps', ∃ p ∈ ps, AfterSale P fb sale entries p p' := by
  intro ps
  induction ps with
  | nil =>
    intro ps' st st' h _
    cases h
    exact ⟨[], (List.append_nil _).symm, by simp, by simp⟩
  | cons p ps ih =>
    intro ps' st st' h hnodup
    rw [List.map_cons, List.nodup_cons] at hnodup
    have hother : ∀ q ∈ ps, p.id ≠ q.id := fun q hq hid =>
      hnodup.1 (hid ▸ List.mem_map_of_mem hq)
    rcases processPurchases_cons h with ⟨-, qs, hrest, rfl⟩ | ⟨hopen, p₁, st₁, hone, hend⟩
    · -- a checked purchase is passed over
      obtain ⟨entries, hlog, hids, htouched⟩ := ih hrest hnodup.2
      refine ⟨entries, hlog, fun e he => List.mem_cons_of_mem _ (hids e he), ?_⟩
      intro p' hp'
      rcases List.mem_cons.1 hp' with rfl | hp'
      · refine ⟨p', List.mem_cons_self, afterSale_of_absent fun e he hid => hnodup.1 ?_⟩
        exact hid ▸ hids e he
      · obtain ⟨q, hq, hafter⟩ := htouched p' hp'
        exact ⟨q, List.mem_cons_of_mem _ hq, hafter⟩
    · obtain ⟨entry, amounts, hlog, hentry, htouched⟩ := processPurchase_touched hone hopen
      have hid : p₁.id = p.id := by cases htouched <;> rfl
      have hfirst : ∀ entries, AfterSale P fb sale (entry :: entries) p p₁ := by
        intro entries
        unfold AfterSale
        rw [List.find?_cons_of_pos (by simpa using hentry)]
        exact ⟨hid, amounts, htouched⟩
      rcases hend with ⟨-, rfl, rfl⟩ | ⟨-, qs, hrest, rfl⟩
      · -- the sale is served
        refine ⟨[entry], hlog, ?_, ?_⟩
        · intro e he
          rw [List.mem_singleton.1 he, hentry]
          exact List.mem_cons_self
        · intro p' hp'
          rcases List.mem_cons.1 hp' with rfl | hp'
          · exact ⟨p, List.mem_cons_self, hfirst []⟩
          · refine ⟨p', List.mem_cons_of_mem _ hp', afterSale_of_absent fun e he => ?_⟩
            rw [List.mem_singleton.1 he, hentry]
            exact hother p' hp'
      · obtain ⟨entries, hlog', hids, htouched'⟩ := ih hrest hnodup.2
        refine ⟨entry :: entries, ?_, ?_, ?_⟩
        · rw [hlog', hlog, List.append_assoc]
          rfl
        · intro e he
          rcases List.mem_cons.1 he with rfl | he
          · exact hentry ▸ List.mem_cons_self
          · exact List.mem_cons_of_mem _ (hids e he)
        · intro p' hp'
          rcases List.mem_cons.1 hp' with rfl | hp'
          · exact ⟨p, List.mem_cons_self, hfirst entries⟩
          · obtain ⟨q, hq, hafter⟩ := htouched' p' hp'
            exact ⟨q, List.mem_cons_of_mem _ hq, hafter.cons (hentry ▸ hother q hq)⟩

/-! ## One purchase -/

/-- The amounts that a sale folds in, and what it writes of them. -/
theorem Touched.written {sale p p' : Transaction} {quantity : ℚ} {amounts : LinkedAmounts}
    (h : Touched P fb sale p quantity amounts p') :
    p.checked = false ∧ unfoldedAmounts P fb p = .ok amounts ∧
      p'.additionalCosts = some amounts.additionalCosts ∧
      ∃ recorded, RecordedQuantity P p recorded ∧ p'.creditNote =
        some (P.creditNoteJson recorded (P.toNumber amounts.creditNotesAmount)) := by
  cases h with
  | @taken recorded cost _ hopen hrecorded hvalued =>
    exact ⟨hopen, hvalued.unfolded, rfl, recorded, hrecorded, rfl⟩
  | @reduced recorded cost _ hopen hrecorded hvalued =>
    exact ⟨hopen, hvalued.unfolded, rfl, recorded, hrecorded, rfl⟩

/-- A sale that touches a purchase keeps what the purchase shows of its adjustments. -/
theorem Adjusted.touched {sale p p' : Transaction} {a : Adjustments} {quantity : ℚ}
    {amounts : LinkedAmounts} (h : Adjusted p a) (ht : Touched P fb sale p quantity amounts p') :
    Adjusted p' (a.touch amounts quantity) where
  marked := by
    refine iff_of_false ?_ (Nat.succ_ne_zero _)
    cases ht <;> exact markProcessed_processed _
  untouched := fun hzero => absurd hzero (Nat.succ_ne_zero _)
  quantity := by
    intro hopen
    cases ht with
    | taken => cases hopen
    | reduced hunchecked =>
      obtain ⟨originalQuantity, horiginal, hbefore⟩ := h.quantity hunchecked
      refine ⟨originalQuantity, horiginal, ?_⟩
      show originalQuantity - (p.amount - quantity) = a.creditNotesQuantity +
        (a.soldQuantity + quantity)
      linarith

/-- A credit note keeps what the purchase shows of its adjustments. -/
theorem Adjusted.credit {p : Transaction} {a : Adjustments} (h : Adjusted p a) (quantity : ℚ) :
    Adjusted { p with amount := p.amount - quantity } (a.credit quantity) where
  marked := h.marked
  untouched := h.untouched
  quantity := by
    intro hopen
    obtain ⟨originalQuantity, horiginal, hbefore⟩ := h.quantity hopen
    refine ⟨originalQuantity, horiginal, ?_⟩
    show originalQuantity - (p.amount - quantity) = a.creditNotesQuantity + quantity +
      a.soldQuantity
    linarith

/-- A purchase as it was posted, with nothing done to it. -/
theorem adjusted_posted {p : Transaction} (hmark : Unprocessed p)
    (hquantity : p.originalQuantity = some p.amount) : Adjusted p {} where
  marked := iff_of_true hmark rfl
  untouched := fun _ => ⟨rfl, rfl, rfl⟩
  quantity := by
    refine fun _ => ⟨p.amount, hquantity, ?_⟩
    show p.amount - p.amount = 0 + 0
    ring

/-- Nothing was done to a purchase before that this sale could misstate: it is the first one, or
    the earlier ones folded in nothing and took nothing. -/
def NothingBefore (P : Platform) (a : Adjustments) : Prop :=
  a.touches = 0 ∨
    (a.additionalCosts = 0 ∧ P.toNumber a.creditNotesAmount = P.toNumber 0 ∧
      P.toNumber (a.creditNotesQuantity + a.soldQuantity) = P.toNumber a.creditNotesQuantity)

/-- A sale records the adjustments of a purchase that it touches exactly if nothing was done to the
    purchase before. -/
theorem Touched.recorded_iff (hP : P.RecordsReadable) {sale p p' : Transaction} {a : Adjustments}
    {quantity : ℚ} {amounts : LinkedAmounts} (ht : Touched P fb sale p quantity amounts p')
    (h : Adjusted p a) :
    Recorded P (a.touch amounts quantity) p' ↔ NothingBefore P a := by
  obtain ⟨hopen, hunfolded, hcosts, recorded, ⟨original, hnew, hrecorded⟩, hnote⟩ := ht.written
  obtain ⟨originalQuantity, horiginal, hbefore⟩ := h.quantity hopen
  rw [horiginal] at hnew
  obtain rfl : originalQuantity = original := Except.ok.inj hnew
  rw [hbefore] at hrecorded
  unfold Recorded NothingBefore
  rw [hcosts, hnote, hrecorded]
  by_cases hfirst : a.touches = 0
  · obtain ⟨hadditional, hcredit, hsold⟩ := h.untouched hfirst
    refine iff_of_true ?_ (Or.inl hfirst)
    simp [Adjustments.touch, hadditional, hcredit, hsold]
  · -- a later sale fetches nothing and takes what was sold for credited
    have hnothing : unfoldedAmounts P fb p = .ok {} := if_neg (mt h.marked.1 hfirst)
    rw [hnothing] at hunfolded
    cases hunfolded
    have hsame : (a.touch {} quantity).additionalCosts = a.additionalCosts := add_zero _
    have hsame' : (a.touch {} quantity).creditNotesAmount = a.creditNotesAmount := add_zero _
    rw [hsame, hsame']
    constructor
    · rintro ⟨hadditional, hjson⟩
      obtain ⟨hquantity, hamount⟩ := hP _ _ _ _ (Option.some.inj hjson)
      exact Or.inr ⟨(Option.some.inj hadditional).symm, hamount.symm, hquantity⟩
    · rintro (hzero | ⟨hadditional, hamount, hquantity⟩)
      · exact absurd hzero hfirst
      · refine ⟨by rw [hadditional], ?_⟩
        rw [hquantity, hamount]
        rfl

/-! ## The loops of a run -/

/-- The ledger and the purchases after a sale go together. -/
theorem AfterSale.adjusted {sale p p' : Transaction} {ps : List Transaction}
    {entries : List PurchaseLogEntry} {ledger : String → Adjustments}
    (h : AfterSale P fb sale entries p p') (hids : (ps.map Transaction.id).Nodup) (hp : p ∈ ps)
    (ha : Adjusted p (ledger p.id)) :
    Adjusted p' (ledgerAfterSale P fb ps entries ledger p'.id) := by
  obtain ⟨hid, hafter⟩ := h
  rw [hid]
  unfold ledgerAfterSale
  rw [find?_key hids hp rfl]
  cases hentry : entries.find? (·.id == p.id) with
  | none =>
    rw [hentry] at hafter
    exact hafter ▸ ha
  | some entry =>
    rw [hentry] at hafter
    obtain ⟨amounts, htouched⟩ := hafter
    obtain ⟨-, hunfolded, -⟩ := htouched.written
    simp only [hunfolded]
    exact ha.touched htouched

theorem ledgerAfterSale_of_absent {ps : List Transaction} {entries : List PurchaseLogEntry}
    {ledger : String → Adjustments} {id : String} (h : id ∉ ps.map Transaction.id) :
    ledgerAfterSale P fb ps entries ledger id = ledger id := by
  have hnone : ps.find? (·.id == id) = none := by
    refine List.find?_eq_none.2 fun p hp hid => h ?_
    exact (beq_iff_eq.1 hid) ▸ List.mem_map_of_mem hp
  unfold ledgerAfterSale
  rw [hnone]

/-- The loop over the sales keeps what the purchases show of their adjustments. -/
theorem processSales_adjusted :
    ∀ {sales ps ps' : List Transaction} {processor processor' : CalculateCostOfSalesProcessor}
      {ledger : String → Adjustments},
      processSales P env fb ib sales ps processor = .ok (some (ps', processor')) →
      (ps.map Transaction.id).Nodup → (∀ p ∈ ps, Adjusted p (ledger p.id)) →
      ps'.map Transaction.id = ps.map Transaction.id ∧
        (∀ p ∈ ps', Adjusted p (ledgerAfterSales P env fb ib sales ps processor ledger p.id)) ∧
        ∀ id, id ∉ ps.map Transaction.id →
          ledgerAfterSales P env fb ib sales ps processor ledger id = ledger id := by
  intro sales
  induction sales with
  | nil =>
    intro ps ps' processor processor' ledger h _ hps
    cases h
    exact ⟨rfl, hps, fun _ _ => rfl⟩
  | cons sale sales ih =>
    intro ps ps' processor processor' ledger h hids hps
    obtain ⟨qs, processor₁, hsale, -, h⟩ := processSales_cons.1 h
    obtain ⟨st, hloop, -⟩ := processSale_cases hsale
    obtain ⟨entries, hlog, -, htouched⟩ := processPurchases_touched hloop hids
    have hlog : st.purchaseLogEntries = entries := hlog
    have hqids := processPurchases_ids hloop
    have hqs : ∀ q ∈ qs, Adjusted q (ledgerAfterSale P fb ps entries ledger q.id) := by
      intro q hq
      obtain ⟨p, hp, hafter⟩ := htouched q hq
      exact hafter.adjusted hids hp (hps p hp)
    obtain ⟨hids', hadjusted, hrest⟩ := ih h (hqids ▸ hids) hqs
    have hunfold : ledgerAfterSales P env fb ib (sale :: sales) ps processor ledger =
        ledgerAfterSales P env fb ib sales qs processor₁
          (ledgerAfterSale P fb ps entries ledger) := by
      rw [ledgerAfterSales, hloop, hsale, ← hlog]
    rw [hunfold]
    refine ⟨hids'.trans hqids, hadjusted, fun id hid => ?_⟩
    rw [hrest id (hqids ▸ hid), ledgerAfterSale_of_absent hid]

/-- What the loop over the credit notes leaves of the purchases. -/
theorem processCreditNotes_credited :
    ∀ {notes : List (Option String × Transaction)}
      {purchases purchases' : OrderedMap (Option String) Transaction}
      {processor processor' : CalculateCostOfSalesProcessor},
      processCreditNotes P notes purchases processor = .ok (.done purchases' processor') →
      ∀ k, purchases'.get k = (purchases.get k).map fun p =>
        { p with amount := p.amount - creditedQuantity P k notes } := by
  intro notes
  induction notes with
  | nil =>
    intro purchases purchases' processor processor' h k
    cases h
    simp [creditedQuantity]
  | cons e notes ih =>
    obtain ⟨number, note⟩ := e
    intro purchases purchases' processor processor' h k
    have hcons : creditedQuantity P k ((number, note) :: notes) =
        (if note.purchaseCode = k then P.toNumber note.amount else 0) +
          creditedQuantity P k notes := by
      unfold creditedQuantity
      by_cases hk : note.purchaseCode = k
      · rw [List.filter_cons_of_pos (by simpa using hk), if_pos hk, List.map_cons, List.sum_cons]
      · rw [List.filter_cons_of_neg (by simpa using hk), if_neg hk, zero_add]
    rw [hcons]
    rcases processCreditNotes_cons h with ⟨hnone, h⟩ | ⟨p, code, hp, hcode, -, h⟩
    · -- the purchase of the credit note is not listed
      rw [ih h k]
      by_cases hk : note.purchaseCode = k
      · rw [← hk, hnone]
        rfl
      · rw [if_neg hk, zero_add]
    · rw [ih h k, OrderedMap.get_set]
      by_cases hk : k = some code
      · rw [if_pos hk, hk, hp, if_pos hcode]
        simp [credited, sub_sub]
      · rw [if_neg hk, if_neg fun he => hk (he.symm.trans hcode), zero_add]

/-- The loop over the credit notes keeps what the purchases show of their adjustments. -/
theorem processCreditNotes_adjusted {notes : List (Option String × Transaction)}
    {purchases purchases' : OrderedMap (Option String) Transaction}
    {processor processor' : CalculateCostOfSalesProcessor} {ledger : String → Adjustments}
    (h : processCreditNotes P notes purchases processor = .ok (.done purchases' processor'))
    (hids : (purchases.values.map Transaction.id).Nodup)
    (hcode : ∀ k p, purchases.get k = some p → p.purchaseCode = k)
    (hps : ∀ p ∈ purchases.values, Adjusted p (ledger p.id)) :
    ∀ p ∈ purchases'.values, Adjusted p (ledgerAfterNotes P notes purchases ledger p.id) := by
  intro p hp
  obtain ⟨k, hk⟩ := OrderedMap.mem_values_iff.1 hp
  rw [processCreditNotes_credited h k, Option.map_eq_some_iff] at hk
  obtain ⟨q, hq, rfl⟩ := hk
  have hmem := OrderedMap.mem_values_of_get hq
  have hledger : ledgerAfterNotes P notes purchases ledger q.id =
      (ledger q.id).credit (creditedQuantity P k notes) := by
    unfold ledgerAfterNotes
    rw [find?_key hids hmem rfl, ← hcode k q hq]
  show Adjusted _ (ledgerAfterNotes P notes purchases ledger q.id)
  rw [hledger]
  exact (hps q hmem).credit _

theorem ledgerAfterNotes_of_absent {notes : List (Option String × Transaction)}
    {purchases : OrderedMap (Option String) Transaction} {ledger : String → Adjustments}
    {id : String} (h : id ∉ purchases.values.map Transaction.id) :
    ledgerAfterNotes P notes purchases ledger id = ledger id := by
  have hnone : purchases.values.find? (·.id == id) = none := by
    refine List.find?_eq_none.2 fun p hp hid => h ?_
    exact (beq_iff_eq.1 hid) ▸ List.mem_map_of_mem hp
  unfold ledgerAfterNotes
  rw [hnone]

end Sale

/-! ## The rows of the account -/

/-- What every state of a history has of the rows of the account. -/
structure AccountState (goodAccountId account : String) (s : State) : Prop where
  wellFormed : WellFormed s.inventoryBook
  found : ∃ a, s.inventoryBook.getAccount goodAccountId = some a ∧ a.name = account
  rows : ∀ t ∈ s.inventoryBook.transactions, t.moves account → AccountRow t
  roots : ∀ t ∈ s.inventoryBook.transactions, t.moves account → BotService.isPurchase t →
    t.checked = false → t.parentId = none

section States

variable {P : Platform} {collection : Option (List BookInfo)} {env : RunEnv} {s s' : State}
  {goodAccountId account : String} {goodAccount : Account} {toDate : Option Date} {d : Desk}

/-- A transaction that is unchecked after it was rewritten was so before. -/
theorem unchecked_of_trace {t t' : Transaction} (h : Relation.ReflTransGen (Written P) t t')
    (hopen : t'.checked = false) : t.checked = false := by
  rcases Relation.ReflTransGen.cases_head h with rfl | ⟨u, hw, -⟩
  · exact hopen
  · exact hw.unchecked

/-- A calculation keeps the rows of the account. -/
theorem CalculationFires.accountState {before : Date} {closes : ℚ → Prop} (hfresh : env.Fresh s)
    (hs : AccountState goodAccountId goodAccount.name s)
    (h : CalculationFires P env s goodAccountId before closes goodAccount d s') :
    AccountState goodAccountId goodAccount.name s' := by
  obtain ⟨a', ha', hsame', -⟩ := h.account
  have hrows : ∀ t ∈ s.inventoryBook.transactions, t.moves goodAccount.name →
      AccountRow t ∧ OneSided t := fun t ht hmoves =>
    ⟨hs.rows t ht hmoves, hs.wellFormed.oneSided h.passed.account h.passed.notIncoming
      h.passed.notOutgoing ht hmoves⟩
  obtain ⟨hstored, -⟩ := moves_rows hs.wellFormed.ids hrows h.moves
  refine ⟨h.wellFormed hs.wellFormed hfresh, ⟨a', ha', hsame'.name⟩, ?_, ?_⟩
  · intro t ht hmoves
    rcases h.mem_cases ht with ⟨hst, -⟩ | ⟨k, u, -, rfl, p, hp, hsplit, hkind⟩
    · exact (hstored t hst hmoves).1
    · have hpm : p.moves goodAccount.name := (hsplit.moves goodAccount.name).symm.trans hmoves
      exact (hs.rows p hp hpm).split hfresh hsplit hkind
  · intro t ht hmoves hkind hopen
    rcases h.mem_cases ht with ⟨-, t₀, ht₀, htrace⟩ | ⟨k, u, -, rfl, p, hp, hsplit, -⟩
    · have hsame := sameIdentity_of_trace htrace
      exact hsame.parentId.trans (hs.roots t₀ ht₀ (hsame.moves goodAccount.name ▸ hmoves)
        (hsame.isPurchase ▸ hkind) (unchecked_of_trace htrace hopen))
    · rw [show (Book.post (env.inventoryId k) env.now u).checked = u.checked from rfl,
        hsplit.checked] at hopen
      cases hopen

/-- A row of the account after a reset was not split off, and is as before any calculation. -/
theorem ResetDone.row (hs : AccountState goodAccountId goodAccount.name s)
    (h : ResetDone P s goodAccountId goodAccount s') {t' : Transaction}
    (ht' : t' ∈ s'.inventoryBook.transactions) (hmoves : t'.moves goodAccount.name) :
    ∃ t ∈ s.inventoryBook.transactions, t.moves goodAccount.name ∧ t.parentId = none ∧
      t' = baseRow t ∧ AccountRow t' := by
  obtain ⟨t, ht, hkept, rfl⟩ := h.mem ht'
  rw [(resetRow_sameIdentity P goodAccount.name t).moves] at hmoves
  have hrow := hs.rows t ht hmoves
  have hparent := hkept hmoves
  rw [resetTrash_eq hrow, Bool.not_eq_false', Option.isNone_iff_eq_none] at hparent
  exact ⟨t, ht, hmoves, hparent, resetRow_eq_baseRow hrow hparent hmoves, hrow.reset hmoves⟩

theorem baseRow_parentId (t : Transaction) : (baseRow t).parentId = t.parentId := by
  unfold baseRow
  split
  · rfl
  · split <;> rfl

/-- A reset keeps the rows of the account. -/
theorem ResetDone.accountState (hs : AccountState goodAccountId goodAccount.name s)
    (h : ResetDone P s goodAccountId goodAccount s') :
    AccountState goodAccountId goodAccount.name s' := by
  refine ⟨h.wellFormed hs.wellFormed, ⟨_, h.cleared, rfl⟩, ?_, ?_⟩
  · intro t' ht' hmoves
    obtain ⟨-, -, -, -, -, hrow⟩ := h.row hs ht' hmoves
    exact hrow
  · intro t' ht' hmoves _ _
    obtain ⟨t, -, -, hparent, rfl, -⟩ := h.row hs ht' hmoves
    exact (baseRow_parentId t).trans hparent

/-! ## Histories -/

/-- The books with the ledger of the adjustments. -/
structure AdjustmentHistory where
  state : State
  ledger : String → Adjustments

/-- What every state of a history has of the account and its ledger. -/
structure LedgerState (goodAccountId account : String) (h : AdjustmentHistory) : Prop where
  state : AccountState goodAccountId account h.state
  adjusted : ∀ p ∈ h.state.inventoryBook.transactions, p.moves account →
    p.originalQuantity.isSome → Adjusted p (h.ledger p.id)

/-- The listed purchases show their adjustments. -/
theorem LedgerState.listed {h : AdjustmentHistory} {before : Date}
    (hs : LedgerState goodAccountId goodAccount.name h)
    (hpassed : Passed P h.state goodAccountId before goodAccount) :
    ∀ p ∈ (listingOf P h.state.inventoryBook goodAccount
      before).goodAccountPurchaseTransactionsMap.values, Adjusted p (h.ledger p.id) := by
  obtain ⟨-, hpurchases, -⟩ := listing_mem P h.state goodAccount before
  intro p hp
  obtain ⟨k, hk⟩ := OrderedMap.mem_values_iff.1 hp
  obtain ⟨hin, hopen, -⟩ := hpurchases k p hk
  have hone := hs.state.wellFormed.oneSided hpassed.account hpassed.notIncoming
    hpassed.notOutgoing hin.stored hin.moves
  have hroot := hs.state.roots p hin.stored hin.moves hin.kind hopen
  refine hs.adjusted p hin.stored hin.moves ?_
  rcases ((hs.state.rows p hin.stored hin.moves).form.of_purchase hone hin.kind).2 with
    ⟨-, quantity, cost, hquantity, -⟩ | ⟨hparent, -⟩
  · simp [hquantity]
  · rw [hroot] at hparent
    cases hparent

/-- The purchases that a run hands on from one sale to the next show their adjustments. -/
theorem LedgerState.handedOn {h : AdjustmentHistory} {before : Date}
    {sales ps : List Transaction} {purchases : OrderedMap (Option String) Transaction}
    {processor processor' : CalculateCostOfSalesProcessor}
    (hs : LedgerState goodAccountId goodAccount.name h)
    (hpassed : Passed P h.state goodAccountId before goodAccount)
    (hnotes : processCreditNotes P (listingOf P h.state.inventoryBook goodAccount
        before).goodAccountCreditNoteTransactionsMap.entries
      (listingOf P h.state.inventoryBook goodAccount before).goodAccountPurchaseTransactionsMap {} =
        .ok (.done purchases processor))
    (hsales : processSales P env (costOfSalesBook env h.state) h.state.inventoryBook sales
      (BotService.sortFIFO P purchases.values) processor = .ok (some (ps, processor'))) :
    let l := listingOf P h.state.inventoryBook goodAccount before
    let ledger := ledgerAfterSales P env (costOfSalesBook env h.state) h.state.inventoryBook sales
      (BotService.sortFIFO P purchases.values) processor
      (ledgerAfterNotes P l.goodAccountCreditNoteTransactionsMap.entries
        l.goodAccountPurchaseTransactionsMap h.ledger)
    (ps.map Transaction.id).Nodup ∧ (∀ p ∈ ps, Adjusted p (ledger p.id)) ∧
      (∀ id, id ∈ ps.map Transaction.id ↔
        id ∈ l.goodAccountPurchaseTransactionsMap.values.map Transaction.id) ∧
      ∀ id, id ∉ ps.map Transaction.id → ledger id = h.ledger id := by
  intro l ledger
  have hwf := hs.state.wellFormed
  have hkind : ∀ t ∈ h.state.inventoryBook.transactions, t.moves goodAccount.name → OneKind t :=
    fun t ht hm => hwf.oneKind hpassed.account hpassed.notIncoming hpassed.notOutgoing ht hm
  obtain ⟨-, hpurchases, -⟩ := listing_mem P h.state goodAccount before
  have hids := (List.nodup_append.1 (notesInvariant_start P env before hwf.ids hkind).nodup).1
  obtain ⟨hpids, -⟩ := processCreditNotes_frame hnotes
  have hcredited := processCreditNotes_adjusted hnotes hids
    (fun k p hk => (hpurchases k p hk).2.2) (hs.listed hpassed)
  have hperm := (sortFIFO_perm (P := P) purchases.values).map Transaction.id
  obtain ⟨hids', hadjusted, hrest⟩ := processSales_adjusted hsales
    (hperm.nodup_iff.2 (hpids ▸ hids))
    fun p hp => hcredited p ((sortFIFO_perm _).mem_iff.1 hp)
  have hsame : ∀ id, id ∈ ps.map Transaction.id ↔
      id ∈ l.goodAccountPurchaseTransactionsMap.values.map Transaction.id := by
    intro id
    rw [hids', hperm.mem_iff, hpids]
  refine ⟨hids' ▸ hperm.nodup_iff.2 (hpids ▸ hids), hadjusted, hsame, fun id hid => ?_⟩
  rw [show ledger id = _ from hrest id (hids' ▸ hid)]
  exact ledgerAfterNotes_of_absent fun hmem => hid ((hsame id).2 hmem)

/-- A stored purchase that a run does not hand on is not queued for an update. -/
theorem unqueued_of_absent {before : Date} {ps : List Transaction}
    {purchases : OrderedMap (Option String) Transaction}
    {processor processor' : CalculateCostOfSalesProcessor} (hwf : WellFormed s.inventoryBook)
    (hpassed : Passed P s goodAccountId before goodAccount)
    (hnotes : processCreditNotes P
        (listingOf P s.inventoryBook goodAccount before).goodAccountCreditNoteTransactionsMap.entries
        (listingOf P s.inventoryBook goodAccount before).goodAccountPurchaseTransactionsMap {} =
          .ok (.done purchases processor))
    (hsales : processSales P env (costOfSalesBook env s) s.inventoryBook
        (BotService.sortFIFO P (listingOf P s.inventoryBook goodAccount
          before).goodAccountSaleTransactions)
        (BotService.sortFIFO P purchases.values) processor = .ok (some (ps, processor')))
    {t : Transaction} (ht : t ∈ s.inventoryBook.transactions) (hmoves : t.moves goodAccount.name)
    (hpurchase : BotService.isPurchase t)
    (habsent : t.id ∉ (listingOf P s.inventoryBook goodAccount
      before).goodAccountPurchaseTransactionsMap.values.map Transaction.id) :
    processor'.inventoryBookTransactionsToUpdateMap.get t.id = none := by
  have hone := hwf.oneSided hpassed.account hpassed.notIncoming hpassed.notOutgoing ht hmoves
  obtain ⟨hlistedSales, -, hlistedNotes⟩ := listing_mem P s goodAccount before
  obtain ⟨hpids, hframe⟩ := processCreditNotes_frame hnotes
  have hperm := (sortFIFO_perm (P := P) purchases.values).map Transaction.id
  rw [processSales_frame hsales, hframe t.id habsent, OrderedMap.get_empty]
  · intro hmem
    obtain ⟨e, he, hid⟩ := List.mem_map.1 hmem
    obtain ⟨hin, -⟩ := hlistedNotes e he
    obtain rfl : e.2 = t := List.inj_on_of_nodup_map hwf.ids hin.stored ht hid
    exact hone.not_creditNote hpurchase hin.kind
  · rw [hperm.mem_iff, hpids]
    exact habsent
  · intro hmem
    obtain ⟨sale, hsale, hid⟩ := List.mem_map.1 hmem
    obtain ⟨hin, -⟩ := hlistedSales sale ((sortFIFO_perm _).mem_iff.1 hsale)
    obtain rfl : sale = t := List.inj_on_of_nodup_map hwf.ids hin.stored ht hid
    exact hone.not_sale hpurchase hin.kind

/-- A calculation keeps the ledger. -/
theorem LedgerState.fired {h : AdjustmentHistory} {sales : List Transaction}
    {processor : CalculateCostOfSalesProcessor} (hfresh : env.Fresh h.state)
    (hs : LedgerState goodAccountId goodAccount.name h)
    (hplan : planCalculation P collection env h.state goodAccountId toDate =
      .ok (.fire goodAccount sales processor)) :
    LedgerState goodAccountId goodAccount.name
      ⟨(calculateCostOfSalesForAccount P collection env h.state goodAccountId toDate).1,
        ledgerAfterRun P collection env h.state goodAccountId toDate h.ledger⟩ := by
  have hwf := hs.state.wellFormed
  obtain ⟨hpassed, hlisting⟩ := planCalculation_fire hplan
  obtain ⟨d₁, hfires⟩ := calculation_fires (fun _ => True) hwf hfresh hplan
    fun _ _ _ => Or.inl fun _ => trivial
  have hkind : ∀ t ∈ h.state.inventoryBook.transactions, t.moves goodAccount.name → OneKind t :=
    fun t ht hm => hwf.oneKind hpassed.account hpassed.notIncoming hpassed.notOutgoing ht hm
  obtain ⟨purchases, processor₁, ps, d, hnotes, hsales, hmoved, hd⟩ :=
    planListing_end hwf.ids hkind hfresh.uuids hlisting
      fun _ _ _ => Or.inl fun q => (trivial : (fun _ : ℚ => True) q)
  obtain ⟨-, rfl, -⟩ := planListing_fire hlisting
  obtain ⟨-, hadjusted, hids, hrest⟩ := hs.handedOn hpassed hnotes hsales
  refine ⟨hfires.accountState hfresh hs.state, ?_⟩
  have hledger : ledgerAfterRun P collection env h.state goodAccountId toDate h.ledger =
      ledgerAfterSales P env (costOfSalesBook env h.state) h.state.inventoryBook
        (BotService.sortFIFO P (listingOf P h.state.inventoryBook goodAccount
          (toDate.getD env.today)).goodAccountSaleTransactions)
        (BotService.sortFIFO P purchases.values) processor₁
        (ledgerAfterNotes P (listingOf P h.state.inventoryBook goodAccount
            (toDate.getD env.today)).goodAccountCreditNoteTransactionsMap.entries
          (listingOf P h.state.inventoryBook goodAccount
            (toDate.getD env.today)).goodAccountPurchaseTransactionsMap h.ledger) := by
    unfold ledgerAfterRun
    rw [hplan]
    simp only [hnotes]
  intro p hp hmoves hquantity
  show Adjusted p (ledgerAfterRun P collection env h.state goodAccountId toDate h.ledger p.id)
  rw [hledger]
  have hstored : p ∈ d.stored := by
    have hp : p ∈ (calculateCostOfSalesForAccount P collection env h.state goodAccountId
        toDate).1.inventoryBook.transactions := hp
    rw [calculate_of_fire hplan, storeLastCalcTxDate_transactions,
      (fireBatchOperations_desk hd.coherent hfresh.inventoryIds).1] at hp
    refine (List.mem_append.1 hp).resolve_right fun hcreated => ?_
    obtain ⟨k, u, hu, rfl⟩ := Book.mem_postAll hcreated
    obtain ⟨q, -, hsplit, -⟩ := created_split hmoved hu
    have hsome : u.originalQuantity.isSome := hquantity
    rw [hsplit.originalQuantity] at hsome
    cases hsome
  by_cases hmem : p.id ∈ ps.map Transaction.id
  · -- the run has handed the purchase on to its end
    obtain ⟨q, hq, hid⟩ := List.mem_map.1 hmem
    have hnodup := hd.coherent.ids ▸ hwf.ids
    obtain rfl : q = p := List.inj_on_of_nodup_map hnodup (hd.offered q hq).stored hstored hid
    exact hadjusted q hq
  · -- the purchase is as it was before the run
    obtain ⟨t, ht, htrace⟩ := hmoved.stored_trace p hstored
    have hsame := sameIdentity_of_trace htrace
    rw [hsame.id] at hmem
    rw [hsame.moves] at hmoves
    rw [hsame.originalQuantity] at hquantity
    have hpurchase : BotService.isPurchase t := by
      cases (hs.state.rows t ht hmoves).form with
      | purchase hkind => exact hkind
      | sale _ _ hnone => simp [hnone] at hquantity
      | creditNote _ _ hnone => simp [hnone] at hquantity
      | split _ _ hnone => simp [hnone] at hquantity
    have hnone := unqueued_of_absent hwf hpassed hnotes hsales ht hmoves hpurchase
      (mt (hids t.id).2 hmem)
    rw [hd.coherent.stored] at hstored
    obtain ⟨u, hu, rfl⟩ := List.mem_map.1 hstored
    have hid := Book.updated_values_id hd.coherent.keyed u
    obtain rfl : u = t := List.inj_on_of_nodup_map hwf.ids hu ht (hid.symm.trans hsame.id)
    have hkept : Book.updated processor.inventoryBookTransactionsToUpdateMap.values u = u := by
      rw [Book.updated_values hd.coherent.keyed, hnone]
      rfl
    rw [hkept, hrest u.id hmem]
    exact hs.adjusted u ht hmoves hquantity

/-- A reset leaves purchases to which nothing was done. -/
theorem LedgerState.reset {h : AdjustmentHistory}
    (hs : LedgerState goodAccountId goodAccount.name h)
    (hdone : ResetDone P h.state goodAccountId goodAccount s') :
    LedgerState goodAccountId goodAccount.name ⟨s', fun _ => {}⟩ := by
  refine ⟨hdone.accountState hs.state, ?_⟩
  intro p hp hmoves hquantity
  obtain ⟨t, ht, htm, -, rfl, -⟩ := hdone.row hs.state hp hmoves
  have hoffer : (baseRow t).originalQuantity = t.originalQuantity := by
    unfold baseRow
    split
    · rfl
    · split <;> rfl
  rw [hoffer] at hquantity
  obtain ⟨quantity, hquantity⟩ := Option.isSome_iff_exists.1 hquantity
  rw [baseRow_of_quantity hquantity]
  exact adjusted_posted ⟨rfl, rfl⟩ hquantity

/-- What happens to the account: a calculation, a reset, a new transaction of the webhook, or any
    other change of the books that leaves the inventory transactions as they are. -/
inductive AdjustmentStep (P : Platform) (collection : Option (List BookInfo))
    (goodAccountId account : String) : AdjustmentHistory → AdjustmentHistory → Prop
  | calculate {h : AdjustmentHistory} (env : RunEnv) (toDate : Option Date)
      (hfresh : env.Fresh h.state) : AdjustmentStep P collection goodAccountId account h
        ⟨(calculateCostOfSalesForAccount P collection env h.state goodAccountId toDate).1,
          ledgerAfterRun P collection env h.state goodAccountId toDate h.ledger⟩
  | reset {h : AdjustmentHistory} (hdone : (resetCostOfSalesForAccount P collection h.state
        goodAccountId).2 = .returned .resetingAsync) :
      AdjustmentStep P collection goodAccountId account h
        ⟨(resetCostOfSalesForAccount P collection h.state goodAccountId).1, fun _ => {}⟩
  | replicate {h : AdjustmentHistory} {s' : State} {t : Transaction}
      (hreplicated : Events.Replicated t)
      (hinventory : s'.inventoryBook.transactions = h.state.inventoryBook.transactions ++ [t])
      (hwf : WellFormed s'.inventoryBook)
      (hfound : ∃ a, s'.inventoryBook.getAccount goodAccountId = some a ∧ a.name = account) :
      AdjustmentStep P collection goodAccountId account h
        ⟨s', Function.update h.ledger t.id {}⟩
  | change {h : AdjustmentHistory} {s' : State}
      (hinventory : s'.inventoryBook.transactions = h.state.inventoryBook.transactions)
      (hwf : WellFormed s'.inventoryBook)
      (hfound : ∃ a, s'.inventoryBook.getAccount goodAccountId = some a ∧ a.name = account) :
      AdjustmentStep P collection goodAccountId account h ⟨s', h.ledger⟩

/-- A purchase as the webhook posts it shows that nothing was done to it. -/
theorem adjusted_of_replicated {t : Transaction} (h : Events.Replicated t)
    (hquantity : t.originalQuantity.isSome) : Adjusted t {} := by
  cases h with
  | sale => cases hquantity
  | purchase => exact adjusted_posted ⟨rfl, rfl⟩ rfl
  | creditNote => cases hquantity

/-- A new transaction keeps the ledger. -/
theorem LedgerState.replicated {h : AdjustmentHistory} {t : Transaction}
    (hs : LedgerState goodAccountId account h) (hreplicated : Events.Replicated t)
    (hinventory : s'.inventoryBook.transactions = h.state.inventoryBook.transactions ++ [t])
    (hwf : WellFormed s'.inventoryBook)
    (hfound : ∃ a, s'.inventoryBook.getAccount goodAccountId = some a ∧ a.name = account) :
    LedgerState goodAccountId account ⟨s', Function.update h.ledger t.id {}⟩ := by
  have hmem : ∀ u ∈ s'.inventoryBook.transactions,
      (u ∈ h.state.inventoryBook.transactions ∧ u.id ≠ t.id) ∨ u = t := by
    intro u hu
    have hids := hwf.ids
    rw [hinventory] at hu hids
    rw [List.map_append, List.nodup_append] at hids
    refine (List.mem_append.1 hu).imp (fun hold => ⟨hold, fun hid => ?_⟩) List.mem_singleton.1
    exact hids.2.2 u.id (List.mem_map_of_mem hold) t.id (by simp) hid
  refine ⟨⟨hwf, hfound, ?_, ?_⟩, ?_⟩
  · intro u hu hmoves
    rcases hmem u hu with ⟨hold, -⟩ | rfl
    · exact hs.state.rows u hold hmoves
    · exact .of_replicated hreplicated
  · intro u hu hmoves hkind hopen
    rcases hmem u hu with ⟨hold, -⟩ | rfl
    · exact hs.state.roots u hold hmoves hkind hopen
    · cases hreplicated <;> rfl
  · intro u hu hmoves hquantity
    show Adjusted u (Function.update h.ledger t.id {} u.id)
    rcases hmem u hu with ⟨hold, hne⟩ | rfl
    · rw [Function.update_of_ne hne]
      exact hs.adjusted u hold hmoves hquantity
    · rw [Function.update_self]
      exact adjusted_of_replicated hreplicated hquantity

/-- Every step keeps the ledger. -/
theorem AdjustmentStep.ledgerState {h h' : AdjustmentHistory}
    (hstep : AdjustmentStep P collection goodAccountId account h h')
    (hs : LedgerState goodAccountId account h) : LedgerState goodAccountId account h' := by
  obtain ⟨a, ha, rfl⟩ := hs.state.found
  have hreset : (resetCostOfSalesForAccount P collection h.state goodAccountId).2 =
      .returned .resetingAsync → LedgerState goodAccountId a.name
        ⟨(resetCostOfSalesForAccount P collection h.state goodAccountId).1, fun _ => {}⟩ := by
    intro hdone
    rcases reset_cases (P := P) collection goodAccountId hs.state.wellFormed.ids with
      ⟨-, hother⟩ | ⟨-, goodAccount, hdone⟩
    · exact absurd hdone hother
    · obtain rfl : a = goodAccount := Option.some.inj (ha.symm.trans hdone.account)
      exact hs.reset hdone
  cases hstep with
  | calculate env toDate hfresh =>
    have hbooks : LedgerState goodAccountId a.name
        ⟨booksAfterPlan P collection env h.state goodAccountId toDate, h.ledger⟩ := by
      rcases booksAfterPlan_cases P collection env h.state goodAccountId toDate with hb | hb
      · rw [hb]
        exact hs
      · rw [hb]
        exact ⟨{ hs.state with }, hs.adjusted⟩
    cases hplan : planCalculation P collection env h.state goodAccountId toDate with
    | error e =>
      unfold calculateCostOfSalesForAccount ledgerAfterRun
      rw [hplan]
      exact hbooks
    | ok plan =>
      cases plan with
      | stop summary =>
        unfold calculateCostOfSalesForAccount ledgerAfterRun
        rw [hplan]
        exact hbooks
      | reset =>
        have hstate : (calculateCostOfSalesForAccount P collection env h.state goodAccountId
            toDate).1 = (resetCostOfSalesForAccount P collection h.state goodAccountId).1 := by
          unfold calculateCostOfSalesForAccount
          rw [hplan]
          dsimp only
          split <;> rename_i hr <;> rw [hr]
        have hledger : ledgerAfterRun P collection env h.state goodAccountId toDate h.ledger =
            if (resetCostOfSalesForAccount P collection h.state goodAccountId).2 =
              .returned .resetingAsync then fun _ => {} else h.ledger := by
          unfold ledgerAfterRun
          rw [hplan]
        rw [hstate, hledger]
        split
        · rename_i hdone
          exact hreset hdone
        · rename_i hother
          rcases reset_cases (P := P) collection goodAccountId hs.state.wellFormed.ids with
            ⟨hsame, -⟩ | ⟨hdone, -⟩
          · rw [hsame]
            exact hs
          · exact absurd hdone hother
      | fire goodAccount sales processor =>
        obtain ⟨hpassed, -⟩ := planCalculation_fire hplan
        obtain rfl : a = goodAccount := Option.some.inj (ha.symm.trans hpassed.account)
        exact hs.fired hfresh hplan
  | reset hdone => exact hreset hdone
  | replicate hreplicated hinventory hwf hfound =>
    exact hs.replicated hreplicated hinventory hwf hfound
  | change hinventory hwf hfound =>
    refine ⟨⟨hwf, hfound, ?_, ?_⟩, ?_⟩ <;> rw [hinventory]
    · exact hs.state.rows
    · exact hs.state.roots
    · exact hs.adjusted

/-- Every history keeps the ledger. -/
theorem ledgerState_of_steps {s₀ : State} {a : Account} (hwf : WellFormed s₀.inventoryBook)
    (ha : s₀.inventoryBook.getAccount goodAccountId = some a)
    (hposted : ∀ t ∈ s₀.inventoryBook.transactions, t.moves a.name → Events.Replicated t)
    {h : AdjustmentHistory} (hsteps : Relation.ReflTransGen
      (AdjustmentStep P collection goodAccountId a.name) ⟨s₀, fun _ => {}⟩ h) :
    LedgerState goodAccountId a.name h := by
  induction hsteps with
  | refl =>
    refine ⟨⟨hwf, ⟨a, ha, rfl⟩, ?_, ?_⟩, ?_⟩
    · exact fun t ht hmoves => .of_replicated (hposted t ht hmoves)
    · intro t ht hmoves _ _
      cases hposted t ht hmoves <;> rfl
    · exact fun t ht hmoves => adjusted_of_replicated (hposted t ht hmoves)
  | tail _ hstep ih => exact hstep.ledgerState ih

/-! ## The sales of a run -/

/-- The turn of a sale in a calculation that passed its guards: the purchases, the processor and
    the ledger that the loops before it leave. -/
structure SaleTurn (P : Platform) (env : RunEnv) (h : AdjustmentHistory) (goodAccountId : String)
    (goodAccount : Account) (toDate : Date) (sale : Transaction) (ps : List Transaction)
    (processor : CalculateCostOfSalesProcessor) (ledger : String → Adjustments) : Prop where
  passed : Passed P h.state goodAccountId toDate goodAccount
  loops : ∃ purchases processor₀ earlier later,
    processCreditNotes P (listingOf P h.state.inventoryBook goodAccount
        toDate).goodAccountCreditNoteTransactionsMap.entries
      (listingOf P h.state.inventoryBook goodAccount toDate).goodAccountPurchaseTransactionsMap {} =
        .ok (.done purchases processor₀) ∧
    BotService.sortFIFO P (listingOf P h.state.inventoryBook goodAccount
      toDate).goodAccountSaleTransactions = earlier ++ sale :: later ∧
    processSales P env (costOfSalesBook env h.state) h.state.inventoryBook earlier
      (BotService.sortFIFO P purchases.values) processor₀ = .ok (some (ps, processor)) ∧
    ledger = ledgerAfterSales P env (costOfSalesBook env h.state) h.state.inventoryBook earlier
      (BotService.sortFIFO P purchases.values) processor₀
      (ledgerAfterNotes P (listingOf P h.state.inventoryBook goodAccount
          toDate).goodAccountCreditNoteTransactionsMap.entries
        (listingOf P h.state.inventoryBook goodAccount toDate).goodAccountPurchaseTransactionsMap
        h.ledger)

/-- A loop over sales that runs to its end has processed each of them in its turn. -/
theorem processSales_turn {fb ib : Book} {sale : Transaction} {later : List Transaction} :
    ∀ {earlier ps qs : List Transaction} {processor processor' : CalculateCostOfSalesProcessor},
      processSales P env fb ib (earlier ++ sale :: later) ps processor =
        .ok (some (qs, processor')) →
      ∃ ps₁ processor₁ ps₂ processor₂,
        processSales P env fb ib earlier ps processor = .ok (some (ps₁, processor₁)) ∧
          processSale P env fb ib sale ps₁ processor₁ = .ok (ps₂, processor₂) := by
  intro earlier
  induction earlier with
  | nil =>
    intro ps qs processor processor' h
    obtain ⟨ps₂, processor₂, hsale, -⟩ := processSales_cons.1 h
    exact ⟨ps, processor, ps₂, processor₂, rfl, hsale⟩
  | cons first earlier ih =>
    intro ps qs processor processor' h
    obtain ⟨ps₀, processor₀, hfirst, hunlocked, h⟩ := processSales_cons.1 h
    obtain ⟨ps₁, processor₁, ps₂, processor₂, hearlier, hsale⟩ := ih h
    exact ⟨ps₁, processor₁, ps₂, processor₂,
      processSales_cons.2 ⟨ps₀, processor₀, hfirst, hunlocked, hearlier⟩, hsale⟩

/-- Every sale of a calculation that fires its batches has its turn. -/
theorem saleTurn_of_fire {h : AdjustmentHistory} {sales : List Transaction} {sale : Transaction}
    {processor : CalculateCostOfSalesProcessor}
    (hplan : planCalculation P collection env h.state goodAccountId toDate =
      .ok (.fire goodAccount sales processor)) (hmem : sale ∈ sales) :
    ∃ ps processor₁ ledger ps' processor₂,
      SaleTurn P env h goodAccountId goodAccount (toDate.getD env.today) sale ps processor₁ ledger ∧
        processSale P env (costOfSalesBook env h.state) h.state.inventoryBook sale ps processor₁ =
          .ok (ps', processor₂) := by
  obtain ⟨hpassed, hlisting⟩ := planCalculation_fire hplan
  obtain ⟨-, rfl, purchases, processor₀, qs, hnotes, hsales⟩ := planListing_fire hlisting
  obtain ⟨earlier, later, hsplit⟩ := List.append_of_mem hmem
  rw [hsplit] at hsales
  obtain ⟨ps, processor₁, ps', processor₂, hearlier, hsale⟩ := processSales_turn hsales
  exact ⟨ps, processor₁, _, ps', processor₂,
    ⟨hpassed, purchases, processor₀, earlier, later, hnotes, hsplit, hearlier, rfl⟩, hsale⟩

/-- **Recorded adjustments.** In every history of an account, at every sale of every calculation:
    a purchase that the sale takes of records the amounts that were folded into its cost since the
    last reset and the quantity of its credit notes exactly if nothing was done to it before. -/
theorem adjustments_recorded_iff (hP : P.RecordsReadable) {s₀ : State} {a : Account}
    (hwf : WellFormed s₀.inventoryBook) (ha : s₀.inventoryBook.getAccount goodAccountId = some a)
    (hposted : ∀ t ∈ s₀.inventoryBook.transactions, t.moves a.name → Events.Replicated t)
    {h : AdjustmentHistory} (hsteps : Relation.ReflTransGen
      (AdjustmentStep P collection goodAccountId a.name) ⟨s₀, fun _ => {}⟩ h)
    {before : Date} {sale : Transaction} {ps ps' : List Transaction}
    {processor processor' : CalculateCostOfSalesProcessor} {ledger : String → Adjustments}
    (hturn : SaleTurn P env h goodAccountId goodAccount before sale ps processor ledger)
    (hsale : processSale P env (costOfSalesBook env h.state) h.state.inventoryBook sale ps
      processor = .ok (ps', processor')) :
    ∃ st, processPurchases P env (costOfSalesBook env h.state) sale ps
        { soldQuantity := sale.amount, processor := processor } = .ok (ps', st) ∧
      ∀ p ∈ ps, ∀ p' ∈ ps', p'.id = p.id → (∃ entry ∈ st.purchaseLogEntries, entry.id = p.id) →
        (Recorded P (ledgerAfterSale P (costOfSalesBook env h.state) ps st.purchaseLogEntries ledger
            p.id) p' ↔
          NothingBefore P (ledger p.id)) := by
  have hs := ledgerState_of_steps hwf ha hposted hsteps
  obtain ⟨hpassed, purchases, processor₀, earlier, later, hnotes, -, hearlier, rfl⟩ := hturn
  obtain ⟨b, hb, hname⟩ := hs.state.found
  obtain rfl : b = goodAccount := Option.some.inj (hb.symm.trans hpassed.account)
  obtain ⟨hids, hadjusted, -⟩ := (hname ▸ hs).handedOn hpassed hnotes hearlier
  obtain ⟨st, hloop, -⟩ := processSale_cases hsale
  obtain ⟨entries, hlog, -, htouched⟩ := processPurchases_touched hloop hids
  have hlog : st.purchaseLogEntries = entries := hlog
  refine ⟨st, hloop, fun p hp p' hp' hid hlogged => ?_⟩
  rw [hlog] at hlogged ⊢
  obtain ⟨q, hq, hqid, hafter⟩ := htouched p' hp'
  obtain rfl : q = p := List.inj_on_of_nodup_map hids hq hp (hqid.symm.trans hid)
  cases hentry : entries.find? (·.id == q.id) with
  | none =>
    obtain ⟨entry, hmem, heid⟩ := hlogged
    exact absurd heid (by simpa using List.find?_eq_none.1 hentry entry hmem)
  | some entry =>
    rw [hentry] at hafter
    obtain ⟨amounts, htouch⟩ := hafter
    obtain ⟨-, hunfolded, -⟩ := htouch.written
    unfold ledgerAfterSale
    rw [find?_key hids hq rfl, hentry]
    simp only [hunfolded]
    exact htouch.recorded_iff hP (hadjusted q hq)

end States

namespace Sample

/-- The purchase of the sample account, with its additional cost and two sales. -/
def soldTwice : State :=
  state [purchase "1" "P1" 1 10 100, sale "2" "S1" 2 4 80, sale "3" "S2" 3 3 60]
    [additionalCost "9" "T1" "P1" 1 20]

theorem soldTwice_passed : Passed exactPlatform soldTwice good.id 9 good :=
  ⟨rfl, by decide, by decide, by decide +kernel, by decide +kernel, by decide +kernel⟩

theorem soldTwice_replicated : ∀ t ∈ soldTwice.inventoryBook.transactions,
    Events.Replicated t := by
  intro t ht
  rcases List.mem_cons.1 ht with rfl | ht
  · exact purchase_replicated _ _ _ _ (by decide)
  · rcases List.mem_cons.1 ht with rfl | ht
    · exact sale_replicated _ _ _ _ (by decide)
    · obtain rfl := List.mem_singleton.1 ht
      exact sale_replicated _ _ _ _ (by decide)

/-- The financial book that a calculation of the sample reads. -/
def soldTwiceBook : Book := costOfSalesBook (env 9) soldTwice

/-- The loops of the calculation before a sale, and that sale: what they leave is handed to `k`. -/
def turnOf (earlier : List Transaction) (sale : Transaction)
    (k : List Transaction → (String → Adjustments) → List Transaction → SaleLoop → Bool) : Bool :=
  let P := exactPlatform
  let l := listingOf P soldTwice.inventoryBook good 9
  let notes := l.goodAccountCreditNoteTransactionsMap.entries
  match processCreditNotes P notes l.goodAccountPurchaseTransactionsMap {} with
  | .ok (.done purchases processor₀) =>
    let ps₀ := BotService.sortFIFO P purchases.values
    match processSales P (env 9) soldTwiceBook soldTwice.inventoryBook earlier ps₀ processor₀ with
    | .ok (some (ps, processor)) =>
      let ledger := ledgerAfterSales P (env 9) soldTwiceBook soldTwice.inventoryBook earlier ps₀
        processor₀ (ledgerAfterNotes P notes l.goodAccountPurchaseTransactionsMap fun _ => {})
      match processPurchases P (env 9) soldTwiceBook sale ps
          { soldQuantity := sale.amount, processor := processor } with
      | .ok (ps', st) => k ps ledger ps' st
      | _ => false
    | _ => false
  | _ => false

/-- What is computed of a sale holds of its turn. -/
theorem saleTurn_of_turnOf {earlier later : List Transaction} {sale : Transaction}
    {k : List Transaction → (String → Adjustments) → List Transaction → SaleLoop → Bool}
    (hsorted : BotService.sortFIFO exactPlatform (listingOf exactPlatform soldTwice.inventoryBook
      good 9).goodAccountSaleTransactions = earlier ++ sale :: later)
    (h : turnOf earlier sale k = true) : ∃ ps processor ledger ps' processor' st,
      SaleTurn exactPlatform (env 9) ⟨soldTwice, fun _ => {}⟩ good.id good 9 sale ps processor
          ledger ∧
        processSale exactPlatform (env 9) soldTwiceBook soldTwice.inventoryBook sale ps processor =
          .ok (ps', processor') ∧
        processPurchases exactPlatform (env 9) soldTwiceBook sale ps
          { soldQuantity := sale.amount, processor := processor } = .ok (ps', st) ∧
        k ps ledger ps' st = true := by
  unfold turnOf at h
  simp only at h
  split at h
  · rename_i purchases processor₀ hnotes
    split at h
    · rename_i ps processor hearlier
      split at h
      · rename_i ps' st hloop
        have hsale : ∃ processor', processSale exactPlatform (env 9) soldTwiceBook
            soldTwice.inventoryBook sale ps processor = .ok (ps', processor') := by
          unfold processSale
          rw [hloop]
          dsimp only [Bind.bind, Except.bind]
          split
          · exact ⟨_, rfl⟩
          · exact ⟨_, rfl⟩
        obtain ⟨processor', hsale⟩ := hsale
        exact ⟨ps, processor, _, ps', processor', st,
          ⟨soldTwice_passed, purchases, processor₀, _, _, hnotes, hsorted, hearlier, rfl⟩, hsale,
          hloop, h⟩
      · cases h
    · cases h
  · cases h

theorem soldTwice_first : BotService.sortFIFO exactPlatform (listingOf exactPlatform
    soldTwice.inventoryBook good 9).goodAccountSaleTransactions =
      [] ++ sale "2" "S1" 2 4 80 :: [sale "3" "S2" 3 3 60] := by
  decide +kernel

theorem soldTwice_second : BotService.sortFIFO exactPlatform (listingOf exactPlatform
    soldTwice.inventoryBook good 9).goodAccountSaleTransactions =
      [sale "2" "S1" 2 4 80] ++ sale "3" "S2" 3 3 60 :: [] := by
  decide +kernel

end Sample

/-- A purchase of ten with an additional cost of twenty, sold in two parts: after the second sale
    it records no additional cost, and the four that the first one took as credited. -/
theorem adjustments_forgotten : ∃ ps processor ledger ps' processor' st,
    SaleTurn exactPlatform (Sample.env 9) ⟨Sample.soldTwice, fun _ => {}⟩ Sample.good.id
        Sample.good 9 (Sample.sale "3" "S2" 3 3 60) ps processor ledger ∧
      processSale exactPlatform (Sample.env 9) Sample.soldTwiceBook
        Sample.soldTwice.inventoryBook (Sample.sale "3" "S2" 3 3 60) ps processor =
          .ok (ps', processor') ∧
      processPurchases exactPlatform (Sample.env 9) Sample.soldTwiceBook
        (Sample.sale "3" "S2" 3 3 60) ps { soldQuantity := 3, processor := processor } =
          .ok (ps', st) ∧
      ∃ p ∈ ps, ∃ p' ∈ ps', p'.id = p.id ∧ (∃ entry ∈ st.purchaseLogEntries, entry.id = p.id) ∧
        (ledger p.id).additionalCosts = 20 ∧ p'.additionalCosts = some 0 ∧
        (ledger p.id).creditNotesQuantity = 0 ∧
        p'.creditNote = some (exactPlatform.creditNoteJson 4 0) ∧
        ¬Recorded exactPlatform (ledgerAfterSale exactPlatform Sample.soldTwiceBook ps
          st.purchaseLogEntries ledger p.id) p' := by
  obtain ⟨ps, processor, ledger, ps', processor', st, hturn, hsale, hloop, hvalues⟩ :=
    Sample.saleTurn_of_turnOf (k := fun ps ledger ps' st => decide (∃ p ∈ ps, ∃ p' ∈ ps',
      p'.id = p.id ∧ (∃ entry ∈ st.purchaseLogEntries, entry.id = p.id) ∧
        (ledger p.id).additionalCosts = 20 ∧ p'.additionalCosts = some 0 ∧
        (ledger p.id).creditNotesQuantity = 0 ∧
        p'.creditNote = some (exactPlatform.creditNoteJson 4 0) ∧
        p'.additionalCosts ≠ some (ledgerAfterSale exactPlatform Sample.soldTwiceBook ps
          st.purchaseLogEntries ledger p.id).additionalCosts))
      Sample.soldTwice_second (by decide +kernel)
  obtain ⟨p, hp, p', hp', hid, hlogged, hcosts, hcosts', hcredited, hnote, hdiffer⟩ :=
    of_decide_eq_true hvalues
  exact ⟨ps, processor, ledger, ps', processor', st, hturn, hsale, hloop, p, hp, p', hp', hid,
    hlogged, hcosts, hcosts', hcredited, hnote, fun hrecorded => hdiffer hrecorded.1⟩

/-- The two sales of the sample. The first one folds in the additional cost and records it; the
    second one records the adjustments exactly if the first had folded in and taken nothing. -/
theorem adjustments_recorded_iff_sample :
    (∃ (ps ps' : List Transaction) (ledger : String → Adjustments) (st : SaleLoop),
      ∃ p ∈ ps, ∃ p' ∈ ps', p'.id = p.id ∧ (ledger p.id).touches = 0 ∧
        Recorded exactPlatform (ledgerAfterSale exactPlatform Sample.soldTwiceBook ps
          st.purchaseLogEntries ledger p.id) p') ∧
      ∃ (ps ps' : List Transaction) (ledger : String → Adjustments) (st : SaleLoop),
        ∃ p ∈ ps, ∃ p' ∈ ps', p'.id = p.id ∧ (ledger p.id).touches = 1 ∧
          (Recorded exactPlatform (ledgerAfterSale exactPlatform Sample.soldTwiceBook ps
              st.purchaseLogEntries ledger p.id) p' ↔
            NothingBefore exactPlatform (ledger p.id)) := by
  have hsteps : Relation.ReflTransGen
      (AdjustmentStep exactPlatform Sample.collection Sample.good.id Sample.good.name)
      ⟨Sample.soldTwice, fun _ => {}⟩ ⟨Sample.soldTwice, fun _ => {}⟩ := .refl
  constructor
  · obtain ⟨ps, processor, ledger, ps', processor', st, hturn, hsale, hloop, hvalues⟩ :=
      Sample.saleTurn_of_turnOf (k := fun ps ledger ps' st => decide (∃ p ∈ ps, ∃ p' ∈ ps',
        p'.id = p.id ∧ (∃ entry ∈ st.purchaseLogEntries, entry.id = p.id) ∧
          (ledger p.id).touches = 0)) Sample.soldTwice_first (by decide +kernel)
    obtain ⟨p, hp, p', hp', hid, hlogged, htouches⟩ := of_decide_eq_true hvalues
    obtain ⟨st', hloop', hiff⟩ := adjustments_recorded_iff exactPlatform_recordsReadable
      ⟨by decide, by decide⟩ rfl (fun t ht _ => Sample.soldTwice_replicated t ht) hsteps hturn hsale
    obtain rfl : st' = st := (Prod.mk.inj (Except.ok.inj (hloop'.symm.trans hloop))).2
    exact ⟨ps, ps', ledger, st', p, hp, p', hp', hid, htouches,
      (hiff p hp p' hp' hid hlogged).2 (Or.inl htouches)⟩
  · obtain ⟨ps, processor, ledger, ps', processor', st, hturn, hsale, hloop, hvalues⟩ :=
      Sample.saleTurn_of_turnOf (k := fun ps ledger ps' st => decide (∃ p ∈ ps, ∃ p' ∈ ps',
        p'.id = p.id ∧ (∃ entry ∈ st.purchaseLogEntries, entry.id = p.id) ∧
          (ledger p.id).touches = 1)) Sample.soldTwice_second (by decide +kernel)
    obtain ⟨p, hp, p', hp', hid, hlogged, htouches⟩ := of_decide_eq_true hvalues
    obtain ⟨st', hloop', hiff⟩ := adjustments_recorded_iff exactPlatform_recordsReadable
      ⟨by decide, by decide⟩ rfl (fun t ht _ => Sample.soldTwice_replicated t ht) hsteps hturn hsale
    obtain rfl : st' = st := (Prod.mk.inj (Except.ok.inj (hloop'.symm.trans hloop))).2
    exact ⟨ps, ps', ledger, st', p, hp, p', hp', hid, htouches, hiff p hp p' hp' hid hlogged⟩

end InventoryBot.Menu
