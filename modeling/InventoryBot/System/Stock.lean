import InventoryBot.Menu.ResetRoundTrip
import InventoryBot.System.FinancialDeletion
import InventoryBot.System.Scope

/-!
# The stock that the inventory book shows

The balance of a good account is the stock of the good. A calculation splits purchases and rewrites
what is left of them, a reset undoes that, and a deletion takes a copy with all that was split off
it. So the balance of every account stays what the copies in the book were posted with.

* `held_move`: a move of a calculation changes no sum over the accounts and the copies.
* `Stocked`: what every step keeps about the transactions of the inventory book.
* `stock_on_hand`: over every history, the balances are those of the copies as they were posted.
-/

namespace InventoryBot.System

open Lib Menu Events CostOfSalesService

/-! ## Weighted sums -/

/-- The id of the copy that a transaction is or was split off. -/
def rootId (t : Transaction) : String := t.parentId.getD t.id

/-- A weight of a transaction by its two accounts and the copy that it belongs to. -/
abbrev Weight := Option AccountRef → Option AccountRef → String → ℚ

/-- The weight of a transaction. -/
def Weight.of (w : Weight) (t : Transaction) : ℚ := w t.creditAccount t.debitAccount (rootId t)

/-- The quantity that a copy was posted with. -/
def postedQuantity (t : Transaction) : ℚ := t.originalQuantity.getD t.amount

/-- What a transaction was posted with: a split was not. -/
def postedShare (t : Transaction) : ℚ := if t.parentId = none then postedQuantity t else 0

/-- The weighted sum of the amounts. -/
def held (w : Weight) (l : List Transaction) : ℚ := (l.map fun t => w.of t * t.amount).sum

/-- The weighted sum of what the copies were posted with. -/
def postedHeld (w : Weight) (l : List Transaction) : ℚ := (l.map fun t => w.of t * postedShare t).sum

theorem held_append (w : Weight) (l l' : List Transaction) :
    held w (l ++ l') = held w l + held w l' := by
  simp [held]

theorem held_singleton (w : Weight) (t : Transaction) : held w [t] = w.of t * t.amount := by
  simp [held]

theorem postedHeld_append (w : Weight) (l l' : List Transaction) :
    postedHeld w (l ++ l') = postedHeld w l + postedHeld w l' := by
  simp [postedHeld]

theorem rootId_congr {t u : Transaction} (hid : u.id = t.id) (hparent : u.parentId = t.parentId) :
    rootId u = rootId t := by
  rw [rootId, rootId, hid, hparent]

theorem Weight.of_congr (w : Weight) {t u : Transaction} (h : SameIdentity t u) : w.of u = w.of t := by
  rw [Weight.of, Weight.of, h.creditAccount, h.debitAccount, rootId_congr h.id h.parentId]

theorem rootId_of_root {t : Transaction} (h : t.parentId = none) : rootId t = t.id := by
  rw [rootId, h]
  rfl

theorem rootId_of_split {t : Transaction} {id : String} (h : t.parentId = some id) :
    rootId t = id := by
  rw [rootId, h]
  rfl

/-- A split has the weight of the purchase that it was split off. -/
theorem Weight.of_split (w : Weight) {p u : Transaction} (hroot : p.parentId = none)
    (h : IsSplit p u) : w.of u = w.of p := by
  rw [Weight.of, Weight.of, h.creditAccount, h.debitAccount, rootId_of_split h.parentId,
    rootId_of_root hroot]

/-- Posting a split changes none of its weights. -/
theorem Weight.of_post (w : Weight) (id : String) (now : ℕ) {t : Transaction}
    (h : t.parentId ≠ none) : w.of (Book.post id now t) = w.of t := by
  obtain ⟨parent, hparent⟩ := Option.ne_none_iff_exists'.1 h
  have hposted : (Book.post id now t).parentId = some parent := hparent
  rw [Weight.of, Weight.of, rootId_of_split hposted, rootId_of_split hparent]
  rfl

theorem held_postAll (w : Weight) (newId : ℕ → String) (now : ℕ) {l : List Transaction}
    (h : ∀ t ∈ l, t.parentId ≠ none) : held w (Book.postAll newId now l) = held w l := by
  induction l generalizing newId with
  | nil => rfl
  | cons t l ih =>
    have hrest := ih (fun k => newId (k + 1)) fun u hu => h u (List.mem_cons_of_mem _ hu)
    simp only [held, Book.postAll_cons, List.map_cons, List.sum_cons] at hrest ⊢
    rw [hrest, w.of_post _ _ (h t List.mem_cons_self)]
    rfl

/-- Splits were not posted. -/
theorem postedHeld_of_splits (w : Weight) {l : List Transaction} (h : ∀ t ∈ l, t.parentId ≠ none) :
    postedHeld w l = 0 := by
  refine List.sum_eq_zero fun x hx => ?_
  obtain ⟨t, ht, rfl⟩ := List.mem_map.1 hx
  rw [postedShare, if_neg (h t ht), mul_zero]

/-! ## A calculation -/

/-- A copy of a purchase that has its quantity and shows the account that it debits. -/
structure PurchaseCopy (t : Transaction) : Prop where
  root : t.parentId = none
  quantity : t.originalQuantity ≠ none
  shown : t.debitAccount ≠ none

theorem PurchaseCopy.congr {t u : Transaction} (h : PurchaseCopy t) (hsame : SameIdentity t u) :
    PurchaseCopy u :=
  ⟨hsame.parentId ▸ h.root, hsame.originalQuantity ▸ h.quantity, hsame.debitAccount ▸ h.shown⟩

/-- A split shows the accounts of the copy that it was split off. -/
structure SplitOf (t u : Transaction) : Prop where
  copy : PurchaseCopy t
  parentId : u.parentId = some t.id
  creditAccount : u.creditAccount = t.creditAccount
  debitAccount : u.debitAccount = t.debitAccount

theorem SplitOf.congr {t t' u u' : Transaction} (h : SplitOf t u) (ht : SameIdentity t t')
    (hu : SameIdentity u u') : SplitOf t' u' where
  copy := h.copy.congr ht
  parentId := by rw [hu.parentId, ht.id, h.parentId]
  creditAccount := by rw [hu.creditAccount, ht.creditAccount, h.creditAccount]
  debitAccount := by rw [hu.debitAccount, ht.debitAccount, h.debitAccount]

/-- What a calculation relies on and keeps: its open purchases are copies, and what it creates is
    split off copies. -/
structure OpenCopies (account : String) (d : Desk) : Prop where
  nodup : (d.stored.map Transaction.id).Nodup
  copies : ∀ t ∈ d.stored, t.moves account → Menu.BotService.isPurchase t → t.checked = false →
    PurchaseCopy t
  created : ∀ u ∈ d.created, ∃ t ∈ d.stored, SplitOf t u

section Moves

variable {P : Platform} {env : RunEnv} {fb : Book} {digits : ℕ} {account : String} {before : Date}
  {closes : ℚ → Prop} {d d' : Desk}

/-- A move keeps every stored transaction, rewritten or not. -/
theorem forward_move (h : Move P env fb digits account before closes d d')
    (hids : (d.stored.map Transaction.id).Nodup) {t : Transaction} (ht : t ∈ d.stored) :
    ∃ t' ∈ d'.stored, SameIdentity t t' := by
  have hid : t.id ∈ d'.stored.map Transaction.id := by
    rw [h.ids]
    exact List.mem_map_of_mem ht
  obtain ⟨t', ht', hid⟩ := List.mem_map.1 hid
  rcases h.stored_cases ht' with hold | ⟨p, hp, hw⟩
  · obtain rfl : t' = t := List.inj_on_of_nodup_map hids hold ht hid
    exact ⟨t', ht', .refl t'⟩
  · have hsame := hw.sameIdentity
    obtain rfl : p = t := List.inj_on_of_nodup_map hids hp ht (hsame.id.symm.trans hid)
    exact ⟨t', ht', hsame⟩

/-- A move splits off open purchases only. -/
theorem created_move (h : Move P env fb digits account before closes d d')
    (hd : OpenCopies account d) {u : Transaction} (hu : u ∈ d'.created) :
    ∃ t ∈ d.stored, SplitOf t u := by
  have hsplit : ∀ {p v : Transaction}, InListing Menu.BotService.isPurchase account before d.stored p →
      p.checked = false → IsSplit p v → ∃ t ∈ d.stored, SplitOf t v := fun hp hopen hv =>
    ⟨_, hp.stored, hd.copies _ hp.stored hp.moves hp.kind hopen, hv.parentId, hv.creditAccount,
      hv.debitAccount⟩
  cases h with
  | creditNote hp hunchecked =>
    rcases List.mem_append.1 hu with hu | hu
    · exact hd.created u hu
    · rw [List.mem_singleton.1 hu]
      exact hsplit hp hunchecked (SplitFrom.isSplit (P := P) (.creditNote hp.kind))
  | openSale => exact hd.created u hu
  | take => exact hd.created u hu
  | split _ hp hunchecked _ _ _ _ hlt =>
    rcases List.mem_append.1 hu with hu | hu
    · exact hd.created u hu
    · rw [List.mem_singleton.1 hu]
      exact hsplit hp hunchecked (SplitFrom.isSplit (P := P) (.sale hp.kind hlt))
  | closeSale => exact hd.created u hu

theorem openCopies_move (h : Move P env fb digits account before closes d d')
    (hd : OpenCopies account d) : OpenCopies account d' where
  nodup := h.ids ▸ hd.nodup
  copies := by
    intro t ht hmoves hkind hunchecked
    rcases h.stored_cases ht with ht | ⟨p, hp, hw⟩
    · exact hd.copies t ht hmoves hkind hunchecked
    · have hsame := hw.sameIdentity
      exact (hd.copies p hp (hsame.moves account ▸ hmoves) (hsame.isPurchase ▸ hkind)
        hw.unchecked).congr hsame
  created := by
    intro u hu
    obtain ⟨t, ht, hsplit⟩ := created_move h hd hu
    obtain ⟨t', ht', hsame⟩ := forward_move h hd.nodup ht
    exact ⟨t', ht', hsplit.congr hsame (.refl u)⟩

/-- Rewriting does not change what a copy was posted with. -/
theorem postedShare_written {p t : Transaction} (h : Written P p t)
    (hp : Menu.BotService.isPurchase p → p.originalQuantity ≠ none) :
    postedShare t = postedShare p := by
  have hquantity : Menu.BotService.isPurchase p → ∀ q : ℚ,
      p.originalQuantity.getD q = p.originalQuantity.getD p.amount := by
    intro hkind q
    obtain ⟨quantity, hsome⟩ := Option.ne_none_iff_exists'.1 (hp hkind)
    rw [hsome]
    rfl
  have hsame := h.sameIdentity
  have hposted : postedQuantity t = postedQuantity p := by
    unfold postedQuantity
    rw [hsame.originalQuantity]
    cases h with
    | credited hkind => exact hquantity hkind _
    | applied => rfl
    | taken hkind => exact hquantity hkind _
    | reduced hkind => exact hquantity hkind _
    | settled =>
      unfold settleSale
      split <;> rfl
  rw [postedShare, postedShare, hsame.parentId, hposted]

/-- Overwriting a transaction changes a weighted sum by the difference of the two amounts. -/
theorem held_overwrite (w : Weight) {l : List Transaction} {p b : Transaction}
    (hids : (l.map Transaction.id).Nodup) (hp : p ∈ l) (hsame : SameIdentity p b) :
    held w (overwrite b l) = held w l + w.of p * (b.amount - p.amount) := by
  rw [held, sum_replaceRow (b := b) (fun t => w.of t * t.amount) hids hp hsame.id.symm,
    w.of_congr hsame]
  unfold held
  ring

/-- A move changes no weighted sum of amounts: what it takes off a purchase it splits off. -/
theorem held_move (w : Weight) (h : Move P env fb digits account before closes d d')
    (hd : OpenCopies account d) :
    held w d'.stored + held w d'.created =
      held w d.stored + held w d.created := by
  cases h with
  | @creditNote p note code number hp hunchecked _ hnote hopen hother _ _ hleft =>
    have hroot := (hd.copies p hp.stored hp.moves hp.kind hunchecked).root
    have hnodup : ((overwrite (credited P note p) d.stored).map Transaction.id).Nodup := by
      simpa using hd.nodup
    have hstill : note ∈ overwrite (credited P note p) d.stored :=
      mem_replaceRow_of_ne hnote.stored hother
    have happlied : SameIdentity note (applied note) :=
      Written.sameIdentity (P := P) (.applied hnote.kind hopen)
    have hcredited : SameIdentity p (credited P note p) :=
      Written.sameIdentity (.credited hp.kind hunchecked hleft)
    have hsplit : w.of (splitCreditNote (P.toNumber note.amount) code number p) = w.of p :=
      w.of_split hroot (SplitFrom.isSplit (P := P) (.creditNote hp.kind))
    dsimp only
    rw [held_overwrite w hnodup hstill happlied, held_overwrite w hd.nodup hp.stored hcredited,
      held_append, held_singleton, hsplit]
    simp only [splitCreditNote, credited, applied]
    ring
  | openSale => rfl
  | @take c p quantity cost amounts _ hp hunchecked =>
    have htaken : SameIdentity p (taken P c.sale p quantity cost amounts) :=
      Written.sameIdentity (.taken hp.kind hunchecked)
    dsimp only
    rw [held_overwrite w hd.nodup hp.stored htaken]
    simp only [taken, markProcessed, liquidatePurchase]
    ring
  | @split c p quantity cost amounts code k _ hp hunchecked _ _ _ _ hlt =>
    have hroot := (hd.copies p hp.stored hp.moves hp.kind hunchecked).root
    have hreduced : SameIdentity p (reduced P p c.soldQuantity quantity cost amounts) :=
      Written.sameIdentity (.reduced hp.kind hunchecked hlt)
    have hsplit : w.of (splitOff P c.sale p c.soldQuantity cost code (env.uuid k)) = w.of p :=
      w.of_split hroot (SplitFrom.isSplit (P := P) (.sale hp.kind hlt))
    dsimp only
    rw [held_overwrite w hd.nodup hp.stored hreduced, held_append, held_singleton, hsplit]
    simp only [splitOff, splitPurchase, reduced, markProcessed, reducePurchase]
    ring
  | @closeSale c _ hsale hopen =>
    have hamount : (settleSale c.saleCost c.purchaseLogEntries c.sale).amount = c.sale.amount := by
      unfold settleSale
      split <;> rfl
    have hsettled : SameIdentity c.sale (settleSale c.saleCost c.purchaseLogEntries c.sale) :=
      Written.sameIdentity (P := P) (.settled hsale.kind hopen)
    dsimp only
    split
    · rw [held_overwrite w hd.nodup hsale.stored hsettled, hamount]
      ring
    · rfl

/-- Moves change no weighted sum. -/
theorem held_moves (h : Moves P env fb digits account before closes d d')
    (hd : OpenCopies account d) : OpenCopies account d' ∧ ∀ w,
      held w d'.stored + held w d'.created = held w d.stored + held w d.created ∧
        postedHeld w d'.stored = postedHeld w d.stored := by
  refine h.preserves (I := fun e => OpenCopies account e ∧ ∀ w,
    held w e.stored + held w e.created = held w d.stored + held w d.created ∧
      postedHeld w e.stored = postedHeld w d.stored) ?_ ⟨hd, fun _ => ⟨rfl, rfl⟩⟩
  rintro e e' hmove ⟨he, hsum⟩
  refine ⟨openCopies_move hmove he, fun w => ⟨(held_move w hmove he).trans (hsum w).1, ?_⟩⟩
  have hposted : e'.stored.map (fun t => w.of t * postedShare t) =
      e.stored.map (fun t => w.of t * postedShare t) := by
    refine Move.map_stored he.nodup (fun p hp hmoves t hw => ?_) hmove
    rw [w.of_congr hw.sameIdentity, postedShare_written hw fun hkind =>
      (he.copies p hp hmoves hkind hw.unchecked).quantity]
  exact (congrArg List.sum hposted).trans (hsum w).2

end Moves

/-! ## The inventory book between steps -/

/-- What every step keeps about the inventory book: the bot posted its transactions, each split
    belongs to a copy, and no weighted sum tells the amounts from what the copies were posted
    with. -/
structure Stocked (b : Book) : Prop where
  complete : Complete b
  rows : ∀ t ∈ b.transactions, AccountRow t
  splits : ∀ t ∈ b.transactions, Menu.BotService.isPurchase t → t.checked = false → t.parentId = none
  parents : ∀ u ∈ b.transactions, u.parentId ≠ none → ∃ t ∈ b.transactions, SplitOf t u
  balanced : ∀ w, held w b.transactions = postedHeld w b.transactions

section Runs

variable {P : Platform} {env : RunEnv} {s s' : State} {goodAccountId : String} {day : Date}
  {closes : ℚ → Prop} {goodAccount : Account} {d : Desk}

/-- A calculation starts with open copies. -/
theorem Stocked.openCopies (hs : Stocked s.inventoryBook)
    (hpassed : Passed P s goodAccountId day goodAccount) :
    OpenCopies goodAccount.name (Desk.start s.inventoryBook.transactions) where
  nodup := hs.complete.ids
  copies := by
    intro t ht hmoves hkind hopen
    have hwf := hs.complete.wellFormed
    have hroot := hs.splits t ht hkind hopen
    have hone := hwf.oneSided hpassed.account hpassed.notIncoming hpassed.notOutgoing ht hmoves
    obtain ⟨-, ⟨-, quantity, cost, hquantity, -⟩ | ⟨hparent, -⟩⟩ :=
      (hs.rows t ht).form.of_purchase hone hkind
    · refine ⟨hroot, by simp [hquantity], fun hnone => ?_⟩
      obtain ⟨-, r, hr, htype⟩ := isPurchase_iff.1 hkind
      have hname : r.name = goodAccount.name := by
        simpa [Transaction.moves, hr, hnone] using hmoves
      have hsame := hwf.refs t ht r (Transaction.mem_refs.2 (Or.inl hr)) goodAccount
        (Book.mem_of_getAccount hpassed.account) hname
      exact hpassed.notIncoming (hsame.symm.trans htype)
    · rw [hroot] at hparent
      cases hparent
  created := by simp [Desk.start]

/-- A calculation keeps the stock. -/
theorem stocked_fires (hs : Stocked s.inventoryBook) (hfresh : env.Fresh s)
    (hcomplete : Complete s'.inventoryBook)
    (h : CalculationFires P env s goodAccountId day closes goodAccount d s') :
    Stocked s'.inventoryBook ∧
      ∀ w, held w s'.inventoryBook.transactions = held w s.inventoryBook.transactions := by
  have hwf := hs.complete.wellFormed
  obtain ⟨hd, hsums⟩ := held_moves h.moves (hs.openCopies h.passed)
  have hrows := (moves_rows hwf.ids (fun t ht hmoves => ⟨hs.rows t ht,
    hwf.oneSided h.passed.account h.passed.notIncoming h.passed.notOutgoing ht hmoves⟩) h.moves).1
  have hheld : ∀ w, held w s'.inventoryBook.transactions = held w s.inventoryBook.transactions := by
    intro w
    rw [h.inventory, held_append, held_postAll w _ _ h.created_parent, (hsums w).1]
    simp [held, Desk.start]
  have hposted : ∀ w, postedHeld w s'.inventoryBook.transactions =
      postedHeld w s.inventoryBook.transactions := by
    intro w
    have hnew : postedHeld w (Book.postAll env.inventoryId env.now d.created) = 0 := by
      refine postedHeld_of_splits w fun t ht => ?_
      obtain ⟨k, u, hu, rfl⟩ := Book.mem_postAll ht
      exact h.created_parent u hu
    rw [h.inventory, postedHeld_append, hnew, add_zero, (hsums w).2]
    rfl
  -- a stored transaction that does not move the account is as it was
  have hother : ∀ t' ∈ d.stored, t'.moves goodAccount.name = false →
      t' ∈ s.inventoryBook.transactions := by
    intro t' ht' hmoves
    obtain ⟨t, ht, htrace⟩ := h.moves.stored_trace t' ht'
    have hsame := sameIdentity_of_trace htrace
    obtain rfl : t' = t := h.other_rows hwf.ids ht ht' hsame.id (hsame.moves goodAccount.name ▸ hmoves)
    exact ht
  refine ⟨⟨hcomplete, ?_, ?_, ?_, fun w => ?_⟩, hheld⟩
  · intro t' ht'
    rcases h.mem_cases ht' with ⟨hst, -⟩ | ⟨k, u, hu, rfl, p, hp, hsplit, hkind⟩
    · cases hmoves : t'.moves goodAccount.name with
      | true => exact (hrows t' hst hmoves).1
      | false => exact hs.rows t' (hother t' hst hmoves)
    · exact (hs.rows p hp).split hfresh hsplit hkind
  · intro t' ht' hkind hopen
    rcases h.mem_cases ht' with ⟨hst, -⟩ | ⟨k, u, hu, rfl, p, hp, hsplit, -⟩
    · cases hmoves : t'.moves goodAccount.name with
      | true => exact (hd.copies t' hst hmoves hkind hopen).root
      | false => exact hs.splits t' (hother t' hst hmoves) hkind hopen
    · have hchecked : u.checked = false := hopen
      rw [hsplit.checked] at hchecked
      cases hchecked
  · intro u' hu' hparent
    rw [h.inventory, List.mem_append] at hu'
    rcases hu' with hu' | hu'
    · obtain ⟨u, hu, htrace⟩ := h.moves.stored_trace u' hu'
      have husame := sameIdentity_of_trace htrace
      obtain ⟨t, ht, hsplit⟩ := hs.parents u hu (husame.parentId ▸ hparent)
      obtain ⟨t', ht', htsame⟩ := h.forward hwf ht
      exact ⟨t', ht', hsplit.congr htsame husame⟩
    · obtain ⟨k, u, hu, rfl⟩ := Book.mem_postAll hu'
      obtain ⟨t, ht, hsplit⟩ := hd.created u hu
      refine ⟨t, ?_, hsplit.copy, hsplit.parentId, hsplit.creditAccount, hsplit.debitAccount⟩
      rw [h.inventory]
      exact List.mem_append_left _ ht
  · rw [hheld, hposted]
    exact hs.balanced w

/-- A weight on the transactions that move an account. -/
def Weight.moving (w : Weight) (name : String) : Weight := fun credit debit id =>
  if credit.any (·.name == name) || debit.any (·.name == name) then w credit debit id else 0

/-- A weight on the transactions that do not move an account. -/
def Weight.resting (w : Weight) (name : String) : Weight := fun credit debit id =>
  if credit.any (·.name == name) || debit.any (·.name == name) then 0 else w credit debit id

theorem Weight.of_moving (w : Weight) (name : String) (t : Transaction) :
    (w.moving name).of t = if t.moves name then w.of t else 0 := rfl

theorem Weight.of_resting (w : Weight) (name : String) (t : Transaction) :
    (w.resting name).of t = if t.moves name then 0 else w.of t := rfl

theorem held_moving_add_resting (w : Weight) (name : String) (l : List Transaction) :
    held (w.moving name) l + held (w.resting name) l = held w l := by
  induction l with
  | nil => simp [held]
  | cons t l ih =>
    simp only [held, List.map_cons, List.sum_cons, Weight.of_moving, Weight.of_resting] at ih ⊢
    rw [← ih]
    split <;> ring

/-- What a reset makes of a transaction of the inventory book. -/
theorem Stocked.resetRow_cases (hs : Stocked s.inventoryBook) (P : Platform) (name : String)
    {t : Transaction} (ht : t ∈ s.inventoryBook.transactions) :
    (t.moves name = false ∧ resetRow P name t = t) ∨
      (t.moves name = true ∧ t.parentId ≠ none ∧ resetTrash t = true) ∨
      (t.moves name = true ∧ t.parentId = none ∧ resetTrash t = false ∧
        resetRow P name t = baseRow t) := by
  have hrow := hs.rows t ht
  cases hmoves : t.moves name with
  | false => exact Or.inl ⟨rfl, by simp [resetRow, hmoves]⟩
  | true =>
    refine Or.inr ?_
    rw [resetTrash_eq hrow]
    cases hparent : t.parentId with
    | none => exact Or.inr ⟨rfl, rfl, rfl, resetRow_eq_baseRow hrow hparent hmoves⟩
    | some id => exact Or.inl ⟨rfl, by simp, rfl⟩

theorem baseRow_amount (t : Transaction) : (baseRow t).amount = postedQuantity t := by
  unfold baseRow postedQuantity
  cases hquantity : t.originalQuantity with
  | some q => rfl
  | none =>
    simp only [Option.isSome_none, Bool.false_eq_true, if_false, Option.getD_none]
    split <;> rfl

/-- The copies are still posted with what they were posted with. -/
theorem Stocked.postedHeld_reset (hs : Stocked s.inventoryBook)
    (h : ResetDone P s goodAccountId goodAccount s') (w : Weight) :
    postedHeld w s'.inventoryBook.transactions = postedHeld w s.inventoryBook.transactions := by
  unfold postedHeld
  rw [h.inventory, List.map_map, ← sum_map_ite]
  refine congrArg List.sum (List.map_congr_left fun t ht => ?_)
  have hsame := resetRow_sameIdentity P goodAccount.name t
  rw [Function.comp_apply, w.of_congr hsame]
  rcases hs.resetRow_cases P goodAccount.name ht with
    ⟨hmoves, hrow⟩ | ⟨hmoves, hparent, htrash⟩ | ⟨hmoves, hparent, htrash, hrow⟩
  · simp [hmoves, hrow]
  · simp [hmoves, htrash, postedShare, hparent]
  · have hquantity : postedQuantity (baseRow t) = postedQuantity t := by
      rw [postedQuantity, baseRow_amount, ← hrow, hsame.originalQuantity]
      unfold postedQuantity
      cases t.originalQuantity <;> rfl
    rw [hrow] at hsame ⊢
    simp [hmoves, htrash, postedShare, hsame.parentId, hparent, hquantity]

/-- A reset changes no weighted sum of amounts: it trashes what was split off the copies that get
    their quantity back. -/
theorem Stocked.held_reset (hs : Stocked s.inventoryBook)
    (h : ResetDone P s goodAccountId goodAccount s') (w : Weight) :
    held w s'.inventoryBook.transactions = held w s.inventoryBook.transactions := by
  have hrows : held w s'.inventoryBook.transactions =
      postedHeld (w.moving goodAccount.name) s.inventoryBook.transactions +
        held (w.resting goodAccount.name) s.inventoryBook.transactions := by
    unfold postedHeld held
    rw [h.inventory, List.map_map, ← sum_map_ite, ← List.sum_map_add]
    refine congrArg List.sum (List.map_congr_left fun t ht => ?_)
    have hsame := resetRow_sameIdentity P goodAccount.name t
    rw [Function.comp_apply, w.of_congr hsame, w.of_moving, w.of_resting]
    rcases hs.resetRow_cases P goodAccount.name ht with
      ⟨hmoves, hrow⟩ | ⟨hmoves, hparent, htrash⟩ | ⟨hmoves, hparent, htrash, hrow⟩
    · simp [hmoves, hrow]
    · simp [hmoves, htrash, postedShare, hparent]
    · simp [hmoves, htrash, postedShare, hparent, hrow, baseRow_amount]
  rw [hrows, ← hs.balanced, held_moving_add_resting]

/-- A reset keeps the stock. -/
theorem stocked_reset (hs : Stocked s.inventoryBook) (hcomplete : Complete s'.inventoryBook)
    (h : ResetDone P s goodAccountId goodAccount s') : Stocked s'.inventoryBook := by
  refine ⟨hcomplete, ?_, ?_, ?_, fun w => ?_⟩
  · intro t' ht'
    obtain ⟨t, ht, -, rfl⟩ := h.mem ht'
    cases hmoves : t.moves goodAccount.name with
    | true => exact (hs.rows t ht).reset hmoves
    | false =>
      have hrow : resetRow P goodAccount.name t = t := by simp [resetRow, hmoves]
      rw [hrow]
      exact hs.rows t ht
  · intro t' ht' hkind hopen
    obtain ⟨t, ht, htrash, rfl⟩ := h.mem ht'
    have hsame := resetRow_sameIdentity P goodAccount.name t
    rw [hsame.parentId]
    rcases hs.resetRow_cases P goodAccount.name ht with
      ⟨-, hrow⟩ | ⟨hmoves, -, htrashed⟩ | ⟨-, hparent, -, -⟩
    · rw [hrow] at hkind hopen
      exact hs.splits t ht hkind hopen
    · rw [htrash hmoves] at htrashed
      cases htrashed
    · exact hparent
  · intro u' hu' hparent
    obtain ⟨u, hu, htrash, rfl⟩ := h.mem hu'
    have husame := resetRow_sameIdentity P goodAccount.name u
    rw [husame.parentId] at hparent
    obtain ⟨t, ht, hsplit⟩ := hs.parents u hu hparent
    obtain ⟨t', ht', htsame⟩ := h.forward ht hsplit.copy.root
    exact ⟨t', ht', hsplit.congr htsame husame⟩
  · rw [hs.held_reset h w, hs.postedHeld_reset h w]
    exact hs.balanced w

end Runs

/-! ## The webhook -/

section Webhook

variable {P : Platform} {collection : Option (List BookInfo)} {s : State}

/-- A new copy keeps the stock in order. -/
theorem Stocked.post {b b' : Book} {c : Transaction} (hs : Stocked b) (hposts : PostsRow b b' c)
    (hcomplete : Complete b') (hrow : AccountRow c) (hparent : c.parentId = none)
    (hquantity : c.originalQuantity = none ∨ c.originalQuantity = some c.amount) : Stocked b' := by
  have hmem : ∀ t ∈ b'.transactions, t ∈ b.transactions ∨ t = c := by
    intro t ht
    rwa [hposts.transactions, List.mem_append, List.mem_singleton] at ht
  refine ⟨hcomplete, ?_, ?_, ?_, fun w => ?_⟩
  · intro t ht
    rcases hmem t ht with ht | rfl
    · exact hs.rows t ht
    · exact hrow
  · intro t ht hkind hopen
    rcases hmem t ht with ht | rfl
    · exact hs.splits t ht hkind hopen
    · exact hparent
  · intro u hu hsplit
    rcases hmem u hu with hu | rfl
    · obtain ⟨t, ht, h⟩ := hs.parents u hu hsplit
      refine ⟨t, ?_, h⟩
      rw [hposts.transactions]
      exact List.mem_append_left _ ht
    · exact absurd hparent hsplit
  · have hshare : postedShare c = c.amount := by
      rw [postedShare, if_pos hparent, postedQuantity]
      rcases hquantity with hq | hq <;> simp [hq]
    have hposted : postedHeld w [c] = w.of c * c.amount := by simp [postedHeld, hshare]
    rw [hposts.transactions, held_append, postedHeld_append, held_singleton, hposted, hs.balanced w]

/-- A weight on the transactions that do not belong to a copy. -/
def Weight.without (w : Weight) (id : String) : Weight := fun credit debit root =>
  if root = id then 0 else w credit debit root

/-- Trashing a copy leaves what does not belong to it. -/
theorem Stocked.withoutCopy {b : Book} (hs : Stocked b) {r : Transaction} (hr : r ∈ b.transactions)
    (hroot : r.parentId = none) :
    withoutCopy r b.transactions = b.transactions.filter fun t => !decide (rootId t = r.id) := by
  unfold System.withoutCopy
  refine List.filter_congr fun t ht => ?_
  cases hparent : t.parentId with
  | none =>
    rw [rootId_of_root hparent]
    simp [bne, beq_eq_decide]
  | some id =>
    rw [rootId_of_split hparent]
    obtain ⟨p, hp, hsplit⟩ := hs.parents t ht (by simp [hparent])
    have hid : p.id = id := Option.some.inj (hsplit.parentId.symm.trans hparent)
    by_cases hown : id = r.id
    · obtain rfl : p = r := List.inj_on_of_nodup_map hs.complete.ids hp hr (hid.trans hown)
      obtain ⟨a, ha⟩ := Option.ne_none_iff_exists'.1 hsplit.copy.shown
      obtain ⟨q, hq⟩ := Option.ne_none_iff_exists'.1 hsplit.copy.quantity
      have hmoves : t.moves a.name = true := by
        simp [Transaction.moves, hsplit.debitAccount, ha]
      simp [hown, hq, ha, hmoves]
    · have hne : t.id ≠ r.id := by
        intro he
        obtain rfl : t = r := List.inj_on_of_nodup_map hs.complete.ids ht hr he
        rw [hroot] at hparent
        cases hparent
      simp [hown, hne]

/-- Trashing a copy with all that was split off it keeps the stock in order. -/
theorem Stocked.trash {b b' : Book} (hs : Stocked b) {r : Transaction} (hr : r ∈ b.transactions)
    (hroot : r.parentId = none) (hcomplete : Complete b')
    (hrows : b'.transactions = System.withoutCopy r b.transactions) : Stocked b' := by
  rw [hs.withoutCopy hr hroot] at hrows
  have hmem : ∀ t ∈ b'.transactions, t ∈ b.transactions ∧ rootId t ≠ r.id := by
    intro t ht
    rw [hrows, List.mem_filter] at ht
    exact ⟨ht.1, by simpa using ht.2⟩
  refine ⟨hcomplete, fun t ht => hs.rows t (hmem t ht).1,
    fun t ht => hs.splits t (hmem t ht).1, ?_, fun w => ?_⟩
  · intro u hu hparent
    obtain ⟨hu, hother⟩ := hmem u hu
    obtain ⟨t, ht, hsplit⟩ := hs.parents u hu hparent
    refine ⟨t, ?_, hsplit⟩
    rw [hrows, List.mem_filter, rootId_of_root hsplit.copy.root]
    rw [rootId_of_split hsplit.parentId] at hother
    exact ⟨ht, by simpa using hother⟩
  · have hof : ∀ t, (w.without r.id).of t = if rootId t = r.id then 0 else w.of t := fun _ => rfl
    have hheld : held w b'.transactions = held (w.without r.id) b.transactions := by
      unfold held
      rw [hrows, ← sum_map_ite]
      refine congrArg List.sum (List.map_congr_left fun t _ => ?_)
      rw [hof]
      by_cases h : rootId t = r.id <;> simp [h]
    have hposted : postedHeld w b'.transactions = postedHeld (w.without r.id) b.transactions := by
      unfold postedHeld
      rw [hrows, ← sum_map_ite]
      refine congrArg List.sum (List.map_congr_left fun t _ => ?_)
      rw [hof]
      by_cases h : rootId t = r.id <;> simp [h]
    rw [hheld, hposted]
    exact hs.balanced _

/-- A book whose accounts changed in their properties only. -/
theorem Stocked.of_rows {b b' : Book} (hs : Stocked b) (hrows : b'.transactions = b.transactions)
    (hrefs : accountRefs b' = accountRefs b) : Stocked b' := by
  refine ⟨hs.complete.of_refs hrefs (hrows ▸ hs.complete.ids) fun t ht => ?_, ?_, ?_, ?_, ?_⟩
  · rw [hrows] at ht
    exact ⟨t, ht, rfl, rfl⟩
  · rw [hrows]
    exact hs.rows
  · rw [hrows]
    exact hs.splits
  · rw [hrows]
    exact hs.parents
  · rw [hrows]
    exact hs.balanced

section Deletion

open InterceptorOrderProcessorDeleteFinancial

variable {id : String}

/-- No split carries the remote id. -/
def CopiesOnly (id : String) (b : Book) : Prop :=
  ∀ u ∈ b.transactions, u.parentId ≠ none → id ∉ u.remoteIds

/-- The branch of a purchase or a sale. -/
theorem stocked_deleteAndFlag (P : Platform) (collection : Option (List BookInfo))
    (hs : Stocked s.inventoryBook) (hcopies : CopiesOnly id s.inventoryBook) :
    Stocked (deleteAndFlag P collection s id).1.inventoryBook ∧
      CopiesOnly id (deleteAndFlag P collection s id).1.inventoryBook := by
  by_cases hnothing : Events.BotService.getInventoryBook collection = none ∨ id = ""
  · have hsame : deleteAndFlag P collection s id = (s, []) := by
      have hnone : deleteOnInventoryBook collection s id = (s, []) := by
        unfold deleteOnInventoryBook
        rcases hnothing with hbook | hid
        · rw [hbook]
        · cases Events.BotService.getInventoryBook collection with
          | none => rfl
          | some info => simp [InterceptorOrderProcessorDelete.deleteTransactionByRemoteId, hid]
      unfold deleteAndFlag
      rw [hnone]
    rw [hsame]
    exact ⟨hs, hcopies⟩
  obtain ⟨hcollection, hid⟩ := not_or.1 hnothing
  cases hfind : s.inventoryBook.transactions.find? (·.remoteIds.contains id) with
  | none =>
    rw [deleteAndFlag_none hfind]
    exact ⟨hs, hcopies⟩
  | some r =>
    have hr := List.mem_of_find?_eq_some hfind
    have hlinked : id ∈ r.remoteIds := by simpa using List.find?_some hfind
    have hroot : r.parentId = none := by_contra fun hne => hcopies r hr hne hlinked
    rw [deleteAndFlag_some P hs.complete.ids hcollection hid hfind]
    have htrashed : Stocked (withoutState s r).inventoryBook := by
      refine hs.trash hr hroot ?_ rfl
      refine hs.complete.of_refs rfl (hs.complete.ids.sublist ?_) fun t ht => ?_
      · exact List.Sublist.map _ List.filter_sublist
      · exact ⟨t, (withoutCopy_sublist _ _).subset ht, rfl, rfl⟩
    have hrows := flagIfNeeded_transactions P (withoutState s r).inventoryBook r
    refine ⟨htrashed.of_rows hrows (shrinks_flagIfNeeded htrashed.complete.accountIds r).refs, ?_⟩
    intro u hu hne
    rw [hrows] at hu
    exact hcopies u ((withoutCopy_sublist _ _).subset hu) hne

/-- The handler for deletions in a financial book keeps the stock in order. -/
theorem stocked_deletion (P : Platform) (collection : Option (List BookInfo)) {event : Event}
    (hs : Stocked s.inventoryBook) (hfinancial : Events.BotService.isInventoryBook event.book = false)
    (hcopies : ∀ t, event.transaction = some t → CopiesOnly t.transaction.id s.inventoryBook) :
    Stocked (EventHandlerTransactionDeleted.intercept P collection s event).1.inventoryBook := by
  unfold EventHandlerTransactionDeleted.intercept
  cases hevent : event.transaction with
  | none => exact hs
  | some t =>
    dsimp only
    rw [hfinancial, if_neg Bool.false_ne_true]
    unfold InterceptorOrderProcessorDeleteFinancial.intercept
    dsimp only
    split
    · exact hs
    · split
      · split
        · exact hs
        · rename_i creditAccount hdebit hcredit hid
          have hpurchase : ∀ {s : State}, Stocked s.inventoryBook →
              CopiesOnly t.transaction.id s.inventoryBook →
              Stocked (deletePurchase P collection s t.transaction).1.inventoryBook ∧
                CopiesOnly t.transaction.id
                  (deletePurchase P collection s t.transaction).1.inventoryBook := by
            intro s hs hcopies
            unfold deletePurchase
            split
            · exact stocked_deleteAndFlag P collection hs hcopies
            · exact ⟨hs, hcopies⟩
          have hsale : ∀ {s : State}, Stocked s.inventoryBook →
              CopiesOnly t.transaction.id s.inventoryBook →
              Stocked (deleteSale P collection s t).1.inventoryBook := by
            intro s hs hcopies
            unfold deleteSale
            split
            · exact (stocked_deleteAndFlag P collection hs hcopies).1
            · exact hs
          have hadjustment : ∀ {s : State}, Stocked s.inventoryBook → Stocked
              (deleteAdjustment P collection s creditAccount t.transaction).1.inventoryBook :=
            fun {s} hs => hs.of_rows (deleteAdjustment_rows P collection s creditAccount _).1
              (shrinks_deleteAdjustment P creditAccount _ hs.complete.accountIds).refs
          have hcogs : ∀ {s : State}, Stocked s.inventoryBook →
              Stocked (deleteCOGS collection s t.transaction).1.inventoryBook :=
            fun {s} hs => hs.of_rows (deleteCOGS_rows collection s _).1
              (shrinks_deleteCOGS collection _ hs.complete.accountIds).refs
          obtain ⟨hs₁, hcopies₁⟩ := hpurchase hs (hcopies t hevent)
          refine hcogs (hsale (hadjustment hs₁) ?_)
          intro u hu hne
          rw [(deleteAdjustment_rows P collection _ creditAccount t.transaction).1] at hu
          exact hcopies₁ u hu hne
      · exact hs

end Deletion

end Webhook

/-! ## Every history -/

/-- What happens to the books of an inventory. The accounts `Buy` and `Sell` have their types, so
    that what the webhook posts is a purchase, a sale or a credit note, and no split carries the id
    of a financial transaction. -/
inductive StockStep (P : Platform) (collection : Option (List BookInfo)) : State → State → Prop
  | check {s : State} {env : EventEnv} {financialBook inventoryBook : Book} {event : Event}
      {response : Response} (hfresh : EventFresh env s.inventoryBook)
      (hhandled : processObject P env financialBook s.inventoryBook event =
        .ok (inventoryBook, response))
      (hkind : ∀ c, copyOf response = some c → Replicated c) :
      StockStep P collection s { s with inventoryBook := inventoryBook }
  | calculate {s s' : State} {goodAccountId : String}
      (hcalculates : Calculates P collection goodAccountId s s') : StockStep P collection s s'
  | reset {s : State} {goodAccountId : String} :
      StockStep P collection s (resetCostOfSalesForAccount P collection s goodAccountId).1
  | delete {s : State} {event : Event}
      (hfinancial : Events.BotService.isInventoryBook event.book = false)
      (hcopies : ∀ t, event.transaction = some t → CopiesOnly t.transaction.id s.inventoryBook) :
      StockStep P collection s (EventHandlerTransactionDeleted.intercept P collection s event).1
  | financial {s : State} {financialBook : Book} :
      StockStep P collection s { s with financialBook := financialBook }

section Histories

variable {P : Platform} {collection : Option (List BookInfo)} {s₀ s s' : State}

theorem replicated_quantity {t : Transaction} (h : Replicated t) :
    t.parentId = none ∧ (t.originalQuantity = none ∨ t.originalQuantity = some t.amount) := by
  cases h with
  | sale => exact ⟨rfl, Or.inl rfl⟩
  | purchase => exact ⟨rfl, Or.inr rfl⟩
  | creditNote => exact ⟨rfl, Or.inl rfl⟩

/-- A book with copies only, as the webhook posts them. -/
theorem stocked_of_replicated {b : Book} (hb : Complete b)
    (hrows : ∀ t ∈ b.transactions, Replicated t) : Stocked b := by
  refine ⟨hb, fun t ht => .of_replicated (hrows t ht),
    fun t ht _ _ => (replicated_quantity (hrows t ht)).1, fun u hu hparent =>
      absurd (replicated_quantity (hrows u hu)).1 hparent, fun w => ?_⟩
  refine congrArg List.sum (List.map_congr_left fun t ht => ?_)
  obtain ⟨hparent, hquantity⟩ := replicated_quantity (hrows t ht)
  rw [postedShare, if_pos hparent, postedQuantity]
  rcases hquantity with hq | hq <;> rw [hq] <;> rfl

/-- A reset keeps the stock, whatever comes of it. -/
theorem stocked_resetCostOfSalesForAccount (goodAccountId : String) (hs : Stocked s.inventoryBook) :
    Stocked (resetCostOfSalesForAccount P collection s goodAccountId).1.inventoryBook ∧ ∀ w,
      held w (resetCostOfSalesForAccount P collection s goodAccountId).1.inventoryBook.transactions =
        held w s.inventoryBook.transactions := by
  rcases reset_cases (P := P) collection goodAccountId hs.complete.ids with
    ⟨hsame, -⟩ | ⟨-, goodAccount, hdone⟩
  · rw [hsame]
    exact ⟨hs, fun _ => rfl⟩
  · exact ⟨stocked_reset hs (reset_complete hs.complete) hdone, hs.held_reset hdone⟩

/-- A calculation keeps the stock, whatever comes of it. -/
theorem stocked_calculates {goodAccountId : String} (hs : Stocked s.inventoryBook)
    (h : Calculates P collection goodAccountId s s') : Stocked s'.inventoryBook ∧
      ∀ w, held w s'.inventoryBook.transactions = held w s.inventoryBook.transactions := by
  cases h with
  | run env toDate hfresh =>
    have hcomplete : Complete (calculateCostOfSalesForAccount P collection env s goodAccountId
        toDate).1.inventoryBook := calculate_complete hs.complete hfresh toDate
    rcases calculate_cases P collection env s goodAccountId toDate with
      hsame | hsame | ⟨-, hreset⟩ | ⟨goodAccount, sales, processor, hplan, -⟩
    · rw [hsame]
      exact ⟨hs, fun _ => rfl⟩
    · rw [hsame]
      exact ⟨hs, fun _ => rfl⟩
    · rw [hreset]
      exact stocked_resetCostOfSalesForAccount goodAccountId hs
    · obtain ⟨d, hfires⟩ := calculation_fires (fun _ => True) hs.complete.wellFormed hfresh hplan
        fun _ _ _ => Or.inl fun _ => trivial
      exact stocked_fires hs hfresh hcomplete hfires

/-- Every step keeps the stock in order. -/
theorem StockStep.stocked (hstep : StockStep P collection s s') (hs : Stocked s.inventoryBook) :
    Stocked s'.inventoryBook := by
  cases hstep with
  | check hfresh hhandled hkind =>
    have hcomplete := processObject_complete hs.complete hfresh hhandled
    rcases processObject_cases hs.complete.toDistinct hfresh hhandled with
      ⟨rfl, -⟩ | ⟨t, quantity, c, -, hreplication⟩
    · exact hs
    · have hcopy := hkind c (by cases hreplication.copy <;> rfl)
      obtain ⟨hparent, hquantity⟩ := replicated_quantity hcopy
      exact hs.post hreplication.posts hcomplete (.of_replicated hcopy) hparent hquantity
  | calculate hcalculates => exact (stocked_calculates hs hcalculates).1
  | reset => exact (stocked_resetCostOfSalesForAccount _ hs).1
  | delete hfinancial hcopies => exact stocked_deletion P collection hs hfinancial hcopies
  | financial => exact hs

end Histories

/-! ## Balances -/

/-- The balance of an account: what debits it less what credits it. -/
def balance (name : String) (l : List Transaction) : ℚ :=
  (l.map fun t => (if t.debitAccount.any (·.name == name) then t.amount else 0) -
    if t.creditAccount.any (·.name == name) then t.amount else 0).sum

/-- The copies among some transactions, with the quantities that they were posted with. -/
def asPosted (l : List Transaction) : List Transaction :=
  (l.filter (·.parentId.isNone)).map fun t => { t with amount := postedQuantity t }

/-- The sign of a transaction in the balance of an account. -/
def Weight.sign (name : String) : Weight := fun credit debit _ =>
  (if debit.any (·.name == name) then 1 else 0) - if credit.any (·.name == name) then 1 else 0

theorem held_sign (name : String) (l : List Transaction) :
    held (Weight.sign name) l = balance name l := by
  refine congrArg List.sum (List.map_congr_left fun t _ => ?_)
  unfold Weight.of Weight.sign
  split <;> split <;> ring

theorem postedHeld_sign (name : String) (l : List Transaction) :
    postedHeld (Weight.sign name) l = balance name (asPosted l) := by
  rw [← held_sign]
  unfold held postedHeld asPosted
  rw [List.map_map, ← sum_map_ite]
  refine congrArg List.sum (List.map_congr_left fun t _ => ?_)
  cases hparent : t.parentId with
  | none =>
    rw [postedShare, if_pos hparent]
    rfl
  | some id => simp [postedShare, hparent]

/-- **The stock on hand.** From a book that the webhook has filled, over every history of
    replications, deletions, calculations and resets: the balance of every account of the inventory
    book is that of its copies as they were posted, and no calculation and no reset of an account
    changes any of them. -/
theorem stock_on_hand {P : Platform} {collection : Option (List BookInfo)} {s₀ s : State}
    (hcomplete : Complete s₀.inventoryBook)
    (hposted : ∀ t ∈ s₀.inventoryBook.transactions, Replicated t)
    (hsteps : Relation.ReflTransGen (StockStep P collection) s₀ s) (name : String) :
    balance name s.inventoryBook.transactions =
        balance name (asPosted s.inventoryBook.transactions) ∧
      ∀ goodAccountId s', (Calculates P collection goodAccountId s s' ∨
          s' = (resetCostOfSalesForAccount P collection s goodAccountId).1) →
        balance name s'.inventoryBook.transactions = balance name s.inventoryBook.transactions := by
  have hs : Stocked s.inventoryBook := by
    induction hsteps with
    | refl => exact stocked_of_replicated hcomplete hposted
    | tail _ hstep ih => exact hstep.stocked ih
  constructor
  · rw [← held_sign, ← postedHeld_sign]
    exact hs.balanced _
  · rintro goodAccountId s' (hcalculates | rfl)
    · rw [← held_sign, ← held_sign]
      exact (stocked_calculates hs hcalculates).2 _
    · rw [← held_sign, ← held_sign]
      exact (stocked_resetCostOfSalesForAccount goodAccountId hs).2 _

namespace Sample

open Menu.Sample

theorem twoGoods_complete : Complete twoGoods.inventoryBook :=
  ⟨by decide +kernel, by decide +kernel, by decide +kernel, by decide +kernel⟩

/-- Of ten widgets four are sold. The stock is six, before and after the cost of the sale is
    calculated, which splits the purchase, and after a reset. -/
theorem stock_on_hand_widgets :
    balance "Widgets" widgetsCalculated.inventoryBook.transactions = 6 ∧
      balance "Widgets" (resetCostOfSalesForAccount decimalPlatform collection widgetsCalculated
        "a-widgets").1.inventoryBook.transactions = 6 := by
  have hcalculates : Calculates decimalPlatform collection "a-widgets" twoGoods widgetsCalculated :=
    .run (env 9) none ⟨env_fresh.uuids, env_fresh.inventoryIds, env_fresh.financialIds⟩
  have hstock : ∀ {s}, Relation.ReflTransGen (StockStep decimalPlatform collection) twoGoods s → _ :=
    fun hsteps => stock_on_hand twoGoods_complete Menu.Sample.start_replicated hsteps "Widgets"
  have hstart : balance "Widgets" twoGoods.inventoryBook.transactions = 6 := by decide +kernel
  have hcalculated := (hstock .refl).2 "a-widgets" widgetsCalculated (Or.inl hcalculates)
  have hreset := (hstock (.single (.calculate hcalculates))).2 "a-widgets" _ (Or.inr rfl)
  exact ⟨hcalculated.trans hstart, hreset.trans (hcalculated.trans hstart)⟩

end Sample

end InventoryBot.System
