import InventoryBot.Menu.Runs

/-!
# The cost ledger of a purchase

The cost of a purchase stays with the purchase and with the parts that sales took of it. It
changes once: when a sale first takes of the purchase, the linked additional costs and credit
notes are folded in. No rounding of a division can change that, since what is split off is
subtracted from what remains.

* `Move.cost`, `Moves.cost`: what moves do to the cost of one purchase.
* `Moves.liquidated`: the cost of the sales is the cost of what was liquidated.
* `purchase_cost_conserved`: both over any sequence of runs.
-/

namespace InventoryBot.Menu

open Lib CostOfSalesService

/-- The transaction is a part of the purchase `root` that a sale took. -/
def liquidatedUnder (root : String) (t : Transaction) : Bool :=
  t.parentId == some root && t.liquidationLog.isSome

/-- A sale has taken of the purchase: all of it, or a part that was split off. -/
def touchedBySale (rows : List Transaction) (p : Transaction) : Bool :=
  p.checked || rows.any (liquidatedUnder p.id)

/-- What a transaction holds of the cost of the purchase `root`. -/
def costShare (root : String) (t : Transaction) : ℚ :=
  if liquidatedUnder root t ∨ (t.parentId = none ∧ t.id = root) then t.totalCost.getD 0 else 0

/-- The cost of the purchase `root` over some transactions. -/
def costShares (root : String) (l : List Transaction) : ℚ := (l.map (costShare root)).sum

/-- The transaction is a liquidated record of the account: a purchase that was taken in full, or
    a part of one that a sale took. -/
def isLiquidated (account : String) (t : Transaction) : Bool :=
  t.moves account &&
    if t.parentId.isSome then t.liquidationLog.isSome else t.checked && BotService.isPurchase t

/-- The cost of a liquidated record. -/
def liquidatedCost (account : String) (t : Transaction) : ℚ :=
  if isLiquidated account t then t.totalCost.getD 0 else 0

/-- The cost of the liquidated records among some transactions. -/
def liquidatedCosts (account : String) (l : List Transaction) : ℚ :=
  (l.map (liquidatedCost account)).sum

theorem costShares_append (root : String) (l l' : List Transaction) :
    costShares root (l ++ l') = costShares root l + costShares root l' := by
  simp [costShares]

theorem liquidatedCosts_append (account : String) (l l' : List Transaction) :
    liquidatedCosts account (l ++ l') = liquidatedCosts account l + liquidatedCosts account l' := by
  simp [liquidatedCosts]

theorem costShare_of_root {root : String} {t : Transaction} (hp : t.parentId = none) :
    costShare root t = if t.id = root then t.totalCost.getD 0 else 0 := by
  simp [costShare, liquidatedUnder, hp]

theorem costShare_of_child {root parent : String} {t : Transaction}
    (hp : t.parentId = some parent) :
    costShare root t =
      if parent = root ∧ t.liquidationLog.isSome then t.totalCost.getD 0 else 0 := by
  simp [costShare, liquidatedUnder, hp]

theorem costShare_of_other {root : String} {t : Transaction} (hlog : t.liquidationLog = none)
    (hid : t.id ≠ root) : costShare root t = 0 := by
  simp [costShare, liquidatedUnder, hlog, hid]

/-! ## Folding in the linked amounts -/

/-- What is added to the cost of a purchase between two of its values: the linked amounts where
    it became processed, and nothing otherwise. -/
inductive Folded (P : Platform) (fb : Book) (p p' : Transaction) : ℚ → Prop
  | kept (hsame : Unprocessed p' ↔ Unprocessed p) : Folded P fb p p' 0
  | first {amounts : LinkedAmounts} (hfetch : getAdditionalCostsAndCreditNotes P fb p = .ok amounts)
      (hbefore : Unprocessed p) (hafter : ¬Unprocessed p') :
      Folded P fb p p' (amounts.additionalCosts - amounts.creditNotesAmount)

section Folded

variable {P : Platform} {fb : Book} {p p' p'' : Transaction} {amounts : LinkedAmounts}
  {cost : ℚ}

theorem Folded.trans {x y : ℚ} (hsame : SameIdentity p p') (h : Folded P fb p p' x)
    (h' : Folded P fb p' p'' y) : Folded P fb p p'' (x + y) := by
  cases h with
  | kept hkept =>
    cases h' with
    | kept hkept' =>
      rw [add_zero]
      exact .kept (hkept'.trans hkept)
    | first hfetch hbefore hafter =>
      rw [zero_add]
      exact .first (getAdditionalCostsAndCreditNotes_congr hsame ▸ hfetch) (hkept.1 hbefore) hafter
  | first hfetch hbefore hafter =>
    cases h' with
    | kept hkept =>
      rw [add_zero]
      exact .first hfetch hbefore (mt hkept.1 hafter)
    | first _ hbefore' => exact absurd hbefore' hafter

/-- A processed purchase was worth its cost, with what was folded in. -/
theorem Valued.folded {c : ℚ} (h : Valued P fb p amounts cost) (hc : p.totalCost = some c)
    (hafter : ¬Unprocessed p') : Folded P fb p p' (cost - c) := by
  obtain ⟨hamounts, transactionCost, hnew, rfl⟩ := h
  rw [hc] at hnew
  obtain rfl : c = transactionCost := Except.ok.inj hnew
  unfold unfoldedAmounts at hamounts
  split at hamounts
  · rename_i hbefore
    have hsum : c + amounts.additionalCosts - amounts.creditNotesAmount - c =
        amounts.additionalCosts - amounts.creditNotesAmount := by ring
    rw [hsum]
    exact .first hamounts hbefore hafter
  · rename_i hbefore
    cases hamounts
    have hsum : c + (0 : ℚ) - 0 - c = 0 := by ring
    rw [hsum]
    exact .kept (iff_of_false hafter hbefore)

end Folded

/-! ## One move -/

/-- What a calculation relies on and keeps about the costs of an account. -/
structure CostInvariant (account : String) (d : Desk) : Prop where
  nodup : (d.stored.map Transaction.id).Nodup
  sided : ∀ t ∈ d.stored, t.moves account → OneSided t
  costed : ∀ t ∈ d.stored, t.moves account → BotService.isPurchase t → t.checked = false →
    t.parentId = none ∧ ∃ cost, t.totalCost = some cost
  sales : ∀ t ∈ d.stored, t.moves account → BotService.isSale t → t.liquidationLog = none

section Moves

variable {P : Platform} {env : RunEnv} {fb : Book} {digits : ℕ} {account : String} {before : Date}
  {closes : ℚ → Prop} {d d' : Desk}

theorem settleSale_liquidationLog (cost : ℚ) (entries : List PurchaseLogEntry) (sale : Transaction) :
    (settleSale cost entries sale).liquidationLog = sale.liquidationLog := by
  unfold settleSale
  split <;> rfl

/-- A move keeps what the calculation relies on. -/
theorem Move.costInvariant (h : Move P env fb digits account before closes d d')
    (hd : CostInvariant account d) : CostInvariant account d' where
  nodup := h.ids ▸ hd.nodup
  sided := by
    intro t ht hmoves
    rcases h.stored_cases ht with ht | ⟨p, hp, hw⟩
    · exact hd.sided t ht hmoves
    · exact (hd.sided p hp (hw.sameIdentity.moves account ▸ hmoves)).congr hw.sameIdentity
  costed := by
    intro t ht hmoves hkind hunchecked
    rcases h.stored_cases ht with ht | ⟨p, hp, hw⟩
    · exact hd.costed t ht hmoves hkind hunchecked
    · have hsame := hw.sameIdentity
      have hpmoves : p.moves account := hsame.moves account ▸ hmoves
      have hpkind : BotService.isPurchase p := hsame.isPurchase ▸ hkind
      obtain ⟨hparent, cost, hcost⟩ := hd.costed p hp hpmoves hpkind hw.unchecked
      refine ⟨hsame.parentId.trans hparent, ?_⟩
      cases hw with
      | credited => exact ⟨cost, hcost⟩
      | applied => exact ⟨cost, hcost⟩
      | taken => exact ⟨_, rfl⟩
      | reduced => exact ⟨_, rfl⟩
      | settled hsale => exact absurd hsale ((hd.sided p hp hpmoves).not_sale hpkind)
  sales := by
    intro t ht hmoves hkind
    rcases h.stored_cases ht with ht | ⟨p, hp, hw⟩
    · exact hd.sales t ht hmoves hkind
    · have hsame := hw.sameIdentity
      have hpmoves : p.moves account := hsame.moves account ▸ hmoves
      have hpkind : BotService.isSale p := hsame.isSale ▸ hkind
      have hlog := hd.sales p hp hpmoves hpkind
      cases hw with
      | credited => exact hlog
      | applied => exact hlog
      | taken hpurchase => exact absurd hpkind ((hd.sided p hp hpmoves).not_sale hpurchase)
      | reduced => exact hlog
      | settled => rw [settleSale_liquidationLog, hlog]

/-- Rewriting makes nothing a part of a purchase. -/
theorem CostInvariant.liquidatedUnder (hd : CostInvariant account d) (root : String)
    {p t : Transaction} (hp : p ∈ d.stored) (hmoves : p.moves account) (hw : Written P p t) :
    liquidatedUnder root t = Menu.liquidatedUnder root p := by
  cases hw with
  | taken hkind hunchecked =>
    obtain ⟨hparent, -⟩ := hd.costed p hp hmoves hkind hunchecked
    simp [Menu.liquidatedUnder, taken, markProcessed, liquidatePurchase, hparent]
  | settled =>
    rw [Menu.liquidatedUnder, Menu.liquidatedUnder, settleSale_liquidationLog]
    unfold settleSale
    split <;> rfl
  | _ => rfl

/-- The stored parts of a purchase stay the same through a move. -/
theorem Move.any_liquidatedUnder (h : Move P env fb digits account before closes d d')
    (hd : CostInvariant account d) (root : String) :
    d'.stored.any (liquidatedUnder root) = d.stored.any (liquidatedUnder root) := by
  have hmap := h.map_stored (g := liquidatedUnder root) hd.nodup
    fun p hp hmoves t hw => hd.liquidatedUnder root hp hmoves hw
  have hany : ∀ l : List Transaction, l.any (liquidatedUnder root) =
      (l.map (liquidatedUnder root)).any id := by
    intro l
    rw [List.any_map]
    rfl
  rw [hany, hany, hmap]

/-- All inventory transactions that a desk shows. -/
def Desk.rows (d : Desk) : List Transaction := d.stored ++ d.created

/-- A row of a table is the one that is overwritten, or it stays. -/
theorem overwrite_row {l : List Transaction} {p q b : Transaction}
    (hids : (l.map Transaction.id).Nodup) (hp : p ∈ l) (hq : q ∈ l) (hid : q.id = b.id) :
    (p = q ∧ b ∈ overwrite b l) ∨ (p.id ≠ q.id ∧ p ∈ overwrite b l) := by
  by_cases h : p.id = q.id
  · exact Or.inl ⟨List.inj_on_of_nodup_map hids hp hq h, mem_replaceRow_self hq hid⟩
  · exact Or.inr ⟨h, mem_replaceRow_of_ne hp (hid ▸ h)⟩

theorem costShares_overwrite {l : List Transaction} {q b : Transaction} (root : String)
    (hids : (l.map Transaction.id).Nodup) (hq : q ∈ l) (hid : q.id = b.id) :
    costShares root (overwrite b l) =
      costShares root l - costShare root q + costShare root b :=
  sum_replaceRow (b := b) (costShare root) hids hq hid

/-- The cost after a purchase was overwritten by its value at another cost. -/
theorem costShares_overwrite_root {l : List Transaction} {q b : Transaction} {x y : ℚ}
    (root : String) (hids : (l.map Transaction.id).Nodup) (hq : q ∈ l) (hsame : SameIdentity q b)
    (hparent : q.parentId = none) (hx : q.totalCost = some x) (hy : b.totalCost = some y) :
    costShares root (overwrite b l) =
      costShares root l + if q.id = root then y - x else 0 := by
  rw [costShares_overwrite root hids hq hsame.id.symm, costShare_of_root hparent,
    costShare_of_root (hsame.parentId.trans hparent), hsame.id, hx, hy]
  split
  · simp
    ring
  · ring

/-- What a move makes of a purchase, of the mark that it carries and of its cost. -/
structure CostMove (P : Platform) (fb : Book) (d d' : Desk) (p p' : Transaction) : Prop where
  stored : p' ∈ d'.stored
  same : SameIdentity p p'
  touched : touchedBySale d'.rows p' = true ↔ ¬Unprocessed p'
  folded : Folded P fb p p' (costShares p.id d'.rows - costShares p.id d.rows)

theorem touchedBySale_rows (d : Desk) (p : Transaction) : touchedBySale d.rows p = (p.checked ||
    (d.stored.any (liquidatedUnder p.id) || d.created.any (liquidatedUnder p.id))) := by
  rw [touchedBySale, Desk.rows, List.any_append]

/-- A move that takes nothing of a purchase keeps its cost. -/
theorem CostMove.kept (h : Move P env fb digits account before closes d d')
    (hd : CostInvariant account d) {p p' : Transaction}
    (htouched : touchedBySale d.rows p = true ↔ ¬Unprocessed p) (hstored : p' ∈ d'.stored)
    (hsame : SameIdentity p p') (hchecked : p'.checked = p.checked)
    (hmark : Unprocessed p' ↔ Unprocessed p)
    (hcreated : d'.created.any (liquidatedUnder p.id) = d.created.any (liquidatedUnder p.id))
    (hstoredCost : costShares p.id d'.stored = costShares p.id d.stored)
    (hcreatedCost : costShares p.id d'.created = costShares p.id d.created) :
    CostMove P fb d d' p p' := by
  refine ⟨hstored, hsame, ?_, ?_⟩
  · rw [hmark, ← htouched, touchedBySale_rows, touchedBySale_rows, hsame.id, hchecked, hcreated,
      h.any_liquidatedUnder hd]
  · have hsum : costShares p.id d'.rows - costShares p.id d.rows = 0 := by
      rw [Desk.rows, Desk.rows, costShares_append, costShares_append, hstoredCost, hcreatedCost,
        sub_self]
    rw [hsum]
    exact .kept hmark

/-- A credit note takes nothing of the cost of a purchase. -/
theorem CostMove.creditNote {p q note : Transaction} {code number : String}
    (h : Move P env fb digits account before closes d
      { d with
        stored := overwrite (applied note) (overwrite (credited P note q) d.stored)
        created := d.created ++ [splitCreditNote (P.toNumber note.amount) code number q] })
    (hd : CostInvariant account d) (hq : q ∈ d.stored) (hnote : note ∈ d.stored)
    (hother : note.id ≠ q.id) (hp : p ∈ d.stored) (hpnote : p.id ≠ note.id)
    (htouched : touchedBySale d.rows p = true ↔ ¬Unprocessed p) :
    ∃ p', CostMove P fb d
      { d with
        stored := overwrite (applied note) (overwrite (credited P note q) d.stored)
        created := d.created ++ [splitCreditNote (P.toNumber note.amount) code number q] } p p' := by
  have hnodup : ((overwrite (credited P note q) d.stored).map Transaction.id).Nodup := by
    simpa using hd.nodup
  have hstill : note ∈ overwrite (credited P note q) d.stored :=
    mem_replaceRow_of_ne hnote hother
  have hsum : costShares p.id (overwrite (applied note) (overwrite (credited P note q) d.stored)) =
      costShares p.id d.stored := by
    rw [costShares_overwrite (b := applied note) p.id hnodup hstill rfl,
      costShares_overwrite (b := credited P note q) p.id hd.nodup hq rfl]
    show costShares p.id d.stored - costShare p.id q + costShare p.id q - costShare p.id note +
      costShare p.id note = _
    ring
  have hcreated : costShares p.id (d.created ++
      [splitCreditNote (P.toNumber note.amount) code number q]) = costShares p.id d.created := by
    rw [costShares_append]
    simp [costShares, costShare, liquidatedUnder, splitCreditNote]
  have hany : (d.created ++ [splitCreditNote (P.toNumber note.amount) code number q]).any
      (liquidatedUnder p.id) = d.created.any (liquidatedUnder p.id) := by
    simp [liquidatedUnder, splitCreditNote]
  rcases overwrite_row (b := credited P note q) hd.nodup hp hq rfl with ⟨rfl, hmem⟩ | ⟨-, hmem⟩
  · exact ⟨credited P note p, .kept h hd htouched (mem_replaceRow_of_ne hmem hpnote)
      ⟨rfl, rfl, rfl, rfl, rfl, rfl, rfl, rfl, rfl, rfl⟩ rfl Iff.rfl hany hsum hcreated⟩
  · exact ⟨p, .kept h hd htouched (mem_replaceRow_of_ne hmem hpnote) (.refl p) rfl Iff.rfl hany
      hsum hcreated⟩

/-- What a move does to the cost of a purchase. -/
theorem Move.cost (h : Move P env fb digits account before closes d d')
    (hd : CostInvariant account d) {p : Transaction} (hp : p ∈ d.stored)
    (hmoves : p.moves account) (hkind : BotService.isPurchase p) (hparent : p.parentId = none)
    (htouched : touchedBySale d.rows p = true ↔ ¬Unprocessed p) :
    ∃ p', CostMove P fb d d' p p' := by
  have hmove := h
  have hone := hd.sided p hp hmoves
  cases h with
  | @creditNote q note code number hq hunchecked _ hnote _ hother =>
    refine CostMove.creditNote hmove hd hq.stored hnote.stored hother hp ?_ htouched
    intro hid
    obtain rfl : p = note := List.inj_on_of_nodup_map hd.nodup hp hnote.stored hid
    exact hone.not_creditNote hkind hnote.kind
  | openSale => exact ⟨p, .kept hmove hd htouched hp (.refl p) rfl Iff.rfl rfl rfl rfl⟩
  | @take c q quantity cost amounts _ hq hunchecked _ hvalued =>
    obtain ⟨hqparent, qcost, hqcost⟩ := hd.costed q hq.stored hq.moves hq.kind hunchecked
    have hw : Written P q (taken P c.sale q quantity cost amounts) := .taken hq.kind hunchecked
    have hsum := costShares_overwrite_root p.id hd.nodup hq.stored hw.sameIdentity hqparent hqcost
      rfl
    rcases overwrite_row hd.nodup hp hq.stored hw.sameIdentity.id.symm with
      ⟨rfl, hmem⟩ | ⟨hne, hmem⟩
    · refine ⟨_, hmem, hw.sameIdentity, ?_, ?_⟩
      · rw [touchedBySale_rows]
        exact iff_of_true rfl (markProcessed_processed _)
      · have hdelta : costShares p.id (overwrite (taken P c.sale p quantity cost amounts) d.stored)
            + costShares p.id d.created - (costShares p.id d.stored + costShares p.id d.created) =
              cost - qcost := by
          rw [hsum, if_pos rfl]
          ring
        rw [Desk.rows, Desk.rows, costShares_append, costShares_append, hdelta]
        exact hvalued.folded hqcost (markProcessed_processed _)
    · refine ⟨p, .kept hmove hd htouched hmem (.refl p) rfl Iff.rfl rfl ?_ rfl⟩
      rw [hsum, if_neg (Ne.symm hne), add_zero]
  | @split c q quantity cost amounts code k _ hq hunchecked _ hvalued _ _ hlt =>
    obtain ⟨hqparent, qcost, hqcost⟩ := hd.costed q hq.stored hq.moves hq.kind hunchecked
    have hw : Written P q (reduced P q c.soldQuantity quantity cost amounts) :=
      .reduced hq.kind hunchecked hlt
    have hsum := costShares_overwrite_root p.id hd.nodup hq.stored hw.sameIdentity hqparent hqcost
      rfl
    rcases overwrite_row hd.nodup hp hq.stored hw.sameIdentity.id.symm with
      ⟨rfl, hmem⟩ | ⟨hne, hmem⟩
    · refine ⟨_, hmem, hw.sameIdentity, ?_, ?_⟩
      · refine iff_of_true ?_ (markProcessed_processed _)
        rw [touchedBySale_rows]
        simp [liquidatedUnder, splitOff, splitPurchase, reduced, markProcessed, reducePurchase]
      · have hchild : costShares p.id [splitOff P c.sale p c.soldQuantity cost code (env.uuid k)] =
            c.soldQuantity * P.div cost p.amount := by
          simp [costShares, costShare, liquidatedUnder, splitOff, splitPurchase]
        have hdelta : costShares p.id (overwrite (reduced P p c.soldQuantity quantity cost amounts)
            d.stored) + costShares p.id (d.created ++
              [splitOff P c.sale p c.soldQuantity cost code (env.uuid k)]) -
            (costShares p.id d.stored + costShares p.id d.created) = cost - qcost := by
          rw [hsum, if_pos rfl, costShares_append, hchild]
          ring
        rw [Desk.rows, Desk.rows, costShares_append p.id d.stored, costShares_append, hdelta]
        exact hvalued.folded hqcost (markProcessed_processed _)
    · have hother : liquidatedUnder p.id
          (splitOff P c.sale q c.soldQuantity cost code (env.uuid k)) = false := by
        simp [liquidatedUnder, splitOff, splitPurchase, Ne.symm hne]
      refine ⟨p, .kept hmove hd htouched hmem (.refl p) rfl Iff.rfl ?_ ?_ ?_⟩
      · rw [List.any_append, List.any_cons, hother]
        simp
      · rw [hsum, if_neg (Ne.symm hne), add_zero]
      · have hzero : costShare p.id
            (splitOff P c.sale q c.soldQuantity cost code (env.uuid k)) = 0 := by
          rw [costShare_of_child rfl, if_neg fun heq => hne heq.1.symm]
        rw [costShares_append]
        simp [costShares, hzero]
  | @closeSale c _ hsale =>
    have hne : p.id ≠ c.sale.id := by
      intro hid
      obtain rfl : p = c.sale := List.inj_on_of_nodup_map hd.nodup hp hsale.stored hid
      exact hone.not_sale hkind hsale.kind
    have hlog := hd.sales c.sale hsale.stored hsale.moves hsale.kind
    have hsettledLog := (settleSale_liquidationLog c.saleCost c.purchaseLogEntries c.sale).trans hlog
    have hsettledId := settleSale_id c.saleCost c.purchaseLogEntries c.sale
    refine ⟨p, .kept hmove hd htouched ?_ (.refl p) rfl Iff.rfl rfl ?_ rfl⟩
    · dsimp only
      split
      · exact mem_replaceRow_of_ne hp (hsettledId ▸ hne)
      · exact hp
    · dsimp only
      split
      · rw [costShares_overwrite p.id hd.nodup hsale.stored hsettledId.symm,
          costShare_of_other hlog (Ne.symm hne),
          costShare_of_other hsettledLog (hsettledId ▸ Ne.symm hne)]
        ring
      · rfl

/-- What a calculation does to the cost of a purchase: nothing, or it folds in the linked amounts
    once. -/
theorem Moves.cost (h : Moves P env fb digits account before closes d d')
    (hd : CostInvariant account d) {p : Transaction} (hp : p ∈ d.stored)
    (hmoves : p.moves account) (hkind : BotService.isPurchase p) (hparent : p.parentId = none)
    (htouched : touchedBySale d.rows p = true ↔ ¬Unprocessed p) :
    CostInvariant account d' ∧ ∃ p', CostMove P fb d d' p p' := by
  induction h with
  | refl =>
    refine ⟨hd, p, hp, .refl p, htouched, ?_⟩
    rw [sub_self]
    exact .kept Iff.rfl
  | @tail e e' _ hmove ih =>
    obtain ⟨he, q, hq⟩ := ih
    obtain ⟨p', hp'⟩ := hmove.cost he hq.stored (hq.same.moves account ▸ hmoves)
      (hq.same.isPurchase ▸ hkind) (hq.same.parentId.trans hparent) hq.touched
    refine ⟨hmove.costInvariant he, p', hp'.stored, hq.same.trans hp'.same, hp'.touched, ?_⟩
    have hsum : costShares p.id e'.rows - costShares p.id d.rows =
        (costShares p.id e.rows - costShares p.id d.rows) +
          (costShares q.id e'.rows - costShares q.id e.rows) := by
      rw [hq.same.id]
      ring
    rw [hsum]
    exact hq.folded.trans hq.same hp'.folded

/-! ## The cost of the sales -/

/-- The cost gathered for the sale in hand. -/
def Desk.costInHand (d : Desk) : ℚ := (d.current.map SaleInHand.saleCost).getD 0

/-- The cost of the sales that a desk shows. -/
def Desk.salesCost (d : Desk) : ℚ := amounts d.posted + d.costInHand

theorem liquidatedCosts_overwrite {l : List Transaction} {q b : Transaction}
    (hids : (l.map Transaction.id).Nodup) (hq : q ∈ l) (hid : q.id = b.id) :
    liquidatedCosts account (overwrite b l) =
      liquidatedCosts account l - liquidatedCost account q + liquidatedCost account b :=
  sum_replaceRow (b := b) (liquidatedCost account) hids hq hid

theorem liquidatedCost_of_unchecked {t : Transaction} (hparent : t.parentId = none)
    (hunchecked : t.checked = false) : liquidatedCost account t = 0 := by
  simp [liquidatedCost, isLiquidated, hparent, hunchecked]

theorem liquidatedCost_of_other {t : Transaction} (hlog : t.liquidationLog = none)
    (hkind : ¬BotService.isPurchase t) : liquidatedCost account t = 0 := by
  unfold liquidatedCost isLiquidated
  rw [hlog, Bool.eq_false_iff.2 hkind]
  simp

/-- What a move adds to the cost of the sales it adds to the cost of the liquidated records. -/
theorem Move.liquidated (h : Move P env fb digits account before closes d d')
    (hd : CostInvariant account d) :
    d'.salesCost - liquidatedCosts account d'.rows =
      d.salesCost - liquidatedCosts account d.rows := by
  simp only [Desk.rows, liquidatedCosts_append, Desk.salesCost, Desk.costInHand]
  cases h with
  | @creditNote p note code number hp hunchecked _ hnote _ hother =>
    obtain ⟨hparent, -⟩ := hd.costed p hp.stored hp.moves hp.kind hunchecked
    have hnodup : ((overwrite (credited P note p) d.stored).map Transaction.id).Nodup := by
      simpa using hd.nodup
    have hstill : note ∈ overwrite (credited P note p) d.stored :=
      mem_replaceRow_of_ne hnote.stored hother
    have hpurchase : BotService.isPurchase note = false := Bool.eq_false_iff.2 fun hkind =>
      (hd.sided note hnote.stored hnote.moves).not_creditNote hkind hnote.kind
    have hnoteCost : liquidatedCost account (applied note) = liquidatedCost account note := by
      have hmoves : (applied note).moves account = note.moves account := rfl
      have hkind : BotService.isPurchase (applied note) = BotService.isPurchase note := rfl
      simp only [liquidatedCost, isLiquidated, hmoves, hkind, hpurchase, Bool.and_false]
      rfl
    have hstored : liquidatedCosts account
        (overwrite (applied note) (overwrite (credited P note p) d.stored)) =
          liquidatedCosts account d.stored := by
      rw [liquidatedCosts_overwrite (b := applied note) hnodup hstill rfl,
        liquidatedCosts_overwrite (b := credited P note p) hd.nodup hp.stored rfl, hnoteCost,
        liquidatedCost_of_unchecked hparent hunchecked,
        liquidatedCost_of_unchecked (t := credited P note p) hparent hunchecked]
      ring
    have hsplit : liquidatedCosts account
        [splitCreditNote (P.toNumber note.amount) code number p] = 0 := by
      simp [liquidatedCosts, liquidatedCost, isLiquidated, splitCreditNote]
    rw [hstored, liquidatedCosts_append, hsplit, add_zero]
  | openSale _ _ hidle => simp [hidle]
  | @take c p quantity cost linked hcurrent hp hunchecked =>
    obtain ⟨hparent, -⟩ := hd.costed p hp.stored hp.moves hp.kind hunchecked
    have hw : Written P p (taken P c.sale p quantity cost linked) := .taken hp.kind hunchecked
    have htaken : liquidatedCost account (taken P c.sale p quantity cost linked) = cost := by
      have hmoves := (hw.sameIdentity.moves account).trans hp.moves
      have hkind := hw.sameIdentity.isPurchase.trans hp.kind
      have hnone := hw.sameIdentity.parentId.trans hparent
      unfold liquidatedCost isLiquidated
      rw [hmoves, hkind, hnone]
      rfl
    rw [liquidatedCosts_overwrite (b := taken P c.sale p quantity cost linked) hd.nodup hp.stored
      rfl, htaken, liquidatedCost_of_unchecked hparent hunchecked, hcurrent]
    show amounts d.posted + (c.saleCost + cost) - _ = amounts d.posted + c.saleCost - _
    ring
  | @split c p quantity cost linked code k hcurrent hp hunchecked _ _ _ _ hlt =>
    obtain ⟨hparent, -⟩ := hd.costed p hp.stored hp.moves hp.kind hunchecked
    have hsplit : liquidatedCosts account
        [splitOff P c.sale p c.soldQuantity cost code (env.uuid k)] =
          c.soldQuantity * P.div cost p.amount := by
      have hmoves : (splitOff P c.sale p c.soldQuantity cost code (env.uuid k)).moves account :=
        hp.moves
      simp [liquidatedCosts, liquidatedCost, isLiquidated, hmoves]
      rfl
    rw [liquidatedCosts_overwrite (b := reduced P p c.soldQuantity quantity cost linked) hd.nodup
      hp.stored rfl, liquidatedCost_of_unchecked hparent hunchecked,
      liquidatedCost_of_unchecked (t := reduced P p c.soldQuantity quantity cost linked) hparent
        hunchecked, liquidatedCosts_append, hsplit, hcurrent]
    show amounts d.posted + (c.saleCost + c.soldQuantity * P.div cost p.amount) - _ =
      amounts d.posted + c.saleCost - _
    ring
  | @closeSale c hcurrent hsale hopen =>
    have hkind : ¬BotService.isPurchase c.sale := fun hkind =>
      (hd.sided c.sale hsale.stored hsale.moves).not_sale hkind hsale.kind
    have hw : Written P c.sale (settleSale c.saleCost c.purchaseLogEntries c.sale) :=
      .settled hsale.kind hopen
    have hlog := hd.sales c.sale hsale.stored hsale.moves hsale.kind
    have hstored : liquidatedCosts account
        (overwrite (settleSale c.saleCost c.purchaseLogEntries c.sale) d.stored) =
          liquidatedCosts account d.stored := by
      rw [liquidatedCosts_overwrite hd.nodup hsale.stored hw.sameIdentity.id.symm,
        liquidatedCost_of_other hlog hkind,
        liquidatedCost_of_other ((settleSale_liquidationLog _ _ _).trans hlog)
          (hw.sameIdentity.isPurchase ▸ hkind)]
      ring
    have hposted : amounts (d.posted ++ [costOfSaleTransaction P env fb c.sale c.saleCost]) =
        amounts d.posted + c.saleCost := by
      simp [amounts, costOfSaleTransaction]
    rw [hposted, hcurrent]
    dsimp only
    split
    · rw [hstored]
      simp
    · simp

/-- What a calculation adds to the cost of the sales it adds to the cost of the liquidated
    records. -/
theorem Moves.liquidated (h : Moves P env fb digits account before closes d d')
    (hd : CostInvariant account d) :
    d'.salesCost - liquidatedCosts account d'.rows =
      d.salesCost - liquidatedCosts account d.rows := by
  have hkeeps := h.preserves (I := fun e => CostInvariant account e ∧
    e.salesCost - liquidatedCosts account e.rows =
      d.salesCost - liquidatedCosts account d.rows) ?_ ⟨hd, rfl⟩
  · exact hkeeps.2
  · rintro e e' hmove ⟨he, hsum⟩
    exact ⟨hmove.costInvariant he, (hmove.liquidated he).trans hsum⟩

end Moves

/-! ## Runs -/

/-- The costs of the parts that sales took of the purchase `root`. -/
def splitCosts (root : String) (l : List Transaction) : ℚ :=
  ((l.filter (liquidatedUnder root)).map fun t => t.totalCost.getD 0).sum

/-- A run of completed calculations with what it leaves no trace of in the books: the amounts
    that were linked to each purchase when a sale first touched it, and which transactions of the
    financial book the calculations posted. -/
structure CostHistory where
  state : State
  folded : String → Option LinkedAmounts
  cogs : List String

/-- The linked amounts of a purchase that a run from `s` to `s'` was the first to touch. It reads
    the transactions of the financial book before the run, and the accounts with the one that the
    run may have created. -/
def firstTouch (P : Platform) (s s' : State) (id : String) : Option LinkedAmounts :=
  (s.inventoryBook.transactions.find? (·.id == id)).bind fun p =>
    (s'.inventoryBook.transactions.find? (·.id == id)).bind fun p' =>
      if touchedBySale s'.inventoryBook.transactions p' &&
          !touchedBySale s.inventoryBook.transactions p then
        (getAdditionalCostsAndCreditNotes P
          { s.financialBook with accounts := s'.financialBook.accounts } p).toOption
      else none

/-- The transactions that a run added to the financial book. -/
def newFinancialIds (s s' : State) : List String :=
  (s'.financialBook.transactions.map Transaction.id).filter fun id =>
    id ∉ s.financialBook.transactions.map Transaction.id

/-- The history after a run. -/
def CostHistory.next (P : Platform) (h : CostHistory) (s' : State) : CostHistory where
  state := s'
  folded := fun id => h.folded id <|> firstTouch P h.state s' id
  cogs := h.cogs ++ newFinancialIds h.state s'

/-- The sum of the amounts that calculations posted. -/
def CostHistory.cogsTotal (h : CostHistory) : ℚ :=
  amounts (h.state.financialBook.transactions.filter fun t => t.id ∈ h.cogs)

/-- One step of a history: a completed calculation, or any change of the financial book that
    keeps the transactions that calculations posted. -/
inductive CostStep (P : Platform) (collection : Option (List BookInfo)) (goodAccountId : String) :
    CostHistory → CostHistory → Prop
  | run {h : CostHistory} {s' : State}
      (hrun : Calculates P collection goodAccountId h.state s') :
      CostStep P collection goodAccountId h (h.next P s')
  | edit {h : CostHistory} (financialBook : Book)
      (hkept : financialBook.transactions.filter (fun t => t.id ∈ h.cogs) =
        h.state.financialBook.transactions.filter fun t => t.id ∈ h.cogs) :
      CostStep P collection goodAccountId h
        { h with state := { h.state with financialBook := financialBook } }

/-- An account whose purchases are as they are posted, with nothing liquidated. -/
structure CostsPosted (account : String) (b : Book) : Prop where
  purchases : ∀ p ∈ b.transactions, p.moves account → BotService.isPurchase p →
    p.checked = false ∧ p.parentId = none ∧ p.purchaseLog = none ∧ Unprocessed p ∧
      ∃ cost, p.goodPurchaseCost = some cost ∧ p.totalCost = some cost
  unliquidated : ∀ t ∈ b.transactions, t.moves account → t.liquidationLog = none
  unsplit : ∀ p ∈ b.transactions, p.moves account → BotService.isPurchase p →
    ∀ t ∈ b.transactions, t.parentId ≠ some p.id

/-- What was folded into the cost of a purchase. -/
def foldedCost : Option LinkedAmounts → ℚ
  | none => 0
  | some amounts => amounts.additionalCosts - amounts.creditNotesAmount

/-- The costs of an account between runs. -/
structure CostLedger (account : String) (h : CostHistory) : Prop where
  costed : ∀ t ∈ h.state.inventoryBook.transactions, t.moves account → BotService.isPurchase t →
    t.checked = false → t.parentId = none ∧ ∃ cost, t.totalCost = some cost
  sales : ∀ t ∈ h.state.inventoryBook.transactions, t.moves account → BotService.isSale t →
    t.liquidationLog = none
  priced : ∀ t ∈ h.state.inventoryBook.transactions, t.moves account → BotService.isPurchase t →
    t.goodPurchaseCost.isSome → t.totalCost.isSome
  balance : ∀ p ∈ h.state.inventoryBook.transactions, p.moves account → BotService.isPurchase p →
    ∀ cost, p.goodPurchaseCost = some cost → p.parentId = none ∧
      (touchedBySale h.state.inventoryBook.transactions p = true ↔ ¬Unprocessed p) ∧
      ((h.folded p.id).isSome = touchedBySale h.state.inventoryBook.transactions p) ∧
      costShares p.id h.state.inventoryBook.transactions = cost + foldedCost (h.folded p.id)
  cogs : h.cogsTotal = liquidatedCosts account h.state.inventoryBook.transactions

/-- The cost of a purchase is its own cost and that of its parts. -/
theorem costShares_eq {l : List Transaction} (hids : (l.map Transaction.id).Nodup)
    {p : Transaction} (hp : p ∈ l) (hparent : p.parentId = none) :
    costShares p.id l = p.totalCost.getD 0 + splitCosts p.id l := by
  have hshares : costShares p.id l = (l.map fun t =>
      if liquidatedUnder p.id t = true ∨ t.id = p.id then t.totalCost.getD 0 else 0).sum := by
    refine congrArg List.sum (List.map_congr_left fun t ht => ?_)
    by_cases hid : t.id = p.id
    · obtain rfl : t = p := List.inj_on_of_nodup_map hids ht hp hid
      rw [costShare_of_root hparent]
      simp
    · simp [costShare, hid]
  rw [hshares, sum_map_row_or_kind (fun t => t.totalCost.getD 0) hids hp
    (by simp [liquidatedUnder, hparent])]
  rfl

section Posting

variable {account root id : String} {now : ℕ} {newId : ℕ → String} {t : Transaction}
  {l : List Transaction}

theorem costShares_postAll (h : ∀ t ∈ l, t.parentId ≠ none) :
    costShares root (Book.postAll newId now l) = costShares root l := by
  induction l generalizing newId with
  | nil => rfl
  | cons t l ih =>
    obtain ⟨parent, hparent⟩ := Option.ne_none_iff_exists'.1 (h t List.mem_cons_self)
    have hone : costShare root (Book.post (newId 0) now t) = costShare root t := by
      rw [costShare_of_child hparent, costShare_of_child (t := Book.post (newId 0) now t) hparent]
      rfl
    have hrest : costShares root (Book.postAll (fun k => newId (k + 1)) now l) = costShares root l :=
      ih fun u hu => h u (List.mem_cons_of_mem _ hu)
    simp only [costShares, Book.postAll_cons, List.map_cons, List.sum_cons] at hrest ⊢
    rw [hrest, hone]

theorem liquidatedCosts_postAll (h : ∀ t ∈ l, t.parentId ≠ none) :
    liquidatedCosts account (Book.postAll newId now l) = liquidatedCosts account l := by
  induction l generalizing newId with
  | nil => rfl
  | cons t l ih =>
    obtain ⟨parent, hparent⟩ := Option.ne_none_iff_exists'.1 (h t List.mem_cons_self)
    have hone : liquidatedCost account (Book.post (newId 0) now t) = liquidatedCost account t := by
      have hposted : (Book.post (newId 0) now t).parentId = some parent := hparent
      unfold liquidatedCost isLiquidated
      rw [hparent, hposted]
      rfl
    have hrest : liquidatedCosts account (Book.postAll (fun k => newId (k + 1)) now l) =
        liquidatedCosts account l :=
      ih fun u hu => h u (List.mem_cons_of_mem _ hu)
    simp only [liquidatedCosts, Book.postAll_cons, List.map_cons, List.sum_cons] at hrest ⊢
    rw [hrest, hone]

theorem any_liquidatedUnder_postAll :
    (Book.postAll newId now l).any (liquidatedUnder root) = l.any (liquidatedUnder root) := by
  induction l generalizing newId with
  | nil => rfl
  | cons t l ih =>
    rw [Book.postAll_cons, List.any_cons, List.any_cons, ih]
    rfl

theorem amounts_postAll : amounts (Book.postAll newId now l) = amounts l :=
  congrArg List.sum (Book.map_postAll newId now l fun _ _ => rfl)

end Posting

section Runs

variable {P : Platform} {collection : Option (List BookInfo)} {env : RunEnv} {s s' : State}
  {goodAccountId account : String} {toDate : Date} {goodAccount : Account} {d : Desk}
  {h h' : CostHistory}

/-- The transactions that a calculation adds to the financial book are the ones it posts. -/
theorem CalculationFires.newFinancialIds (hfresh : env.Fresh s)
    (hfires : CalculationFires P env s goodAccountId toDate (fun _ => True) goodAccount d s') :
    newFinancialIds s s' = (Book.postAll env.financialId env.now d.posted).map Transaction.id := by
  unfold Menu.newFinancialIds
  rw [hfires.financial, List.map_append, List.filter_append]
  have hold : ((s.financialBook.transactions.map Transaction.id).filter fun id =>
      decide (id ∉ s.financialBook.transactions.map Transaction.id)) = [] :=
    List.filter_eq_nil_iff.2 fun id hid => by simpa using hid
  rw [hold, List.nil_append]
  refine List.filter_eq_self.2 fun id hid => ?_
  obtain ⟨t, ht, rfl⟩ := List.mem_map.1 hid
  obtain ⟨k, u, -, rfl⟩ := Book.mem_postAll ht
  exact decide_eq_true (hfresh.financialIds.new k)

/-- A calculation adds the cost of its sales to what calculations posted. -/
theorem CalculationFires.cogsTotal (hfresh : env.Fresh h.state)
    (hfires : CalculationFires P env h.state goodAccountId toDate (fun _ => True) goodAccount d s') :
    (h.next P s').cogsTotal = h.cogsTotal + amounts d.posted := by
  have hnew := hfires.newFinancialIds hfresh
  have hold : h.state.financialBook.transactions.filter
      (fun t => t.id ∈ h.cogs ++ Menu.newFinancialIds h.state s') =
        h.state.financialBook.transactions.filter fun t => t.id ∈ h.cogs := by
    refine List.filter_congr fun t ht => ?_
    have hnot : t.id ∉ Menu.newFinancialIds h.state s' := by
      intro hid
      have hid := (List.mem_filter.1 hid).2
      exact of_decide_eq_true hid (List.mem_map_of_mem ht)
    simp [hnot]
  have hposted : (Book.postAll env.financialId env.now d.posted).filter
      (fun t => t.id ∈ h.cogs ++ Menu.newFinancialIds h.state s') =
        Book.postAll env.financialId env.now d.posted := by
    refine List.filter_eq_self.2 fun t ht => ?_
    rw [hnew]
    exact decide_eq_true (List.mem_append_right _ (List.mem_map_of_mem ht))
  unfold CostHistory.cogsTotal CostHistory.next
  dsimp only
  rw [hfires.financial, List.filter_append, hold, hposted]
  unfold amounts
  rw [List.map_append, List.sum_append]
  exact congrArg _ amounts_postAll

/-- What a calculation that fires makes of a purchase of the account. -/
theorem CalculationFires.purchase
    (hfires : CalculationFires P env s goodAccountId toDate (fun _ => True) goodAccount d s')
    (hstart : CostInvariant goodAccount.name (Desk.start s.inventoryBook.transactions))
    {p p' : Transaction} (hp : p ∈ s.inventoryBook.transactions) (hmoves : p.moves goodAccount.name)
    (hkind : BotService.isPurchase p) (hparent : p.parentId = none)
    (htouched : touchedBySale s.inventoryBook.transactions p = true ↔ ¬Unprocessed p)
    (hp' : p' ∈ d.stored) (hid : p'.id = p.id) :
    (touchedBySale s'.inventoryBook.transactions p' = true ↔ ¬Unprocessed p') ∧
      Folded P (costOfSalesBook env s) p p' (costShares p.id s'.inventoryBook.transactions -
        costShares p.id s.inventoryBook.transactions) := by
  have hrows : (Desk.start s.inventoryBook.transactions).rows = s.inventoryBook.transactions :=
    List.append_nil _
  obtain ⟨hd, q, hstored, hsame, hmark, hfolded⟩ :=
    hfires.moves.cost hstart hp hmoves hkind hparent (hrows.symm ▸ htouched)
  obtain rfl : q = p' := List.inj_on_of_nodup_map hd.nodup hstored hp' (hsame.id.trans hid.symm)
  rw [hrows] at hfolded
  rw [touchedBySale_rows] at hmark
  rw [touchedBySale, hfires.inventory, List.any_append, any_liquidatedUnder_postAll,
    costShares_append, costShares_postAll hfires.created_parent, ← costShares_append]
  exact ⟨hmark, hfolded⟩

theorem totalCost_of_trace {t t' : Transaction} (h : Relation.ReflTransGen (Written P) t t')
    (ht : t.totalCost.isSome) : t'.totalCost.isSome := by
  induction h with
  | refl => exact ht
  | tail _ hw ih =>
    cases hw with
    | credited => exact ih
    | applied => exact ih
    | taken => rfl
    | reduced => rfl
    | settled =>
      unfold settleSale
      split
      · rfl
      · exact ih

/-- The folded amounts after a run, over what the run did to the cost. -/
theorem Folded.next {touched touched' : Bool} {p p' : Transaction} {fb : Book} {x cost : ℚ}
    {known first : Option LinkedAmounts} (hfolded : Folded P fb p p' (x - (cost + foldedCost known)))
    (htouched : touched = true ↔ ¬Unprocessed p) (htouched' : touched' = true ↔ ¬Unprocessed p')
    (hknown : known.isSome = touched)
    (hfirst : first = if touched' && !touched then
      (getAdditionalCostsAndCreditNotes P fb p).toOption else none) :
    (known <|> first).isSome = touched' ∧ x = cost + foldedCost (known <|> first) := by
  generalize hdelta : x - (cost + foldedCost known) = delta at hfolded
  cases hfolded with
  | kept hsame =>
    have hsame' : touched' = touched := by
      rw [Bool.eq_iff_iff, htouched, htouched', hsame]
    rw [hsame', Bool.and_not_self] at hfirst
    rw [show (known <|> first) = known by rw [hfirst]; cases known <;> rfl, hsame']
    exact ⟨hknown, by linarith⟩
  | first hfetch hbefore hafter =>
    have ht' : touched' = true := htouched'.2 hafter
    have ht : touched = false := by
      rw [← Bool.not_eq_true, htouched]
      exact not_not.2 hbefore
    rw [ht] at hknown
    rw [ht, ht', hfetch] at hfirst
    obtain rfl : known = none := by simpa using hknown
    rw [hfirst, ht']
    refine ⟨rfl, ?_⟩
    simp only [foldedCost] at hdelta
    show x = cost + (_ - _)
    linarith

/-- A calculation that fires keeps the ledger. -/
theorem CalculationFires.costLedger (hwf : WellFormed h.state.inventoryBook)
    (hfresh : env.Fresh h.state) (hs : CostLedger goodAccount.name h)
    (hfires : CalculationFires P env h.state goodAccountId toDate (fun _ => True) goodAccount d s') :
    CostLedger goodAccount.name (h.next P s') := by
  have hone : ∀ t ∈ h.state.inventoryBook.transactions, t.moves goodAccount.name → OneSided t :=
    fun t ht hm => hwf.oneSided hfires.passed.account hfires.passed.notIncoming
      hfires.passed.notOutgoing ht hm
  have hstart : CostInvariant goodAccount.name (Desk.start h.state.inventoryBook.transactions) :=
    ⟨hwf.ids, hone, hs.costed, hs.sales⟩
  have hd : CostInvariant goodAccount.name d :=
    hfires.moves.preserves (fun _ _ hmove he => hmove.costInvariant he) hstart
  refine ⟨?_, ?_, ?_, ?_, ?_⟩
  · intro t ht hmoves hkind hunchecked
    rcases hfires.mem_cases ht with ⟨hst, -⟩ | ⟨k, u, hu, rfl, p, hp, hsplit, -⟩
    · exact hd.costed t hst hmoves hkind hunchecked
    · rw [show (Book.post (env.inventoryId k) env.now u).checked = u.checked from rfl,
        hsplit.checked] at hunchecked
      cases hunchecked
  · intro t ht hmoves hkind
    rcases hfires.mem_cases ht with ⟨hst, -⟩ | ⟨k, u, hu, rfl, p, hp, hsplit, hpkind⟩
    · exact hd.sales t hst hmoves hkind
    · have hpmoves : p.moves goodAccount.name := (hsplit.moves goodAccount.name).symm.trans hmoves
      obtain ⟨-, r, hr, htype⟩ := isSale_iff.1 hkind
      exact absurd htype (hone p hp hpmoves hpkind r (hsplit.debitAccount.symm.trans hr)).2
  · intro t ht hmoves hkind hcost
    rcases hfires.mem_cases ht with ⟨-, p, hp, htrace⟩ | ⟨k, u, hu, rfl, p, hp, hsplit, -⟩
    · have hsame := sameIdentity_of_trace htrace
      exact totalCost_of_trace htrace (hs.priced p hp (hsame.moves goodAccount.name ▸ hmoves)
        (hsame.isPurchase ▸ hkind) (hsame.goodPurchaseCost ▸ hcost))
    · have hnone : u.goodPurchaseCost.isSome := hcost
      rw [hsplit.goodPurchaseCost] at hnone
      cases hnone
  · intro p' hp' hmoves hkind cost hcost
    rcases hfires.mem_cases hp' with ⟨hst, p, hp, htrace⟩ | ⟨k, u, hu, rfl, p, hp, hsplit, -⟩
    · have hsame := sameIdentity_of_trace htrace
      have hpmoves : p.moves goodAccount.name := hsame.moves goodAccount.name ▸ hmoves
      have hpkind : BotService.isPurchase p := hsame.isPurchase ▸ hkind
      obtain ⟨hparent, htouched, hknown, hbalance⟩ :=
        hs.balance p hp hpmoves hpkind cost (hsame.goodPurchaseCost ▸ hcost)
      obtain ⟨htouched', hfolded⟩ := hfires.purchase hstart hp hpmoves hpkind hparent htouched
        hst hsame.id
      refine ⟨hsame.parentId.trans hparent, htouched', ?_⟩
      rw [hsame.id]
      have hfirst : firstTouch P h.state s' p.id =
          if touchedBySale s'.inventoryBook.transactions p' &&
              !touchedBySale h.state.inventoryBook.transactions p then
            (getAdditionalCostsAndCreditNotes P (costOfSalesBook env h.state) p).toOption
          else none := by
        rw [firstTouch, find?_key hwf.ids hp rfl,
          find?_key (hfires.wellFormed hwf hfresh).ids hp' hsame.id, hfires.financialAccounts]
        rfl
      show ((h.folded p.id <|> firstTouch P h.state s' p.id).isSome =
          touchedBySale s'.inventoryBook.transactions p') ∧
        costShares p.id s'.inventoryBook.transactions =
          cost + foldedCost (h.folded p.id <|> firstTouch P h.state s' p.id)
      rw [hbalance] at hfolded
      exact hfolded.next htouched htouched' hknown hfirst
    · have hnone : u.goodPurchaseCost = some cost := hcost
      rw [hsplit.goodPurchaseCost] at hnone
      cases hnone
  · have hliquidated := hfires.moves.liquidated hstart
    have hsales : d.salesCost = amounts d.posted := by
      rw [Desk.salesCost, Desk.costInHand, hfires.idle]
      exact add_zero _
    have hrows : (Desk.start h.state.inventoryBook.transactions).rows =
        h.state.inventoryBook.transactions := List.append_nil _
    have hzero : (Desk.start h.state.inventoryBook.transactions).salesCost = 0 := by
      simp [Desk.salesCost, Desk.costInHand, Desk.start, amounts]
    rw [hsales, hrows, hzero, Desk.rows, liquidatedCosts_append] at hliquidated
    rw [hfires.cogsTotal hfresh, hs.cogs]
    show _ = liquidatedCosts goodAccount.name s'.inventoryBook.transactions
    rw [hfires.inventory, liquidatedCosts_append, liquidatedCosts_postAll hfires.created_parent]
    linarith

/-- A purchase as posted is untouched. -/
theorem CostsPosted.untouched {b : Book} (hposted : CostsPosted account b) {p : Transaction}
    (hp : p ∈ b.transactions) (hmoves : p.moves account) (hkind : BotService.isPurchase p) :
    touchedBySale b.transactions p = false := by
  have hany : b.transactions.any (liquidatedUnder p.id) = false := by
    refine List.any_eq_false.2 fun t ht hunder => hposted.unsplit p hp hmoves hkind t ht ?_
    simp only [liquidatedUnder, Bool.and_eq_true, beq_iff_eq] at hunder
    exact hunder.1
  rw [touchedBySale, (hposted.purchases p hp hmoves hkind).1, hany]
  rfl

/-- An account as posted has a balanced ledger. -/
theorem CostsPosted.ledger (hwf : WellFormed h.state.inventoryBook)
    (hposted : CostsPosted account h.state.inventoryBook) (hcogs : h.cogs = [])
    (hfolded : ∀ p ∈ h.state.inventoryBook.transactions, p.moves account → BotService.isPurchase p →
      h.folded p.id = none) : CostLedger account h where
  costed := by
    intro t ht hmoves hkind _
    obtain ⟨-, hparent, -, -, cost, -, hcost⟩ := hposted.purchases t ht hmoves hkind
    exact ⟨hparent, cost, hcost⟩
  sales := fun t ht hmoves _ => hposted.unliquidated t ht hmoves
  priced := by
    intro t ht hmoves hkind _
    obtain ⟨-, -, -, -, cost, -, hcost⟩ := hposted.purchases t ht hmoves hkind
    rw [hcost]
    rfl
  balance := by
    intro p hp hmoves hkind cost hgood
    obtain ⟨-, hparent, -, hunprocessed, cost', hgood', hcost⟩ :=
      hposted.purchases p hp hmoves hkind
    obtain rfl : cost' = cost := Option.some.inj (hgood'.symm.trans hgood)
    have huntouched := hposted.untouched hp hmoves hkind
    have hnone : splitCosts p.id h.state.inventoryBook.transactions = 0 := by
      have hempty : h.state.inventoryBook.transactions.filter (liquidatedUnder p.id) = [] := by
        refine List.filter_eq_nil_iff.2 fun t ht hunder => hposted.unsplit p hp hmoves hkind t ht ?_
        simp only [liquidatedUnder, Bool.and_eq_true, beq_iff_eq] at hunder
        exact hunder.1
      rw [splitCosts, hempty]
      rfl
    rw [huntouched, hfolded p hp hmoves hkind, costShares_eq hwf.ids hp hparent, hcost, hnone]
    exact ⟨hparent, iff_of_false (by simp) (not_not.2 hunprocessed), rfl, rfl⟩
  cogs := by
    have hcosts : liquidatedCosts account h.state.inventoryBook.transactions = 0 := by
      refine List.sum_eq_zero fun x hx => ?_
      obtain ⟨t, ht, rfl⟩ := List.mem_map.1 hx
      unfold liquidatedCost
      refine if_neg fun hliquidated => ?_
      simp only [isLiquidated, Bool.and_eq_true] at hliquidated
      obtain ⟨hmoves, hliquidated⟩ := hliquidated
      rw [hposted.unliquidated t ht hmoves] at hliquidated
      split at hliquidated
      · cases hliquidated
      · rw [Bool.and_eq_true] at hliquidated
        have hunchecked := (hposted.purchases t ht hmoves hliquidated.2).1
        rw [hliquidated.1] at hunchecked
        cases hunchecked
    rw [hcosts, CostHistory.cogsTotal, hcogs]
    simp [amounts]

/-- A reset keeps an account as posted. -/
theorem ResetDone.costsPosted (hs : CostsPosted goodAccount.name s.inventoryBook)
    (hdone : ResetDone P s goodAccountId goodAccount s') :
    CostsPosted goodAccount.name s'.inventoryBook := by
  refine ⟨?_, ?_, ?_⟩
  · intro p' hp' hmoves hkind
    obtain ⟨p, hp, -, rfl⟩ := hdone.mem hp'
    have hsame := resetRow_sameIdentity P goodAccount.name p
    rw [hsame.moves] at hmoves
    rw [hsame.isPurchase] at hkind
    obtain ⟨hunchecked, hparent, hlog, hunprocessed, cost, hgood, hcost⟩ :=
      hs.purchases p hp hmoves hkind
    rw [hsame.parentId, hsame.goodPurchaseCost]
    rcases resetRow_cases P goodAccount.name p with hrow | ⟨-, hrow⟩
    · rw [hrow]
      exact ⟨hunchecked, hparent, hlog, hunprocessed, cost, hgood, hcost⟩
    · rcases resetUpdate_cases hrow with
        ⟨hsome, -⟩ | ⟨-, cost', q, hcost', -, he⟩ | ⟨-, -, hnote, -⟩
      · rw [hlog] at hsome
        cases hsome
      · rw [hgood] at hcost'
        obtain rfl : cost = cost' := Except.ok.inj hcost'
        rw [he]
        exact ⟨rfl, hparent, hlog, ⟨rfl, rfl⟩, cost, hgood, rfl⟩
      · rw [hunprocessed.1] at hnote
        cases hnote
  · intro t' ht' hmoves
    obtain ⟨t, ht, -, rfl⟩ := hdone.mem ht'
    have hsame := resetRow_sameIdentity P goodAccount.name t
    have hlog := hs.unliquidated t ht (hsame.moves goodAccount.name ▸ hmoves)
    rcases resetRow_cases P goodAccount.name t with hrow | ⟨-, hrow⟩
    · rw [hrow, hlog]
    · rcases resetUpdate_cases hrow with ⟨-, he⟩ | ⟨-, cost, q, -, -, he⟩ | ⟨-, -, -, he⟩
      · rw [he]
        exact hlog
      · rw [he]
      · rw [he]
        exact hlog
  · intro p' hp' hmoves hkind t' ht' hparent
    obtain ⟨p, hp, -, rfl⟩ := hdone.mem hp'
    obtain ⟨t, ht, -, rfl⟩ := hdone.mem ht'
    have hpsame := resetRow_sameIdentity P goodAccount.name p
    have htsame := resetRow_sameIdentity P goodAccount.name t
    rw [htsame.parentId, hpsame.id] at hparent
    exact hs.unsplit p hp (hpsame.moves goodAccount.name ▸ hmoves) (hpsame.isPurchase ▸ hkind) t ht
      hparent

/-- What runs keep about the costs of the account: its ledger, the purchases it started with, and
    that it is as posted while it is flagged. -/
structure CostState (goodAccountId : String) (account : String) (start : List Transaction)
    (h : CostHistory) : Prop where
  wellFormed : WellFormed h.state.inventoryBook
  found : ∃ a, h.state.inventoryBook.getAccount goodAccountId = some a ∧ a.name = account ∧
    (GoodAccount.needsRebuild a → CostsPosted account h.state.inventoryBook ∧ h.cogs = [] ∧
      ∀ p ∈ h.state.inventoryBook.transactions, p.moves account → BotService.isPurchase p →
        h.folded p.id = none)
  ledger : CostLedger account h
  kept : ∀ p₀ ∈ start, p₀.moves account → BotService.isPurchase p₀ → p₀.parentId = none →
    ∃ p ∈ h.state.inventoryBook.transactions, SameIdentity p₀ p

/-- A run that writes no transaction adds nothing to a history. -/
theorem CostHistory.next_of_same (h : CostHistory) (s' : State)
    (hinventory : s'.inventoryBook = h.state.inventoryBook)
    (hfinancial : s'.financialBook.transactions = h.state.financialBook.transactions) :
    h.next P s' = { h with state := s' } := by
  have hfirst : ∀ id, firstTouch P h.state s' id = none := by
    intro id
    unfold firstTouch
    rw [hinventory]
    cases h.state.inventoryBook.transactions.find? (·.id == id) with
    | none => rfl
    | some p => simp
  have hnew : Menu.newFinancialIds h.state s' = [] := by
    unfold Menu.newFinancialIds
    rw [hfinancial]
    exact List.filter_eq_nil_iff.2 fun id hid => by simpa using hid
  have hfolded : (fun id => h.folded id <|> firstTouch P h.state s' id) = h.folded := by
    funext id
    rw [hfirst]
    cases h.folded id <;> rfl
  unfold CostHistory.next
  rw [hfolded, hnew, List.append_nil]

/-- A reset of an account as posted folds in nothing. -/
theorem ResetDone.firstTouch (hwf : WellFormed s.inventoryBook)
    (hs : CostsPosted goodAccount.name s.inventoryBook)
    (hdone : ResetDone P s goodAccountId goodAccount s') {p : Transaction}
    (hp : p ∈ s'.inventoryBook.transactions) (hmoves : p.moves goodAccount.name)
    (hkind : BotService.isPurchase p) : Menu.firstTouch P s s' p.id = none := by
  have huntouched := (hdone.costsPosted hs).untouched hp hmoves hkind
  unfold Menu.firstTouch
  rw [find?_key (hdone.wellFormed hwf).ids hp rfl]
  cases s.inventoryBook.transactions.find? (·.id == p.id) with
  | none => rfl
  | some q => simp [huntouched]

theorem ResetDone.newFinancialIds (hdone : ResetDone P s goodAccountId goodAccount s') :
    Menu.newFinancialIds s s' = [] := by
  obtain ⟨processor, -, hfinancial⟩ := hdone.loop
  unfold Menu.newFinancialIds
  refine List.filter_eq_nil_iff.2 fun id hid => ?_
  obtain ⟨t, ht, rfl⟩ := List.mem_map.1 hid
  rw [hfinancial] at ht
  simpa using List.mem_map_of_mem (List.mem_of_mem_filter ht)

/-- A step keeps the ledger. -/
theorem CostStep.costState {start : List Transaction}
    (hstep : CostStep P collection goodAccountId h h')
    (hs : CostState goodAccountId account start h) : CostState goodAccountId account start h' := by
  obtain ⟨a, ha, hname, hflag⟩ := hs.found
  cases hstep with
  | @run s' hrun =>
    rcases hrun.cases hs.wellFormed with
      (rfl | ⟨env, rfl⟩) | ⟨goodAccount, hrebuild, hdone⟩ |
        ⟨env, toDate, goodAccount, d, hfresh, hfires⟩
    · rw [h.next_of_same h.state rfl rfl]
      exact hs
    · -- the new account of the financial book enters neither the costs nor the postings
      rw [h.next_of_same (withCostOfSalesAccount env h.state) rfl rfl]
      exact ⟨hs.wellFormed, hs.found, ⟨hs.ledger.costed, hs.ledger.sales, hs.ledger.priced,
        hs.ledger.balance, hs.ledger.cogs⟩, hs.kept⟩
    · obtain rfl : a = goodAccount := Option.some.inj (ha.symm.trans hdone.account)
      subst hname
      obtain ⟨hposted, hcogs, hfolded⟩ := hflag hrebuild
      have hwf := hdone.wellFormed hs.wellFormed
      have hposted' := hdone.costsPosted hposted
      have hcogs' : (h.next P s').cogs = [] := by
        unfold CostHistory.next
        rw [hcogs, hdone.newFinancialIds]
        rfl
      have hfolded' : ∀ p ∈ s'.inventoryBook.transactions, p.moves a.name →
          BotService.isPurchase p → (h.next P s').folded p.id = none := by
        intro p' hp' hmoves hkind
        have hfirst := hdone.firstTouch hs.wellFormed hposted hp' hmoves hkind
        obtain ⟨p, hp, -, rfl⟩ := hdone.mem hp'
        have hsame := resetRow_sameIdentity P a.name p
        have hnone := hfolded p hp (hsame.moves a.name ▸ hmoves) (hsame.isPurchase ▸ hkind)
        show (h.folded _ <|> Menu.firstTouch P h.state s' _) = none
        rw [hfirst, hsame.id, hnone]
        rfl
      refine ⟨hwf, ⟨_, hdone.cleared, rfl, fun _ => ⟨hposted', hcogs', hfolded'⟩⟩,
        hposted'.ledger hwf hcogs' hfolded', ?_⟩
      intro p₀ hp₀ hmoves hkind hparent
      obtain ⟨p, hp, hsame⟩ := hs.kept p₀ hp₀ hmoves hkind hparent
      exact (hdone.forward hp (hsame.parentId.trans hparent)).imp
        fun p' hp' => ⟨hp'.1, hsame.trans hp'.2⟩
    · obtain rfl : a = goodAccount := Option.some.inj (ha.symm.trans hfires.passed.account)
      subst hname
      obtain ⟨a', ha', hsame, hcalm⟩ := hfires.account
      refine ⟨hfires.wellFormed hs.wellFormed hfresh,
        ⟨a', ha', hsame.name, fun hrebuild => absurd hrebuild (by simp [hcalm])⟩,
        hfires.costLedger hs.wellFormed hfresh hs.ledger, ?_⟩
      intro p₀ hp₀ hmoves hkind hparent
      obtain ⟨p, hp, hsame₀⟩ := hs.kept p₀ hp₀ hmoves hkind hparent
      obtain ⟨p', hp', hsame'⟩ := hfires.forward hs.wellFormed hp
      exact ⟨p', hp', hsame₀.trans hsame'⟩
  | edit financialBook hkept =>
    obtain ⟨hcosted, hsales, hpriced, hbalance, hcogs⟩ := hs.ledger
    refine ⟨hs.wellFormed, hs.found, ⟨hcosted, hsales, hpriced, hbalance, ?_⟩, hs.kept⟩
    exact (congrArg amounts hkept).trans hcogs

/-- In every state that completed calculations reach, whatever division rounds to and however
    the financial book changes in between: the cost of a purchase and of the parts that sales
    took of it is the cost that it was posted with, and from the first sale that touched it on
    the linked amounts of that moment are folded in; and what was posted as cost of sales is the
    cost of what was liquidated. -/
theorem purchase_cost_conserved {s₀ : State}
    (haccount : s₀.inventoryBook.getAccount goodAccountId = some goodAccount)
    (hwf : WellFormed s₀.inventoryBook) (hposted : CostsPosted goodAccount.name s₀.inventoryBook)
    (hruns : Relation.ReflTransGen (CostStep P collection goodAccountId)
      ⟨s₀, fun _ => none, []⟩ h) :
    (∀ p ∈ h.state.inventoryBook.transactions, p.moves goodAccount.name →
        BotService.isPurchase p → ∀ cost, p.goodPurchaseCost = some cost →
          ∃ totalCost, p.totalCost = some totalCost ∧
            ((touchedBySale h.state.inventoryBook.transactions p = false ∧
                h.folded p.id = none ∧
                totalCost + splitCosts p.id h.state.inventoryBook.transactions = cost) ∨
              (touchedBySale h.state.inventoryBook.transactions p = true ∧
                ∃ amounts, h.folded p.id = some amounts ∧
                  totalCost + splitCosts p.id h.state.inventoryBook.transactions =
                    cost + amounts.additionalCosts - amounts.creditNotesAmount))) ∧
      h.cogsTotal = liquidatedCosts goodAccount.name h.state.inventoryBook.transactions ∧
      ∀ p₀ ∈ s₀.inventoryBook.transactions, p₀.moves goodAccount.name →
        BotService.isPurchase p₀ → ∃ p ∈ h.state.inventoryBook.transactions,
          p.id = p₀.id ∧ p.goodPurchaseCost = p₀.goodPurchaseCost := by
  have hs : CostState goodAccountId goodAccount.name s₀.inventoryBook.transactions h := by
    induction hruns with
    | refl =>
      exact ⟨hwf, ⟨goodAccount, haccount, rfl, fun _ => ⟨hposted, rfl, fun _ _ _ _ => rfl⟩⟩,
        hposted.ledger hwf rfl fun _ _ _ _ => rfl, fun p₀ hp₀ _ _ _ => ⟨p₀, hp₀, .refl p₀⟩⟩
    | tail _ hstep ih => exact hstep.costState ih
  refine ⟨?_, hs.ledger.cogs, ?_⟩
  · intro p hp hmoves hkind cost hcost
    obtain ⟨hparent, -, hknown, hbalance⟩ := hs.ledger.balance p hp hmoves hkind cost hcost
    obtain ⟨totalCost, htotal⟩ :=
      Option.isSome_iff_exists.1 (hs.ledger.priced p hp hmoves hkind (by simp [hcost]))
    rw [costShares_eq hs.wellFormed.ids hp hparent, htotal] at hbalance
    refine ⟨totalCost, htotal, ?_⟩
    cases hfolded : h.folded p.id with
    | none =>
      rw [hfolded] at hknown hbalance
      exact Or.inl ⟨hknown.symm, rfl, hbalance.trans (add_zero cost)⟩
    | some amounts =>
      rw [hfolded] at hknown hbalance
      exact Or.inr ⟨hknown.symm, amounts, rfl, hbalance.trans (add_sub_assoc _ _ _).symm⟩
  · intro p₀ hp₀ hmoves hkind
    obtain ⟨-, hparent, -⟩ := hposted.purchases p₀ hp₀ hmoves hkind
    obtain ⟨p, hp, hsame⟩ := hs.kept p₀ hp₀ hmoves hkind hparent
    exact ⟨p, hp, hsame.id, hsame.goodPurchaseCost⟩

end Runs

theorem sample_costsPosted : CostsPosted Sample.good.name Sample.start.inventoryBook :=
  ⟨by decide +kernel, by decide +kernel, by decide +kernel⟩

/-- The cost of the sample purchase after a sale of four out of ten, with the linked cost. -/
theorem purchase_cost_conserved_sample :
    let h := CostHistory.next exactPlatform ⟨Sample.start, fun _ => none, []⟩
      (calculateCostOfSalesForAccount exactPlatform Sample.collection (Sample.env 9)
        Sample.start Sample.good.id none).1
    (∀ p ∈ h.state.inventoryBook.transactions, p.moves Sample.good.name →
        BotService.isPurchase p → ∀ cost, p.goodPurchaseCost = some cost →
          ∃ totalCost, p.totalCost = some totalCost ∧
            ((touchedBySale h.state.inventoryBook.transactions p = false ∧
                h.folded p.id = none ∧
                totalCost + splitCosts p.id h.state.inventoryBook.transactions = cost) ∨
              (touchedBySale h.state.inventoryBook.transactions p = true ∧
                ∃ amounts, h.folded p.id = some amounts ∧
                  totalCost + splitCosts p.id h.state.inventoryBook.transactions =
                    cost + amounts.additionalCosts - amounts.creditNotesAmount))) ∧
      h.cogsTotal = liquidatedCosts Sample.good.name h.state.inventoryBook.transactions ∧
      h.folded "1" = some ⟨20, 0⟩ := by
  intro h
  have hconserved := purchase_cost_conserved (h := h) Sample.getAccount_start
    Sample.start_wellFormed sample_costsPosted
    (.single (.run (.run (Sample.env 9) none Sample.env_fresh)))
  exact ⟨hconserved.1, hconserved.2.1, by decide +kernel⟩

end InventoryBot.Menu
