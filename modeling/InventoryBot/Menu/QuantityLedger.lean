import InventoryBot.Menu.Divisors

/-!
# The quantity ledger of a purchase

What a purchase has left and what was split off it add up to the quantity it was posted with,
in every state that calculations reach, and no purchase or split is ever empty.

* `Move.quantityInvariant`, `Moves.quantity`: moves keep the ledger.
* `Calculates.quantityState`: completed calculations keep it.
* `purchase_quantity_conserved`: it holds in every state that calculations reach.
-/

namespace InventoryBot.Menu

open Lib CostOfSalesService

/-- What a transaction holds of the quantity of the purchase `root`. -/
def share (root : String) (t : Transaction) : ℚ :=
  if t.parentId = some root then t.amount
  else if t.parentId = none ∧ t.id = root then t.amount
  else 0

/-- The quantity of the purchase `root` over some transactions. -/
def shares (root : String) (l : List Transaction) : ℚ := (l.map (share root)).sum

theorem share_congr {root : String} {t u : Transaction} (hp : u.parentId = t.parentId)
    (hid : u.id = t.id) (ha : u.amount = t.amount) : share root u = share root t := by
  rw [share, share, hp, hid, ha]

theorem share_of_child {root : String} {t : Transaction} {parent : String}
    (hp : t.parentId = some parent) : share root t = if parent = root then t.amount else 0 := by
  rw [share, hp]
  by_cases h : parent = root <;> simp [h]

theorem share_of_root {root : String} {t : Transaction} (hp : t.parentId = none) :
    share root t = if t.id = root then t.amount else 0 := by
  rw [share, hp]
  by_cases h : t.id = root <;> simp [h]

/-- What a calculation relies on and keeps about the quantities of an account. -/
structure QuantityInvariant (account : String) (d : Desk) : Prop where
  nodup : (d.stored.map Transaction.id).Nodup
  bought : ∀ t ∈ d.stored, t.moves account → BotService.isPurchase t → 0 < t.amount
  ordered : ∀ t ∈ d.stored, t.moves account → BotService.isSale t ∨ BotService.isCreditNote t →
    0 < t.amount
  roots : ∀ t ∈ d.stored, t.moves account → BotService.isPurchase t → t.checked = false →
    t.parentId = none
  created : ∀ t ∈ d.created, 0 < t.amount
  inHand : ∀ c, d.current = some c → 0 ≤ c.soldQuantity ∧ 0 < c.sale.amount

section Moves

variable {P : Platform} {env : RunEnv} {fb : Book} {digits : ℕ} {account : String} {before : Date}
  {closes : ℚ → Prop} {d d' : Desk}

/-- A move keeps the quantity of every purchase. -/
theorem Move.shares (h : Move P env fb digits account before closes d d')
    (hd : QuantityInvariant account d) (root : String) :
    shares root d'.stored + shares root d'.created = shares root d.stored + shares root d.created := by
  unfold Menu.shares
  cases h with
  | @creditNote p note code number hp hunchecked _ hnote _ hother =>
    have hparent : p.parentId = none :=
      hd.roots p hp.stored hp.moves hp.kind hunchecked
    have hnodup : ((overwrite (credited P note p) d.stored).map Transaction.id).Nodup := by
      simpa using hd.nodup
    have hstill : note ∈ overwrite (credited P note p) d.stored :=
      mem_replaceRow_of_ne hnote.stored hother
    have hnoteShare : share root (applied note) = share root note := share_congr rfl rfl rfl
    have hchild : share root (splitCreditNote (P.toNumber note.amount) code number p) =
        if p.id = root then P.toNumber note.amount else 0 := share_of_child rfl
    have hroot : share root (credited P note p) =
        if p.id = root then p.amount - P.toNumber note.amount else 0 := share_of_root hparent
    dsimp only
    rw [sum_replaceRow (b := applied note) (share root) hnodup hstill rfl,
      sum_replaceRow (b := credited P note p) (share root) hd.nodup hp.stored rfl, List.map_append,
      List.sum_append, List.map_singleton, List.sum_singleton, hnoteShare, hchild, hroot,
      share_of_root hparent]
    split <;> ring
  | openSale => rfl
  | @take c p quantity cost amounts _ hp =>
    have hsame : share root (taken P c.sale p quantity cost amounts) = share root p :=
      share_congr rfl rfl rfl
    dsimp only
    rw [sum_replaceRow (b := taken P c.sale p quantity cost amounts) (share root) hd.nodup
      hp.stored rfl, hsame, sub_add_cancel]
  | @split c p quantity cost amounts code k _ hp hunchecked =>
    have hparent : p.parentId = none :=
      hd.roots p hp.stored hp.moves hp.kind hunchecked
    have hchild : share root (splitOff P c.sale p c.soldQuantity cost code (env.uuid k)) =
        if p.id = root then c.soldQuantity else 0 := share_of_child rfl
    have hroot : share root (reduced P p c.soldQuantity quantity cost amounts) =
        if p.id = root then p.amount - c.soldQuantity else 0 := share_of_root hparent
    dsimp only
    rw [sum_replaceRow (b := reduced P p c.soldQuantity quantity cost amounts) (share root) hd.nodup
      hp.stored rfl, List.map_append, List.sum_append, List.map_singleton, List.sum_singleton,
      hchild, hroot, share_of_root hparent]
    split <;> ring
  | @closeSale c _ hsale =>
    have hsame : share root (settleSale c.saleCost c.purchaseLogEntries c.sale) =
        share root c.sale := by
      unfold settleSale
      split <;> rfl
    dsimp only
    split
    · rw [sum_replaceRow (share root) hd.nodup hsale.stored (settleSale_id _ _ _).symm, hsame,
        sub_add_cancel]
    · rfl

/-- A rewritten transaction keeps its quantity, or is a purchase with something left. -/
theorem Written.amount (hP : P.KeepsSign) {p t : Transaction} (h : Written P p t) :
    (t.amount = p.amount) ∨ (0 < t.amount) := by
  cases h with
  | credited _ _ hleft => exact Or.inr ((hP _).1 hleft)
  | applied => exact Or.inl rfl
  | taken => exact Or.inl rfl
  | reduced _ _ hlt => exact Or.inr (sub_pos.2 hlt)
  | settled =>
    unfold settleSale
    split <;> exact Or.inl rfl

/-- What is left of a rewritten transaction is positive. -/
theorem QuantityInvariant.written (hP : P.KeepsSign) (hd : QuantityInvariant account d)
    {p t : Transaction} (hp : p ∈ d.stored) (hmoves : p.moves account) (h : Written P p t) :
    0 < t.amount := by
  have hpos : 0 < p.amount := by
    rcases h.kind with hk | hk | hk
    · exact hd.bought p hp hmoves hk
    · exact hd.ordered p hp hmoves (Or.inr hk)
    · exact hd.ordered p hp hmoves (Or.inl hk)
  rcases h.amount hP with hsame | hleft
  · exact hsame ▸ hpos
  · exact hleft

/-- A move keeps what the calculation relies on. -/
theorem Move.quantityInvariant (hP : P.KeepsSign)
    (h : Move P env fb digits account before closes d d') (hd : QuantityInvariant account d) :
    QuantityInvariant account d' where
  nodup := h.ids ▸ hd.nodup
  bought := by
    intro t ht hmoves hkind
    rcases h.stored_cases ht with ht | ⟨p, hp, hw⟩
    · exact hd.bought t ht hmoves hkind
    · exact hd.written hP hp (hw.sameIdentity.moves account ▸ hmoves) hw
  ordered := by
    intro t ht hmoves hkind
    rcases h.stored_cases ht with ht | ⟨p, hp, hw⟩
    · exact hd.ordered t ht hmoves hkind
    · exact hd.written hP hp (hw.sameIdentity.moves account ▸ hmoves) hw
  roots := by
    intro t ht hmoves hkind hunchecked
    rcases h.stored_cases ht with ht | ⟨p, hp, hw⟩
    · exact hd.roots t ht hmoves hkind hunchecked
    · rw [hw.sameIdentity.parentId]
      exact hd.roots p hp (hw.sameIdentity.moves account ▸ hmoves)
        (hw.sameIdentity.isPurchase ▸ hkind) hw.unchecked
  created := by
    intro t ht
    cases h with
    | creditNote hp _ _ hnote =>
      rcases List.mem_append.1 ht with ht | ht
      · exact hd.created t ht
      · rw [List.mem_singleton.1 ht]
        exact (hP _).2 (hd.ordered _ hnote.stored hnote.moves (Or.inr hnote.kind))
    | openSale => exact hd.created t ht
    | take => exact hd.created t ht
    | split hcurrent _ _ _ _ _ hsold =>
      rcases List.mem_append.1 ht with ht | ht
      · exact hd.created t ht
      · rw [List.mem_singleton.1 ht]
        obtain ⟨hnonneg, hpos⟩ := hd.inHand _ hcurrent
        rcases hsold with hsold | hsold
        · exact lt_of_lt_of_eq hpos hsold.symm
        · exact lt_of_le_of_ne hnonneg hsold.symm
    | closeSale => exact hd.created t ht
  inHand := by
    intro c hc
    cases h with
    | creditNote => exact hd.inHand c hc
    | openSale hsale =>
      cases hc
      have hpos := hd.ordered _ hsale.stored hsale.moves (Or.inl hsale.kind)
      exact ⟨hpos.le, hpos⟩
    | take hcurrent _ _ _ _ _ _ hle =>
      cases hc
      exact ⟨sub_nonneg.2 hle, (hd.inHand _ hcurrent).2⟩
    | split hcurrent =>
      cases hc
      exact ⟨le_rfl, (hd.inHand _ hcurrent).2⟩
    | closeSale => cases hc

/-- A calculation keeps the quantity of every purchase, and leaves no purchase empty. -/
theorem Moves.quantity (hP : P.KeepsSign)
    (h : Moves P env fb digits account before closes d d') (hd : QuantityInvariant account d) :
    QuantityInvariant account d' ∧ ∀ root, Menu.shares root d'.stored + Menu.shares root d'.created =
      Menu.shares root d.stored + Menu.shares root d.created := by
  refine h.preserves (I := fun e => QuantityInvariant account e ∧ ∀ root,
    Menu.shares root e.stored + Menu.shares root e.created =
      Menu.shares root d.stored + Menu.shares root d.created) ?_ ⟨hd, fun _ => rfl⟩
  rintro e e' hmove ⟨he, hsum⟩
  exact ⟨hmove.quantityInvariant hP he, fun root => (hmove.shares he root).trans (hsum root)⟩

end Moves

/-! ## Runs -/

/-- The amounts of the transactions that were split off the purchase `root`. -/
def splitAmounts (root : String) (l : List Transaction) : ℚ :=
  ((l.filter fun t => t.parentId == some root).map Transaction.amount).sum

/-- An account whose purchases are as they are posted, with positive quantities throughout. -/
structure PurchasesPosted (account : String) (b : Book) : Prop where
  purchases : ∀ p ∈ b.transactions, p.moves account → BotService.isPurchase p →
    p.originalQuantity = some p.amount ∧ 0 < p.amount ∧ p.parentId = none
  ordered : ∀ t ∈ b.transactions, t.moves account → BotService.isSale t ∨ BotService.isCreditNote t →
    0 < t.amount ∧ ∀ q ∈ t.originalQuantity, 0 < q
  unsplit : ∀ p ∈ b.transactions, p.moves account → BotService.isPurchase p →
    ∀ t ∈ b.transactions, t.parentId ≠ some p.id

/-- The quantities of an account between runs. -/
structure QuantityLedger (account : String) (b : Book) : Prop where
  bought : ∀ t ∈ b.transactions, t.moves account → BotService.isPurchase t → 0 < t.amount
  ordered : ∀ t ∈ b.transactions, t.moves account → BotService.isSale t ∨ BotService.isCreditNote t →
    0 < t.amount
  roots : ∀ t ∈ b.transactions, t.moves account → BotService.isPurchase t → t.checked = false →
    t.parentId = none
  balance : ∀ p ∈ b.transactions, p.moves account → BotService.isPurchase p →
    ∀ q, p.originalQuantity = some q → p.parentId = none ∧ shares p.id b.transactions = q
  splits : ∀ p ∈ b.transactions, p.moves account → BotService.isPurchase p →
    p.originalQuantity.isSome → ∀ t ∈ b.transactions, t.parentId = some p.id →
      t.moves account ∧ BotService.isPurchase t

/-- The quantity of a purchase is its amount and those of its splits. -/
theorem shares_eq {l : List Transaction} (hids : (l.map Transaction.id).Nodup) {p : Transaction}
    (hp : p ∈ l) (hparent : p.parentId = none) :
    shares p.id l = p.amount + splitAmounts p.id l := by
  have hshares : shares p.id l = (l.map fun t =>
      if (t.parentId == some p.id) = true ∨ t.id = p.id then t.amount else 0).sum := by
    refine congrArg List.sum (List.map_congr_left fun t ht => ?_)
    by_cases hid : t.id = p.id
    · obtain rfl : t = p := List.inj_on_of_nodup_map hids ht hp hid
      rw [share_of_root hparent]
      simp
    · by_cases hchild : t.parentId = some p.id <;> simp [share, hchild, hid]
  rw [hshares, sum_map_row_or_kind Transaction.amount hids hp (by simp [hparent])]
  rfl

/-- An account as posted has a balanced ledger. -/
theorem PurchasesPosted.ledger {account : String} {b : Book} (hwf : WellFormed b)
    (h : PurchasesPosted account b) : QuantityLedger account b where
  bought := fun t ht hm hk => (h.purchases t ht hm hk).2.1
  ordered := fun t ht hm hk => (h.ordered t ht hm hk).1
  roots := fun t ht hm hk _ => (h.purchases t ht hm hk).2.2
  balance := by
    intro p hp hm hk q hq
    obtain ⟨hquantity, -, hparent⟩ := h.purchases p hp hm hk
    refine ⟨hparent, ?_⟩
    have hnone : splitAmounts p.id b.transactions = 0 := by
      have hempty : (b.transactions.filter fun t => t.parentId == some p.id) = [] := by
        refine List.filter_eq_nil_iff.2 fun t ht => ?_
        simpa using h.unsplit p hp hm hk t ht
      rw [splitAmounts, hempty]
      rfl
    rw [shares_eq hwf.ids hp hparent, hnone, add_zero]
    exact Option.some.inj (hquantity.symm.trans hq)
  splits := fun p hp hm hk _ t ht hparent => absurd hparent (h.unsplit p hp hm hk t ht)

section Runs

variable {P : Platform} {env : RunEnv} {s s' : State} {goodAccountId : String} {toDate : Date}
  {goodAccount : Account} {d : Desk}

theorem share_post (root id : String) (now : ℕ) {t : Transaction} (h : t.parentId ≠ none) :
    share root (Book.post id now t) = share root t := by
  obtain ⟨parent, hparent⟩ := Option.ne_none_iff_exists'.1 h
  have hposted : (Book.post id now t).parentId = some parent := hparent
  rw [share_of_child hparent, share_of_child hposted]
  rfl

theorem shares_postAll (root : String) (newId : ℕ → String) (now : ℕ) {l : List Transaction}
    (h : ∀ t ∈ l, t.parentId ≠ none) : shares root (Book.postAll newId now l) = shares root l := by
  induction l generalizing newId with
  | nil => rfl
  | cons t l ih =>
    have hrest := ih (fun k => newId (k + 1)) fun u hu => h u (List.mem_cons_of_mem _ hu)
    simp only [shares, Book.postAll_cons, List.map_cons, List.sum_cons] at hrest ⊢
    rw [hrest, share_post root _ _ (h t List.mem_cons_self)]

/-- A calculation that fires keeps the ledger. -/
theorem CalculationFires.quantityLedger (hP : P.KeepsSign) (hwf : WellFormed s.inventoryBook)
    (hs : QuantityLedger goodAccount.name s.inventoryBook)
    (h : CalculationFires P env s goodAccountId toDate (fun _ => True) goodAccount d s') :
    QuantityLedger goodAccount.name s'.inventoryBook := by
  have hstart : QuantityInvariant goodAccount.name (Desk.start s.inventoryBook.transactions) :=
    ⟨hwf.ids, hs.bought, hs.ordered, hs.roots, by simp [Desk.start], by simp [Desk.start]⟩
  obtain ⟨hd, hshares⟩ := h.moves.quantity hP hstart
  have htotal : ∀ root, shares root s'.inventoryBook.transactions =
      shares root s.inventoryBook.transactions := by
    intro root
    have hposted := shares_postAll root env.inventoryId env.now h.created_parent
    rw [h.inventory]
    unfold shares at hposted hshares ⊢
    rw [List.map_append, List.sum_append, hposted, hshares root]
    simp [Desk.start]
  refine ⟨?_, ?_, ?_, ?_, ?_⟩
  · intro t ht hmoves hkind
    rcases h.mem_cases ht with ⟨hst, -⟩ | ⟨k, u, hu, rfl, -⟩
    · exact hd.bought t hst hmoves hkind
    · exact hd.created u hu
  · intro t ht hmoves hkind
    rcases h.mem_cases ht with ⟨hst, -⟩ | ⟨k, u, hu, rfl, -⟩
    · exact hd.ordered t hst hmoves hkind
    · exact hd.created u hu
  · intro t ht hmoves hkind hunchecked
    rcases h.mem_cases ht with ⟨hst, -⟩ | ⟨k, u, hu, rfl, p, hp, hsplit, -⟩
    · exact hd.roots t hst hmoves hkind hunchecked
    · rw [show (Book.post (env.inventoryId k) env.now u).checked = u.checked from rfl,
        hsplit.checked] at hunchecked
      cases hunchecked
  · intro p' hp' hmoves hkind q hq
    rcases h.mem_cases hp' with ⟨-, p, hp, htrace⟩ | ⟨k, u, hu, rfl, p, hp, hsplit, -⟩
    · have hsame := sameIdentity_of_trace htrace
      obtain ⟨hparent, hbalance⟩ := hs.balance p hp (hsame.moves goodAccount.name ▸ hmoves)
        (hsame.isPurchase ▸ hkind) q (hsame.originalQuantity ▸ hq)
      rw [htotal, hsame.id, hsame.parentId]
      exact ⟨hparent, hbalance⟩
    · have hnone : u.originalQuantity = some q := hq
      rw [hsplit.originalQuantity] at hnone
      cases hnone
  · intro p' hp' hmoves hkind hquantity t' ht' hparent
    rcases h.mem_cases hp' with ⟨-, p, hp, htrace⟩ | ⟨k, u, hu, rfl, p, hp, hsplit, -⟩
    · have hsame := sameIdentity_of_trace htrace
      rw [hsame.moves] at hmoves
      rw [hsame.isPurchase] at hkind
      rw [hsame.originalQuantity] at hquantity
      rw [hsame.id] at hparent
      rcases h.mem_cases ht' with ⟨-, t, ht, httrace⟩ | ⟨k, u, hu, rfl, r, hr, hsplit, hrkind⟩
      · have htsame := sameIdentity_of_trace httrace
        rw [htsame.moves, htsame.isPurchase]
        exact hs.splits p hp hmoves hkind hquantity t ht (htsame.parentId ▸ hparent)
      · have hid : some r.id = some p.id := hsplit.parentId.symm.trans hparent
        obtain rfl : r = p := List.inj_on_of_nodup_map hwf.ids hr hp (Option.some.inj hid)
        exact ⟨(hsplit.moves goodAccount.name).trans hmoves, isPurchase_post _ _ hsplit hrkind⟩
    · have hnone : u.originalQuantity.isSome := hquantity
      rw [hsplit.originalQuantity] at hnone
      cases hnone

/-- A reset keeps an account as posted. -/
theorem ResetDone.purchasesPosted (hs : PurchasesPosted goodAccount.name s.inventoryBook)
    (h : ResetDone P s goodAccountId goodAccount s') :
    PurchasesPosted goodAccount.name s'.inventoryBook := by
  refine ⟨?_, ?_, ?_⟩
  · intro p' hp' hmoves hkind
    obtain ⟨p, hp, -, rfl⟩ := h.mem hp'
    have hsame := resetRow_sameIdentity P goodAccount.name p
    rw [hsame.moves] at hmoves
    rw [hsame.isPurchase] at hkind
    obtain ⟨hquantity, hpos, hparent⟩ := hs.purchases p hp hmoves hkind
    have hamount : (resetRow P goodAccount.name p).amount = p.amount := by
      rcases resetRow_amount P goodAccount.name p with ha | ha
      · exact ha
      · exact Option.some.inj (ha.symm.trans hquantity)
    rw [hsame.originalQuantity, hsame.parentId, hamount]
    exact ⟨hquantity, hpos, hparent⟩
  · intro t' ht' hmoves hkind
    obtain ⟨t, ht, -, rfl⟩ := h.mem ht'
    have hsame := resetRow_sameIdentity P goodAccount.name t
    rw [hsame.moves] at hmoves
    have hkind' : BotService.isSale t ∨ BotService.isCreditNote t :=
      hkind.imp (fun hsale => hsame.isSale ▸ hsale) isCreditNote_of_resetRow
    obtain ⟨hpos, hquantity⟩ := hs.ordered t ht hmoves hkind'
    rw [hsame.originalQuantity]
    refine ⟨?_, hquantity⟩
    rcases resetRow_amount P goodAccount.name t with ha | ha
    · exact ha ▸ hpos
    · exact hquantity _ ha
  · intro p' hp' hmoves hkind t' ht' hparent
    obtain ⟨p, hp, -, rfl⟩ := h.mem hp'
    obtain ⟨t, ht, -, rfl⟩ := h.mem ht'
    have hpsame := resetRow_sameIdentity P goodAccount.name p
    have htsame := resetRow_sameIdentity P goodAccount.name t
    rw [htsame.parentId, hpsame.id] at hparent
    exact hs.unsplit p hp (hpsame.moves goodAccount.name ▸ hmoves) (hpsame.isPurchase ▸ hkind) t ht
      hparent

/-- What runs keep about the quantities of the account: its ledger, the purchases it started
    with, and that it is as posted while it is flagged. -/
structure QuantityState (goodAccountId : String) (account : String) (start : List Transaction)
    (s : State) : Prop where
  wellFormed : WellFormed s.inventoryBook
  found : ∃ a, s.inventoryBook.getAccount goodAccountId = some a ∧ a.name = account ∧
    (GoodAccount.needsRebuild a → PurchasesPosted account s.inventoryBook)
  ledger : QuantityLedger account s.inventoryBook
  kept : ∀ p₀ ∈ start, p₀.moves account → BotService.isPurchase p₀ → p₀.parentId = none →
    ∃ p ∈ s.inventoryBook.transactions, SameIdentity p₀ p

/-- A completed calculation keeps the ledger. -/
theorem Calculates.quantityState {collection : Option (List BookInfo)} {account : String}
    {start : List Transaction} (hP : P.KeepsSign) (h : Calculates P collection goodAccountId s s')
    (hs : QuantityState goodAccountId account start s) :
    QuantityState goodAccountId account start s' := by
  obtain ⟨a, ha, hname, hflag⟩ := hs.found
  rcases h.cases hs.wellFormed with
    (rfl | ⟨env, rfl⟩) | ⟨goodAccount, hrebuild, hdone⟩ |
      ⟨env, toDate, goodAccount, d, hfresh, hfires⟩
  · exact hs
  · exact { hs with }
  · obtain rfl : a = goodAccount := Option.some.inj (ha.symm.trans hdone.account)
    subst hname
    have hwf := hdone.wellFormed hs.wellFormed
    have hposted := hdone.purchasesPosted (hflag hrebuild)
    refine ⟨hwf, ⟨_, hdone.cleared, rfl, fun _ => hposted⟩, hposted.ledger hwf, ?_⟩
    intro p₀ hp₀ hmoves hkind hparent
    obtain ⟨p, hp, hsame⟩ := hs.kept p₀ hp₀ hmoves hkind hparent
    exact (hdone.forward hp (hsame.parentId.trans hparent)).imp
      fun p' hp' => ⟨hp'.1, hsame.trans hp'.2⟩
  · obtain rfl : a = goodAccount := Option.some.inj (ha.symm.trans hfires.passed.account)
    subst hname
    obtain ⟨a', ha', hsame, hcalm⟩ := hfires.account
    refine ⟨hfires.wellFormed hs.wellFormed hfresh,
      ⟨a', ha', hsame.name, fun hrebuild => absurd hrebuild (by simp [hcalm])⟩,
      hfires.quantityLedger hP hs.wellFormed hs.ledger, ?_⟩
    intro p₀ hp₀ hmoves hkind hparent
    obtain ⟨p, hp, hsame₀⟩ := hs.kept p₀ hp₀ hmoves hkind hparent
    obtain ⟨p', hp', hsame'⟩ := hfires.forward hs.wellFormed hp
    exact ⟨p', hp', hsame₀.trans hsame'⟩

/-- In every state that completed calculations reach, what a purchase has left and what was
    split off it add up to its original quantity, purchases and splits are positive, and the
    next calculation divides by positive amounts only. -/
theorem purchase_quantity_conserved {collection : Option (List BookInfo)} {s₀ : State}
    (hP : P.KeepsSign) (haccount : s₀.inventoryBook.getAccount goodAccountId = some goodAccount)
    (hwf : WellFormed s₀.inventoryBook)
    (hposted : PurchasesPosted goodAccount.name s₀.inventoryBook)
    (hruns : Relation.ReflTransGen (Calculates P collection goodAccountId) s₀ s) :
    (∀ p ∈ s.inventoryBook.transactions, p.moves goodAccount.name → BotService.isPurchase p →
        0 < p.amount ∧ ∀ q, p.originalQuantity = some q →
          p.amount + splitAmounts p.id s.inventoryBook.transactions = q ∧
          ∀ t ∈ s.inventoryBook.transactions, t.parentId = some p.id → 0 < t.amount) ∧
      (∀ p₀ ∈ s₀.inventoryBook.transactions, p₀.moves goodAccount.name →
        BotService.isPurchase p₀ → ∃ p ∈ s.inventoryBook.transactions,
          p.id = p₀.id ∧ p.originalQuantity = some p₀.amount) ∧
      ∀ env toDate div, (∀ x y, 0 < y → div x y = P.div x y) →
        calculateCostOfSalesForAccount (withDiv P div) collection env s goodAccountId toDate =
            calculateCostOfSalesForAccount P collection env s goodAccountId toDate ∧
          (calculateCostOfSalesForAccount P collection env s goodAccountId toDate).2 ≠
            .threw .divisionByZero := by
  have hs : QuantityState goodAccountId goodAccount.name s₀.inventoryBook.transactions s := by
    induction hruns with
    | refl =>
      exact ⟨hwf, ⟨goodAccount, haccount, rfl, fun _ => hposted⟩, hposted.ledger hwf,
        fun p₀ hp₀ _ _ _ => ⟨p₀, hp₀, .refl p₀⟩⟩
    | tail _ hrun ih => exact hrun.quantityState hP ih
  obtain ⟨a, ha, hname, -⟩ := hs.found
  refine ⟨?_, ?_, ?_⟩
  · intro p hp hmoves hkind
    refine ⟨hs.ledger.bought p hp hmoves hkind, fun q hq => ?_⟩
    obtain ⟨hparent, hbalance⟩ := hs.ledger.balance p hp hmoves hkind q hq
    refine ⟨(shares_eq hs.wellFormed.ids hp hparent).symm.trans hbalance, fun t ht htp => ?_⟩
    obtain ⟨htmoves, htkind⟩ := hs.ledger.splits p hp hmoves hkind (by simp [hq]) t ht htp
    exact hs.ledger.bought t ht htmoves htkind
  · intro p₀ hp₀ hmoves hkind
    obtain ⟨hquantity, -, hparent⟩ := hposted.purchases p₀ hp₀ hmoves hkind
    obtain ⟨p, hp, hsame⟩ := hs.kept p₀ hp₀ hmoves hkind hparent
    exact ⟨p, hp, hsame.id, hsame.originalQuantity.trans hquantity⟩
  · intro env toDate div hdiv
    refine calculate_div hP hdiv ?_
    intro b hb t ht hmoves hkind
    obtain rfl : a = b := Option.some.inj (ha.symm.trans hb)
    rw [hname] at hmoves
    rcases hkind with hsale | hpurchase
    · exact hs.ledger.ordered t ht hmoves (Or.inl hsale)
    · exact hs.ledger.bought t ht hmoves hpurchase

end Runs

theorem sample_posted : PurchasesPosted Sample.good.name Sample.start.inventoryBook :=
  ⟨by decide +kernel, by decide +kernel, by decide +kernel⟩

/-- The ledger after a calculation of the sample account. -/
theorem purchase_quantity_conserved_sample :
    let s := (calculateCostOfSalesForAccount exactPlatform Sample.collection (Sample.env 9)
      Sample.start Sample.good.id none).1
    ∀ p ∈ s.inventoryBook.transactions, p.moves Sample.good.name → BotService.isPurchase p →
      0 < p.amount ∧ ∀ q, p.originalQuantity = some q →
        p.amount + splitAmounts p.id s.inventoryBook.transactions = q ∧
        ∀ t ∈ s.inventoryBook.transactions, t.parentId = some p.id → 0 < t.amount :=
  (purchase_quantity_conserved exactPlatform_keepsSign Sample.getAccount_start
    Sample.start_wellFormed sample_posted
    (.single (.run (Sample.env 9) none Sample.env_fresh))).1

end InventoryBot.Menu
