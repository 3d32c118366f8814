import InventoryBot.System.Collection
import InventoryBot.System.Deletions

/-!
# Deleting in the inventory book

The handler for deletions in the inventory book looks for the good account on the sides of a
financial transaction: it expects an incoming account debited by a sale and an outgoing account
credited by a purchase, where the webhook posts a purchase from `Buy`, which is incoming, and a
sale to `Sell`, which is outgoing.

* `getGoodAccount_agree_iff`: the two searches for the good account agree exactly if no account
  of the transaction is incoming or outgoing, or both are one account.
* `goods_deletion_works_iff`: exactly then is the deletion of a copy handled as it should be; of a
  liquidated purchase or a calculated sale it never is.
-/

namespace InventoryBot.System

open Lib Menu Events

/-- A payload shows a transaction of the book as it was stored, and its accounts. -/
structure Shows (b : Book) (payload : Payload) (r : Transaction) : Prop where
  transaction : payload.transaction = r
  creditAccount : payload.creditAccount.map Account.ref = r.creditAccount
  debitAccount : payload.debitAccount.map Account.ref = r.debitAccount

/-- The state after the user has trashed a transaction of the inventory book. -/
def trashedState (s : State) (r : Transaction) : State :=
  { s with inventoryBook := s.inventoryBook.batchTrashTransactions [r] }

/-- A sale has liquidated some of the transaction. -/
def Liquidated (b : Book) (r : Transaction) : Prop :=
  ∃ u ∈ b.transactions, u.liquidationLog ≠ none ∧ (u.id = r.id ∨ u.parentId = some r.id)

/-- The deletion of a transaction of the inventory book is handled as it should be: the handler
    finds the good account of the transaction; of a purchase that was liquidated in part it flags
    the account and trashes the splits, and of a calculated sale it trashes the cost of sales. -/
structure DeletionWorks (P : Platform) (collection : Option (List BookInfo)) (s : State)
    (payload : Payload) (r : Transaction) : Prop where
  sameAccount : InterceptorOrderProcessorDeleteGoods.getGoodAccount (trashedState s r).inventoryBook
      payload = Events.BotService.getGoodAccount (trashedState s r).inventoryBook r
  purchase : Liquidated s.inventoryBook r → (∃ q, r.originalQuantity = some q ∧ q ≠ r.amount) →
    let s' := (InterceptorOrderProcessorDeleteGoods.intercept P collection (trashedState s r)
      payload).1
    (∀ g, r.debitAccount = some g → flagged s'.inventoryBook g.id = true) ∧
      ∀ u ∈ s'.inventoryBook.transactions, u.parentId ≠ some r.id
  sale : r.purchaseLog ≠ none →
    let s' := (InterceptorOrderProcessorDeleteGoods.intercept P collection (trashedState s r)
      payload).1
    ∀ f ∈ s'.financialBook.transactions, r.id ∉ f.remoteIds

/-- An account is neither a source nor a sink of goods. -/
def Inner (g : AccountRef) : Prop := g.type ≠ .incoming ∧ g.type ≠ .outgoing

instance (g : AccountRef) : Decidable (Inner g) := inferInstanceAs (Decidable (_ ∧ _))

/-- The two searches for the good account look on opposite sides: they agree exactly if none of
    the accounts decides, or both accounts are one. -/
theorem getGoodAccount_agree_iff {b : Book} (hb : Complete b) {payload : Payload} {r : Transaction}
    {g g' : AccountRef} (hshows : Shows b payload r) (hposted : r.posted = true)
    (hcredit : r.creditAccount = some g) (hdebit : r.debitAccount = some g')
    (hg : g ∈ accountRefs b) (hg' : g' ∈ accountRefs b) :
    InterceptorOrderProcessorDeleteGoods.getGoodAccount b payload =
        Events.BotService.getGoodAccount b r ↔ (Inner g ∧ Inner g') ∨ g = g' := by
  obtain ⟨a, ha, rfl⟩ := List.mem_map.1 hg
  obtain ⟨a', ha', rfl⟩ := List.mem_map.1 hg'
  obtain ⟨x, hx, hxref⟩ := Option.map_eq_some_iff.1 (hshows.creditAccount.trans hcredit)
  obtain ⟨x', hx', hxref'⟩ := Option.map_eq_some_iff.1 (hshows.debitAccount.trans hdebit)
  have hid : x.id = a.id := congrArg AccountRef.id hxref
  have hid' : x'.id = a'.id := congrArg AccountRef.id hxref'
  have hself : b.getAccount a.id = some a := getAccount_id hb.accountIds ha
  have hself' : b.getAccount a'.id = some a' := getAccount_id hb.accountIds ha'
  have htype : x.type = a.type := congrArg AccountRef.type hxref
  have htype' : x'.type = a'.type := congrArg AccountRef.type hxref'
  have hone : a = a' ↔ a.ref = a'.ref := by
    refine ⟨congrArg Account.ref, fun he => ?_⟩
    have hsame : a.id = a'.id := congrArg AccountRef.id he
    rw [hsame, hself'] at hself
    exact (Option.some.inj hself).symm
  have hdelete : InterceptorOrderProcessorDeleteGoods.getGoodAccount b payload =
      if a'.type = .incoming then some a else if a.type = .outgoing then some a' else none := by
    simp only [InterceptorOrderProcessorDeleteGoods.getGoodAccount, hx, hx', Option.any_some,
      Option.bind_some, hid, hid', hself, hself', htype, htype', beq_iff_eq]
  have hbot : Events.BotService.getGoodAccount b r =
      if a'.type = .outgoing then some a else if a.type = .incoming then some a' else none := by
    simp only [Events.BotService.getGoodAccount, Menu.BotService.isSale, Menu.BotService.isPurchase,
      hposted, hcredit, hdebit, Account.ref, Bool.true_and, Option.any_some, Option.bind_some,
      hself, hself', beq_iff_eq]
  rw [hdelete, hbot, ← hone]
  show _ ↔ ((a.type ≠ _ ∧ a.type ≠ _) ∧ a'.type ≠ _ ∧ a'.type ≠ _) ∨ _
  grind

/-- Where no account decides, the handler finds no account. -/
theorem getGoodAccount_eq_none {b : Book} {payload : Payload} {r : Transaction}
    {g g' : AccountRef} (hshows : Shows b payload r) (hcredit : r.creditAccount = some g)
    (hdebit : r.debitAccount = some g') (hg : g.type ≠ .outgoing) (hg' : g'.type ≠ .incoming) :
    InterceptorOrderProcessorDeleteGoods.getGoodAccount b payload = none := by
  obtain ⟨x, hx, hxref⟩ := Option.map_eq_some_iff.1 (hshows.creditAccount.trans hcredit)
  obtain ⟨x', hx', hxref'⟩ := Option.map_eq_some_iff.1 (hshows.debitAccount.trans hdebit)
  have htype : x.type = g.type := congrArg AccountRef.type hxref
  have htype' : x'.type = g'.type := congrArg AccountRef.type hxref'
  simp [InterceptorOrderProcessorDeleteGoods.getGoodAccount, hx, hx', htype, htype', hg, hg']

theorem intercept_eq_of_getGoodAccount {P : Platform} {collection : Option (List BookInfo)}
    {s : State} {payload : Payload}
    (h : InterceptorOrderProcessorDeleteGoods.getGoodAccount s.inventoryBook payload = none) :
    InterceptorOrderProcessorDeleteGoods.intercept P collection s payload = (s, []) := by
  unfold InterceptorOrderProcessorDeleteGoods.intercept
  rw [h]
  simp

section Deletion

variable {P : Platform} {collection : Option (List BookInfo)} {t payload : Payload}
  {c r : Transaction} {s : State} {id : String}

theorem Complete.trashed (h : Complete s.inventoryBook) (r : Transaction) :
    Complete (trashedState s r).inventoryBook := by
  refine h.of_refs rfl (h.ids.sublist (List.filter_sublist.map _)) fun u hu => ?_
  exact ⟨u, List.mem_of_mem_filter hu, rfl, rfl⟩

/-- A liquidated purchase comes from an incoming account, a calculated sale goes to an outgoing
    one, and their other account is a good. -/
theorem Kept.decided (h : Kept id c s.inventoryBook) (hr : r ∈ s.inventoryBook.transactions)
    (hid : r.id = c.id) {g g' : AccountRef} (hcredit : c.creditAccount = some g)
    (hdebit : c.debitAccount = some g') :
    (Liquidated s.inventoryBook r → g.type = .incoming ∧ Inner g') ∧
      (r.purchaseLog ≠ none → g'.type = .outgoing ∧ Inner g) := by
  constructor
  · rintro ⟨u, hu, hlog, hlink⟩
    have hkind : Menu.BotService.isPurchase c = true ∧ OneSided c := by
      rcases hlink with hsame | hparent
      · exact h.liquidated u hu (hsame.trans hid) hlog
      · exact (h.splits u hu (hid ▸ hparent)).2.2
    obtain ⟨-, x, hx, hxtype⟩ := isPurchase_iff.1 hkind.1
    obtain rfl : g = x := Option.some.inj (hcredit.symm.trans hx)
    exact ⟨hxtype, hkind.2 hkind.1 g' hdebit⟩
  · intro hlog
    obtain ⟨hkind, hsold⟩ := h.calculated r hr hid hlog
    obtain ⟨-, x, hx, hxtype⟩ := isSale_iff.1 hkind
    obtain rfl : g' = x := Option.some.inj (hdebit.symm.trans hx)
    exact ⟨hxtype, hsold hkind g hcredit⟩

/-- **Deletions in the inventory book.** In every state after a transaction was replicated: its
    deletion in the inventory book is handled as it should be exactly if neither of its accounts
    is incoming or outgoing, or both are one account. Of a liquidated purchase and of a calculated
    sale the deletion does nothing. -/
theorem goods_deletion_works_iff (h : Reached P collection t c s)
    (hr : r ∈ s.inventoryBook.transactions) (hid : r.id = c.id)
    (hshows : Shows s.inventoryBook payload r) :
    (DeletionWorks P collection s payload r ↔ ∀ g g', c.creditAccount = some g →
        c.debitAccount = some g' → (Inner g ∧ Inner g') ∨ g = g') ∧
      (Liquidated s.inventoryBook r ∨ r.purchaseLog ≠ none →
        InterceptorOrderProcessorDeleteGoods.intercept P collection (trashedState s r) payload =
          (trashedState s r, [])) := by
  have hkept := h.kept
  have hposted := h.posted
  have hsame := (hkept.of_id hr hid).identity
  obtain ⟨g, hcredit⟩ := Option.ne_none_iff_exists'.1 hposted.creditAccount
  obtain ⟨g', hdebit⟩ := Option.ne_none_iff_exists'.1 hposted.debitAccount
  have hrcredit : r.creditAccount = some g := hsame.creditAccount.trans hcredit
  have hrdebit : r.debitAccount = some g' := hsame.debitAccount.trans hdebit
  have hshows' : Shows (trashedState s r).inventoryBook payload r :=
    ⟨hshows.transaction, hshows.creditAccount, hshows.debitAccount⟩
  obtain ⟨hliquidated, hcalculated⟩ := hkept.decided hr hid hcredit hdebit
  have hagree := getGoodAccount_agree_iff (hkept.complete.trashed r) hshows'
    (hsame.posted.trans hposted.posted) hrcredit hrdebit
    (hkept.complete.refs r hr g (Transaction.mem_refs.2 (Or.inl hrcredit)))
    (hkept.complete.refs r hr g' (Transaction.mem_refs.2 (Or.inr hrdebit)))
  refine ⟨⟨fun hworks x x' hx hx' => ?_, fun hcond => ?_⟩, ?_⟩
  · obtain rfl : g = x := Option.some.inj (hcredit.symm.trans hx)
    obtain rfl : g' = x' := Option.some.inj (hdebit.symm.trans hx')
    exact hagree.1 hworks.sameAccount
  · have hcond := hcond g g' hcredit hdebit
    refine ⟨hagree.2 hcond, fun hl _ => ?_, fun hlog => ?_⟩
    · obtain ⟨hin, hinner⟩ := hliquidated hl
      rcases hcond with ⟨hg, -⟩ | rfl
      · exact absurd hin hg.1
      · exact absurd hin hinner.1
    · obtain ⟨hout, hinner⟩ := hcalculated hlog
      rcases hcond with ⟨-, hg'⟩ | rfl
      · exact absurd hout hg'.2
      · exact absurd hout hinner.2
  · rintro (hl | hlog)
    · obtain ⟨hin, hinner⟩ := hliquidated hl
      refine intercept_eq_of_getGoodAccount
        (getGoodAccount_eq_none hshows' hrcredit hrdebit ?_ hinner.1)
      rw [hin]
      simp
    · obtain ⟨hout, hinner⟩ := hcalculated hlog
      refine intercept_eq_of_getGoodAccount
        (getGoodAccount_eq_none hshows' hrcredit hrdebit hinner.2 ?_)
      rw [hout]
      simp

end Deletion

/-! ## A purchase liquidated in part -/

namespace Sample

/-- The event payload of a transaction, with its accounts in full. -/
def payloadOf (b : Book) (r : Transaction) : Payload where
  transaction := r
  creditAccount := r.creditAccount.bind fun g => b.getAccount g.id
  debitAccount := r.debitAccount.bind fun g => b.getAccount g.id

theorem payloadOf_shows {b : Book} (hb : Complete b) {r : Transaction} (hr : r ∈ b.transactions) :
    Shows b (payloadOf b r) r := by
  have hshown : ∀ side, (∀ g, side = some g → g ∈ r.refs) →
      (side.bind fun g => b.getAccount g.id).map Account.ref = side := by
    intro side hside
    cases side with
    | none => rfl
    | some g =>
      obtain ⟨a, -, hag, hfound⟩ := hb.account_of_ref hr (hside g rfl)
      simp [hfound, hag]
  exact ⟨rfl, hshown _ fun g hg => Transaction.mem_refs.2 (Or.inl hg),
    hshown _ fun g hg => Transaction.mem_refs.2 (Or.inr hg)⟩

theorem calculated_liquidated : ∃ r ∈ (calculated "4" []).inventoryBook.transactions,
    r.id = "i-1" ∧ r.originalQuantity = some 10 ∧ r.amount = 6 ∧
      Liquidated (calculated "4" []).inventoryBook r := by
  have hrow : ∃ r ∈ (calculated "4" []).inventoryBook.transactions, r.id = "i-1" ∧
      r.originalQuantity = some 10 ∧ r.amount = 6 := by decide +kernel
  have hsplit : ∃ u ∈ (calculated "4" []).inventoryBook.transactions, u.liquidationLog ≠ none ∧
      u.parentId = some "i-1" := by decide +kernel
  obtain ⟨r, hr, hid, hquantity, hamount⟩ := hrow
  obtain ⟨u, hu, hlog, hparent⟩ := hsplit
  exact ⟨r, hr, hid, hquantity, hamount, u, hu, hlog, Or.inr (hid ▸ hparent)⟩

theorem saleEnv_fresh : EventFresh saleEnv purchased :=
  ⟨by decide +kernel, by decide, by decide +kernel, by decide +kernel⟩

theorem runEnv_fresh : runEnv.Fresh (dollarState "4" []) :=
  ⟨Book.freshIds_unaryId (by decide +kernel), Book.freshIds_unaryId (by decide +kernel),
    Book.freshIds_unaryId (by decide +kernel)⟩

end Sample

/-- Four of the ten widgets are sold, and the purchase is deleted in the inventory book: the
    account is not flagged. -/
theorem goods_deletion_unnoticed :
    ∃ c r, Reached decimalPlatform Sample.books (Sample.purchase "USD") c
        (Sample.calculated "4" []) ∧
      r ∈ (Sample.calculated "4" []).inventoryBook.transactions ∧ r.id = c.id ∧
      Liquidated (Sample.calculated "4" []).inventoryBook r ∧
      ¬DeletionWorks decimalPlatform Sample.books (Sample.calculated "4" [])
        (Sample.payloadOf (Sample.calculated "4" []).inventoryBook r) r := by
  obtain ⟨c, hc, hreached⟩ := Sample.calculated_reached "4" [] Sample.saleEnv_fresh
    (by decide +kernel) Sample.runEnv_fresh
  obtain ⟨r, hr, hid, hquantity, hamount, hliquidated⟩ := Sample.calculated_liquidated
  refine ⟨c, r, hreached, hr, hid.trans hc.symm, hliquidated, fun hworks => ?_⟩
  have hfound : ∀ r ∈ (Sample.calculated "4" []).inventoryBook.transactions, r.id = "i-1" →
      (InterceptorOrderProcessorDeleteGoods.getGoodAccount
          (trashedState (Sample.calculated "4" []) r).inventoryBook
          (Sample.payloadOf (Sample.calculated "4" []).inventoryBook r)).isSome ≠
        (Events.BotService.getGoodAccount
          (trashedState (Sample.calculated "4" []) r).inventoryBook r).isSome := by
    decide +kernel
  exact hfound r hr hid (congrArg Option.isSome hworks.sameAccount)

namespace Sample

/-- An inventory book in which the account for purchases is an asset. -/
def buyAsset : Book :=
  { emptyBook with accounts := [{ id := "a-buy", name := "Buy", type := .asset }] }

/-- The books after the purchase. -/
def boughtFromAsset : State :=
  ⟨bookAfter (handled laterEnv buyAsset (purchase "USD")), dollarBook "USD"⟩

theorem boughtFromAsset_reached :
    ∃ c, c.id = "i-2" ∧ Reached decimalPlatform books (purchase "USD") c boughtFromAsset := by
  have hcomplete : Complete buyAsset :=
    ⟨by decide, by decide, by decide, by simp [buyAsset, emptyBook]⟩
  have hfresh : EventFresh laterEnv buyAsset := ⟨by decide, by decide, by decide, by decide⟩
  obtain ⟨ib, c, flag, hbought⟩ := eq_of_bought (handled laterEnv buyAsset (purchase "USD"))
    (by decide +kernel)
  have hib : boughtFromAsset = ⟨ib, dollarBook "USD"⟩ := by
    rw [boughtFromAsset, hbought, bookAfter]
  obtain ⟨q, hreplication⟩ := replication_of_copyOf hcomplete.toDistinct hfresh rfl hbought rfl
  refine ⟨c, hreplication.copy.data.id, ?_⟩
  rw [hib]
  exact .replicated hcomplete hfresh (by simp [buyAsset, emptyBook]) rfl hbought rfl .refl

end Sample

/-- The deletion of the purchase that is liquidated in part changes nothing. That of a purchase
    whose accounts are both assets is handled as it should be. -/
theorem goods_deletion_works_iff_sample :
    (∃ r ∈ (Sample.calculated "4" []).inventoryBook.transactions, r.amount = 6 ∧
      InterceptorOrderProcessorDeleteGoods.intercept decimalPlatform Sample.books
          (trashedState (Sample.calculated "4" []) r)
          (Sample.payloadOf (Sample.calculated "4" []).inventoryBook r) =
        (trashedState (Sample.calculated "4" []) r, [])) ∧
    ∃ r ∈ Sample.boughtFromAsset.inventoryBook.transactions,
      DeletionWorks decimalPlatform Sample.books Sample.boughtFromAsset
        (Sample.payloadOf Sample.boughtFromAsset.inventoryBook r) r := by
  constructor
  · obtain ⟨c, hc, hreached⟩ := Sample.calculated_reached "4" [] Sample.saleEnv_fresh
      (by decide +kernel) Sample.runEnv_fresh
    obtain ⟨r, hr, hid, -, hamount, hliquidated⟩ := Sample.calculated_liquidated
    refine ⟨r, hr, hamount, ?_⟩
    exact (goods_deletion_works_iff hreached hr (hid.trans hc.symm)
      (Sample.payloadOf_shows hreached.kept.complete hr)).2 (Or.inl hliquidated)
  · obtain ⟨c, hc, hreached⟩ := Sample.boughtFromAsset_reached
    obtain ⟨r, hr, hsame⟩ := hreached.kept.row
    have hassets : ∀ r ∈ Sample.boughtFromAsset.inventoryBook.transactions,
        (∀ g ∈ r.creditAccount, Inner g) ∧ ∀ g ∈ r.debitAccount, Inner g := by decide +kernel
    refine ⟨r, hr, (goods_deletion_works_iff hreached hr hsame.identity.id
      (Sample.payloadOf_shows hreached.kept.complete hr)).1.2 fun g g' hcredit hdebit => ?_⟩
    exact Or.inl ⟨(hassets r hr).1 g (hsame.identity.creditAccount.trans hcredit),
      (hassets r hr).2 g' (hsame.identity.debitAccount.trans hdebit)⟩

end InventoryBot.System
