import InventoryBot.System.GoodsDeletion

/-!
# Deleting in a financial book

The handler for deletions in a financial book takes the deleted transaction for a purchase, an
additional cost or credit note, a sale, or a calculated cost of sales, by tests of its own.

* `Shrinks`: a deletion adds no transaction and takes back no flag.
* `deletion_erases_iff`: when a deletion leaves nothing of what was replicated.
* `purchase_deletion_flags_iff`: when the deletion of a liquidated purchase is noticed.
* `adjustment_deletion_flags_iff`: when that of an additional cost or a credit note is.
-/

namespace InventoryBot.System

open Lib Menu Events InterceptorOrderProcessorDeleteFinancial

/-- The event of the deletion of a posted financial transaction. -/
structure Deletes (collection : Option (List BookInfo)) (event : Event) (t : Payload)
    (creditAccount : Account) (id : String) : Prop where
  collection : Events.BotService.getInventoryBook collection ≠ none
  financial : Events.BotService.isInventoryBook event.book = false
  transaction : event.transaction = some t
  posted : t.transaction.posted = true
  sameId : t.transaction.id = id
  nonempty : id ≠ ""
  creditAccount : t.creditAccount = some creditAccount
  debitAccount : t.debitAccount ≠ none

/-! ## What each branch does -/

/-- A step of a deletion: transactions disappear and flags appear. -/
structure Shrinks (s s' : State) : Prop where
  rows : s'.inventoryBook.transactions.Sublist s.inventoryBook.transactions
  financial : s'.financialBook.transactions ⊆ s.financialBook.transactions
  refs : accountRefs s'.inventoryBook = accountRefs s.inventoryBook
  flags : ∀ a ∈ s.inventoryBook.accounts, flagged s.inventoryBook a.id = true →
    flagged s'.inventoryBook a.id = true

theorem Shrinks.refl (s : State) : Shrinks s s :=
  ⟨List.Sublist.refl _, List.Subset.refl _, rfl, fun _ _ h => h⟩

theorem Shrinks.ids {s s' : State} (h : Shrinks s s')
    (hids : (s.inventoryBook.transactions.map Transaction.id).Nodup) :
    (s'.inventoryBook.transactions.map Transaction.id).Nodup :=
  hids.sublist (h.rows.map _)

theorem mem_accounts_of_refs {b b' : Book} (hrefs : accountRefs b' = accountRefs b) {a : Account}
    (ha : a ∈ b.accounts) : ∃ a' ∈ b'.accounts, a'.ref = a.ref := by
  have hmem : a.ref ∈ accountRefs b' := hrefs ▸ List.mem_map_of_mem ha
  exact List.mem_map.1 hmem

theorem Shrinks.trans {s s' s'' : State} (h : Shrinks s s') (h' : Shrinks s' s'') :
    Shrinks s s'' where
  rows := h'.rows.trans h.rows
  financial := List.Subset.trans h'.financial h.financial
  refs := h'.refs.trans h.refs
  flags := by
    intro a ha hflag
    obtain ⟨a', ha', href⟩ := mem_accounts_of_refs h.refs ha
    have hid : a'.id = a.id := congrArg AccountRef.id href
    exact hid ▸ h'.flags a' ha' (hid ▸ h.flags a ha hflag)

section Branches

variable {P : Platform} {collection : Option (List BookInfo)} {s : State} {id : String}
  {r : Transaction}

/-- Flagging an account of the book. -/
theorem shrinks_flag (hids : ((accountRefs s.inventoryBook).map AccountRef.id).Nodup) {a : Account}
    (ha : a ∈ s.inventoryBook.accounts) :
    Shrinks s { s with
      inventoryBook := s.inventoryBook.updateAccount (Events.BotService.setNeedsRebuild a) } := by
  refine ⟨List.Sublist.refl _, List.Subset.refl _, ?_, fun x hx hflag => ?_⟩
  · exact accountRefs_updateAccount hids (show a.ref ∈ _ from List.mem_map_of_mem ha)
  · rw [flagged_setNeedsRebuild hids ha hx, hflag, Bool.or_true]

theorem getGoodAccount_mem {b : Book} {t : Transaction} {a : Account}
    (h : Events.BotService.getGoodAccount b t = some a) : a ∈ b.accounts := by
  unfold Events.BotService.getGoodAccount at h
  split at h
  · obtain ⟨_, -, h⟩ := Option.bind_eq_some_iff.1 h
    exact Book.mem_of_getAccount h
  · split at h
    · obtain ⟨_, -, h⟩ := Option.bind_eq_some_iff.1 h
      exact Book.mem_of_getAccount h
    · cases h

theorem shrinks_flagIfNeeded (hids : ((accountRefs s.inventoryBook).map AccountRef.id).Nodup)
    (t : Transaction) :
    Shrinks s { s with
      inventoryBook :=
        Events.BotService.flagInventoryAccountForRebuildIfNeeded P s.inventoryBook t } := by
  unfold Events.BotService.flagInventoryAccountForRebuildIfNeeded
  split
  · rename_i a hfound
    split
    · exact shrinks_flag hids (getGoodAccount_mem hfound)
    · exact .refl s
  · exact .refl s

theorem withoutCopy_sublist (r : Transaction) (l : List Transaction) : (withoutCopy r l).Sublist l :=
  List.filter_sublist

theorem withoutLinked_subset (id : String) (l : List Transaction) : withoutLinked id l ⊆ l := by
  unfold withoutLinked
  split
  · exact List.filter_subset_self l
  · exact List.Subset.refl l

/-- The state after the copy `r` and what is linked to it were trashed. -/
def withoutState (s : State) (r : Transaction) : State :=
  ⟨{ s.inventoryBook with transactions := withoutCopy r s.inventoryBook.transactions },
    { s.financialBook with transactions := withoutLinked r.id s.financialBook.transactions }⟩

theorem shrinks_withoutState (s : State) (r : Transaction) : Shrinks s (withoutState s r) :=
  ⟨withoutCopy_sublist _ _, withoutLinked_subset _ _, rfl, fun _ _ h => h⟩

/-- The branch of a purchase or a sale that has a copy: the copy goes, and its account is flagged
    if its date is calculated. -/
theorem deleteAndFlag_some (P : Platform)
    (hids : (s.inventoryBook.transactions.map Transaction.id).Nodup)
    (hcollection : Events.BotService.getInventoryBook collection ≠ none) (hid : id ≠ "")
    (hr : s.inventoryBook.transactions.find? (·.remoteIds.contains id) = some r) :
    (deleteAndFlag P collection s id).1 = { withoutState s r with
      inventoryBook := Events.BotService.flagInventoryAccountForRebuildIfNeeded P
        (withoutState s r).inventoryBook r } := by
  obtain ⟨responses, hdeleted⟩ := deleteOnInventoryBook_state hids hcollection hid hr
  unfold deleteAndFlag
  rw [hdeleted]
  rfl

theorem deleteAndFlag_none
    (hnone : s.inventoryBook.transactions.find? (·.remoteIds.contains id) = none) :
    deleteAndFlag P collection s id = (s, []) := by
  unfold deleteAndFlag
  rw [deleteOnInventoryBook_none hnone]

theorem shrinks_deleteAndFlag (P : Platform)
    (hcollection : Events.BotService.getInventoryBook collection ≠ none) (hid : id ≠ "")
    (hids : (s.inventoryBook.transactions.map Transaction.id).Nodup)
    (haccounts : ((accountRefs s.inventoryBook).map AccountRef.id).Nodup) :
    Shrinks s (deleteAndFlag P collection s id).1 := by
  cases hr : s.inventoryBook.transactions.find? (·.remoteIds.contains id) with
  | none =>
    rw [deleteAndFlag_none hr]
    exact .refl s
  | some r =>
    rw [deleteAndFlag_some P hids hcollection hid hr]
    exact (shrinks_withoutState s r).trans (shrinks_flagIfNeeded (s := withoutState s r) haccounts r)

theorem shrinks_deletePurchase (P : Platform)
    (hcollection : Events.BotService.getInventoryBook collection ≠ none) {tx : Transaction}
    (hid : tx.id ≠ "") (hids : (s.inventoryBook.transactions.map Transaction.id).Nodup)
    (haccounts : ((accountRefs s.inventoryBook).map AccountRef.id).Nodup) :
    Shrinks s (deletePurchase P collection s tx).1 := by
  unfold deletePurchase
  split
  · exact shrinks_deleteAndFlag P hcollection hid hids haccounts
  · exact .refl s

theorem shrinks_deleteSale (P : Platform)
    (hcollection : Events.BotService.getInventoryBook collection ≠ none) {t : Payload}
    (hid : t.transaction.id ≠ "") (hids : (s.inventoryBook.transactions.map Transaction.id).Nodup)
    (haccounts : ((accountRefs s.inventoryBook).map AccountRef.id).Nodup) :
    Shrinks s (deleteSale P collection s t).1 := by
  unfold deleteSale
  split
  · exact shrinks_deleteAndFlag P hcollection hid hids haccounts
  · exact .refl s

theorem shrinks_deleteAdjustment (P : Platform) (creditAccount : Account) (t : Transaction)
    (haccounts : ((accountRefs s.inventoryBook).map AccountRef.id).Nodup) :
    Shrinks s (deleteAdjustment P collection s creditAccount t).1 := by
  unfold deleteAdjustment
  split
  · cases hfound : adjustedAccount P s.inventoryBook creditAccount t with
    | none => exact .refl s
    | some a =>
      unfold adjustedAccount at hfound
      exact shrinks_flag haccounts (Book.mem_of_getAccount (Option.filter_eq_some_iff.1 hfound).1)
  · exact .refl s

theorem flagRebuild_transactions (b : Book) (t : Transaction) :
    (Events.BotService.flagInventoryAccountForRebuild b t).transactions = b.transactions := by
  unfold Events.BotService.flagInventoryAccountForRebuild
  split <;> rfl

/-- The branch of the cost of sales only flags. -/
theorem deleteCOGS_rows (collection : Option (List BookInfo)) (s : State) (t : Transaction) :
    (deleteCOGS collection s t).1.inventoryBook.transactions = s.inventoryBook.transactions ∧
      (deleteCOGS collection s t).1.financialBook = s.financialBook := by
  unfold deleteCOGS
  split
  · cases linkedSale s.inventoryBook t with
    | none => exact ⟨rfl, rfl⟩
    | some sale => exact ⟨flagRebuild_transactions s.inventoryBook sale, rfl⟩
  · exact ⟨rfl, rfl⟩

theorem shrinks_deleteCOGS (collection : Option (List BookInfo)) (t : Transaction)
    (haccounts : ((accountRefs s.inventoryBook).map AccountRef.id).Nodup) :
    Shrinks s (deleteCOGS collection s t).1 := by
  unfold deleteCOGS
  split
  · cases linkedSale s.inventoryBook t with
    | none => exact .refl s
    | some sale =>
      simp only [Events.BotService.flagInventoryAccountForRebuild]
      split
      · rename_i a hfound
        exact shrinks_flag haccounts (getGoodAccount_mem hfound)
      · exact .refl s
  · exact .refl s

end Branches

/-! ## The handler -/

section Handler

variable {P : Platform} {collection : Option (List BookInfo)} {s : State} {event : Event}
  {t : Payload} {creditAccount : Account} {id : String}

/-- Both books have the same transactions. -/
structure SameRows (s s' : State) : Prop where
  inventory : s'.inventoryBook.transactions = s.inventoryBook.transactions
  financial : s'.financialBook.transactions = s.financialBook.transactions

/-- The handler runs the four branches one after another. -/
theorem Deletes.intercept (h : Deletes collection event t creditAccount id) :
    (EventHandlerTransactionDeleted.intercept P collection s event).1 =
      (deleteCOGS collection (deleteSale P collection (deleteAdjustment P collection
        (deletePurchase P collection s t.transaction).1 creditAccount t.transaction).1 t).1
        t.transaction).1 := by
  obtain ⟨debitAccount, hdebit⟩ := Option.ne_none_iff_exists'.1 h.debitAccount
  have hid : t.transaction.id ≠ "" := h.sameId ▸ h.nonempty
  simp only [EventHandlerTransactionDeleted.intercept, h.transaction, h.financial,
    Bool.false_eq_true, if_false, InterceptorOrderProcessorDeleteFinancial.intercept, h.posted,
    Bool.not_true, hdebit, h.creditAccount, hid]

/-- The branches only trash and flag, and those of a sale and of a cost of sales do nothing for a
    transaction that is taken for neither. -/
theorem Deletes.shrinks (h : Deletes collection event t creditAccount id)
    (hids : (s.inventoryBook.transactions.map Transaction.id).Nodup)
    (haccounts : ((accountRefs s.inventoryBook).map AccountRef.id).Nodup) :
    let s₁ := (deletePurchase P collection s t.transaction).1
    let s₂ := (deleteAdjustment P collection s₁ creditAccount t.transaction).1
    let s' := (EventHandlerTransactionDeleted.intercept P collection s event).1
    Shrinks s s₁ ∧ Shrinks s₁ s₂ ∧ Shrinks s₂ s' ∧
      (isSaleTransaction t = false → isCOGSTransaction t.transaction = false → s' = s₂) := by
  intro s₁ s₂ s'
  have hid : t.transaction.id ≠ "" := h.sameId ▸ h.nonempty
  have h₁ : Shrinks s s₁ := shrinks_deletePurchase P h.collection hid hids haccounts
  have h₂ : Shrinks s₁ s₂ :=
    shrinks_deleteAdjustment P creditAccount t.transaction (h₁.refs ▸ haccounts)
  have hrefs₂ := h₂.refs.trans h₁.refs
  have h₃ : Shrinks s₂ (deleteSale P collection s₂ t).1 :=
    shrinks_deleteSale P h.collection hid (h₂.ids (h₁.ids hids)) (hrefs₂ ▸ haccounts)
  have hs' : s' = (deleteCOGS collection (deleteSale P collection s₂ t).1 t.transaction).1 :=
    h.intercept
  refine ⟨h₁, h₂, hs' ▸ h₃.trans (shrinks_deleteCOGS collection t.transaction
    ((h₃.refs.trans hrefs₂) ▸ haccounts)), fun hnosale hnocogs => ?_⟩
  rw [hs', deleteSale, if_neg (by simp [hnosale]), deleteCOGS, hnocogs, Bool.false_and,
    if_neg (by simp)]

/-- A transaction that is taken for a purchase is not taken for an additional cost. -/
theorem not_adjustment_of_purchase {tx : Transaction} (h : isPurchaseTransaction tx = true) :
    isAdjustmentTransaction tx = false := by
  simp only [isPurchaseTransaction, Bool.and_eq_true, beq_iff_eq] at h
  simp [isAdjustmentTransaction, h.2]

/-- The branch of the additional cost only flags. -/
theorem deleteAdjustment_rows (P : Platform) (collection : Option (List BookInfo)) (s : State)
    (creditAccount : Account) (tx : Transaction) :
    (deleteAdjustment P collection s creditAccount tx).1.inventoryBook.transactions =
        s.inventoryBook.transactions ∧
      (deleteAdjustment P collection s creditAccount tx).1.financialBook = s.financialBook := by
  unfold deleteAdjustment
  split
  · cases adjustedAccount P s.inventoryBook creditAccount tx <;> exact ⟨rfl, rfl⟩
  · exact ⟨rfl, rfl⟩

theorem flagIfNeeded_transactions (P : Platform) (b : Book) (tx : Transaction) :
    (Events.BotService.flagInventoryAccountForRebuildIfNeeded P b tx).transactions =
      b.transactions := by
  unfold Events.BotService.flagInventoryAccountForRebuildIfNeeded
  cases Events.BotService.getGoodAccount b tx with
  | none => rfl
  | some a =>
    dsimp only
    split <;> rfl

/-- The first copy of a replicated transaction. -/
theorem Kept.find {c : Transaction} {b : Book} (h : Kept id c b) :
    ∃ r ∈ b.transactions, b.transactions.find? (·.remoteIds.contains id) = some r ∧
      SameCopy c r := by
  obtain ⟨r, hfind, hid⟩ := Option.map_eq_some_iff.1 h.first
  have hmem := List.mem_of_find?_eq_some hfind
  exact ⟨r, hmem, hfind, h.of_id hmem hid⟩

/-- The books after a deletion have the rows that the branches of a purchase and of a sale leave. -/
theorem Deletes.rows (h : Deletes collection event t creditAccount id) :
    ∃ s₁, SameRows (deletePurchase P collection s t.transaction).1 s₁ ∧
      SameRows (deleteSale P collection s₁ t).1
        (EventHandlerTransactionDeleted.intercept P collection s event).1 := by
  have hadjust := deleteAdjustment_rows P collection
    (deletePurchase P collection s t.transaction).1 creditAccount t.transaction
  refine ⟨_, ⟨hadjust.1, congrArg Book.transactions hadjust.2⟩, ?_⟩
  rw [h.intercept]
  have hcogs := deleteCOGS_rows collection (deleteSale P collection (deleteAdjustment P collection
    (deletePurchase P collection s t.transaction).1 creditAccount t.transaction).1 t).1
    t.transaction
  exact ⟨hcogs.1, congrArg Book.transactions hcogs.2⟩

end Handler

/-! ## Is everything erased? -/

/-- Nothing is left of the financial transaction `id` that was replicated as `c`: no transaction
    with its id as a remote id, no split of the copy, and no financial transaction that is linked
    to the copy. -/
structure Erased (id : String) (c : Transaction) (s : State) : Prop where
  copies : ∀ u ∈ s.inventoryBook.transactions, id ∉ u.remoteIds
  splits : ∀ u ∈ s.inventoryBook.transactions, u.parentId ≠ some c.id
  linked : ∀ f ∈ s.financialBook.transactions, c.id ∉ f.remoteIds

/-- The first inventory transaction with an id as a remote id. -/
abbrev FirstCopy (id : String) (b : Book) (r : Transaction) : Prop :=
  b.transactions.find? (·.remoteIds.contains id) = some r

/-- What is trashed with `r`: itself and, if it has an `original_quantity`, its splits under the
    account that it debits. -/
def TrashedWith (r u : Transaction) : Prop :=
  u.id = r.id ∨ r.originalQuantity ≠ none ∧ u.parentId = some r.id ∧
    u.moves ((r.debitAccount.map AccountRef.name).getD "undefined") = true

instance (r u : Transaction) : Decidable (TrashedWith r u) := inferInstanceAs (Decidable (_ ∨ _))

/-- Trashing `r`, what goes with it and the first financial transaction that is linked to it leaves
    nothing of the transaction `id` that was replicated as `c`. -/
structure Clears (id : String) (c : Transaction) (s : State) (r : Transaction) : Prop where
  rows : ∀ u ∈ s.inventoryBook.transactions, id ∈ u.remoteIds ∨ u.parentId = some c.id →
    TrashedWith r u
  linked : ∀ f ∈ s.financialBook.transactions, c.id ∈ f.remoteIds →
    (s.financialBook.transactions.find? (·.remoteIds.contains r.id)).map Transaction.id = some f.id

section Erasing

variable {P : Platform} {collection : Option (List BookInfo)} {s s' : State} {id : String}
  {c r : Transaction}

theorem mem_withoutCopy {u : Transaction} {l : List Transaction} :
    u ∈ withoutCopy r l ↔ u ∈ l ∧ ¬TrashedWith r u := by
  unfold withoutCopy TrashedWith
  rw [List.mem_filter, not_or, ← Option.isSome_iff_ne_none]
  refine and_congr_right fun _ => ?_
  rw [Bool.and_eq_true, bne_iff_ne, Bool.not_eq_true', ← Bool.not_eq_true, Bool.and_eq_true,
    Bool.and_eq_true, beq_iff_eq, and_assoc, and_comm (a := u.parentId = some r.id)]

theorem mem_withoutLinked {f : Transaction} {l : List Transaction} :
    f ∈ withoutLinked r.id l ↔ f ∈ l ∧
      (l.find? (·.remoteIds.contains r.id)).map Transaction.id ≠ some f.id := by
  unfold withoutLinked
  cases l.find? (·.remoteIds.contains r.id) with
  | none => exact ⟨fun hf => ⟨hf, fun h => by cases h⟩, And.left⟩
  | some first =>
    rw [List.mem_filter, bne_iff_ne, Option.map_some, ne_eq, ne_eq, Option.some.injEq,
      eq_comm (a := f.id)]

theorem SameRows.erased (h : SameRows s s') : Erased id c s' ↔ Erased id c s := by
  constructor
  · rintro ⟨hcopies, hsplits, hlinked⟩
    exact ⟨h.inventory ▸ hcopies, h.inventory ▸ hsplits, h.financial ▸ hlinked⟩
  · rintro ⟨hcopies, hsplits, hlinked⟩
    exact ⟨h.inventory ▸ hcopies, h.inventory ▸ hsplits, h.financial ▸ hlinked⟩

theorem SameRows.firstCopy (h : SameRows s s') :
    FirstCopy id s'.inventoryBook r ↔ FirstCopy id s.inventoryBook r := by
  rw [FirstCopy, FirstCopy, h.inventory]

theorem SameRows.clears (h : SameRows s s') : Clears id c s' r ↔ Clears id c s r := by
  constructor
  · rintro ⟨hrows, hlinked⟩
    exact ⟨h.inventory ▸ hrows, h.financial ▸ hlinked⟩
  · rintro ⟨hrows, hlinked⟩
    exact ⟨h.inventory ▸ hrows, h.financial ▸ hlinked⟩

theorem erased_withoutState_iff : Erased id c (withoutState s r) ↔ Clears id c s r := by
  constructor
  · rintro ⟨hcopies, hsplits, hlinked⟩
    refine ⟨fun u hu hu' => ?_, fun f hf hf' => ?_⟩
    · by_contra hkept
      have hleft : u ∈ (withoutState s r).inventoryBook.transactions := mem_withoutCopy.2 ⟨hu, hkept⟩
      exact hu'.elim (hcopies u hleft) (hsplits u hleft)
    · by_contra hkept
      exact hlinked f (mem_withoutLinked.2 ⟨hf, hkept⟩) hf'
  · rintro ⟨hrows, hlinked⟩
    refine ⟨fun u hu hu' => ?_, fun u hu hu' => ?_, fun f hf hf' => ?_⟩
    · obtain ⟨hmem, hkept⟩ := mem_withoutCopy.1 hu
      exact hkept (hrows u hmem (Or.inl hu'))
    · obtain ⟨hmem, hkept⟩ := mem_withoutCopy.1 hu
      exact hkept (hrows u hmem (Or.inr hu'))
    · obtain ⟨hmem, hkept⟩ := mem_withoutLinked.1 hf
      exact hkept (hlinked f hmem hf')

theorem exists_firstCopy_iff {b : Book} {p : Transaction → Prop} (hr : FirstCopy id b r) :
    (∃ r', FirstCopy id b r' ∧ p r') ↔ p r := by
  constructor
  · rintro ⟨r', hr', h⟩
    obtain rfl : r = r' := Option.some.inj (hr.symm.trans hr')
    exact h
  · exact fun h => ⟨r, hr, h⟩

theorem not_exists_firstCopy {b : Book} {p : Transaction → Prop}
    (hnone : b.transactions.find? (·.remoteIds.contains id) = none) :
    ¬∃ r, FirstCopy id b r ∧ p r := by
  rintro ⟨r, hr, -⟩
  rw [FirstCopy, hnone] at hr
  cases hr

theorem Erased.no_firstCopy (h : Erased id c s) : ¬FirstCopy id s.inventoryBook r := fun hr =>
  h.copies r (List.mem_of_find?_eq_some hr) (by simpa using List.find?_some hr)

/-- The deletion of the first copy, with what goes with it. -/
theorem sameRows_deleteAndFlag (P : Platform)
    (hids : (s.inventoryBook.transactions.map Transaction.id).Nodup)
    (hcollection : Events.BotService.getInventoryBook collection ≠ none) (hid : id ≠ "")
    (hr : FirstCopy id s.inventoryBook r) :
    SameRows (withoutState s r) (deleteAndFlag P collection s id).1 := by
  rw [deleteAndFlag_some P hids hcollection hid hr]
  exact ⟨flagIfNeeded_transactions P _ r, rfl⟩

/-- One such deletion leaves nothing exactly if nothing was there, or it clears all. -/
theorem erased_deleteAndFlag_iff (P : Platform)
    (hids : (s.inventoryBook.transactions.map Transaction.id).Nodup)
    (hcollection : Events.BotService.getInventoryBook collection ≠ none) (hid : id ≠ "") :
    Erased id c (deleteAndFlag P collection s id).1 ↔
      Erased id c s ∨ ∃ r, FirstCopy id s.inventoryBook r ∧ Clears id c s r := by
  cases hr : s.inventoryBook.transactions.find? (·.remoteIds.contains id) with
  | none =>
    rw [deleteAndFlag_none hr, or_iff_left (not_exists_firstCopy hr)]
  | some r =>
    rw [(sameRows_deleteAndFlag P hids hcollection hid hr).erased, erased_withoutState_iff,
      exists_firstCopy_iff hr, or_iff_right fun h : Erased id c s => h.no_firstCopy hr]

/-- **Replication and deletion.** In every state whose inventory transactions have different ids,
    whatever was checked, calculated, reset or deleted before: the deletion of a transaction leaves
    nothing of it and of a copy `c` exactly if nothing was left before, or the deletion is taken for
    a purchase or a sale and clears all with the first inventory transaction that has the id of the
    deleted one as a remote id. A deletion that is taken for both may also clear with the next
    such transaction what the first one leaves. -/
theorem deletion_erases_iff {event : Event} {t : Payload} {creditAccount : Account}
    (hids : (s.inventoryBook.transactions.map Transaction.id).Nodup)
    (hdeletes : Deletes collection event t creditAccount id) (c : Transaction) :
    Erased id c (EventHandlerTransactionDeleted.intercept P collection s event).1 ↔
      Erased id c s ∨ (isPurchaseTransaction t.transaction = true ∨ isSaleTransaction t = true) ∧
        ∃ r, FirstCopy id s.inventoryBook r ∧ (Clears id c s r ∨
          (isPurchaseTransaction t.transaction = true ∧ isSaleTransaction t = true) ∧
            ∃ r', FirstCopy id (withoutState s r).inventoryBook r' ∧
              Clears id c (withoutState s r) r') := by
  obtain ⟨s₁, hs₁, hs'⟩ := hdeletes.rows (P := P) (s := s)
  rw [hs'.erased]
  have hone := erased_deleteAndFlag_iff (c := c) P hids hdeletes.collection hdeletes.nonempty
  by_cases hpurchase : isPurchaseTransaction t.transaction = true
  · rw [deletePurchase, if_pos hpurchase, hdeletes.sameId] at hs₁
    by_cases hsale : isSaleTransaction t = true
    · -- the second deletion finds what the first has left
      rw [deleteSale, if_pos hsale, hdeletes.sameId]
      simp only [hpurchase, hsale, or_self, and_self, true_and]
      cases hr : s.inventoryBook.transactions.find? (·.remoteIds.contains id) with
      | none =>
        rw [deleteAndFlag_none hr] at hs₁
        have hnone : s₁.inventoryBook.transactions.find? (·.remoteIds.contains id) = none := by
          rw [hs₁.inventory]
          exact hr
        rw [deleteAndFlag_none hnone, hs₁.erased, or_iff_left (not_exists_firstCopy hr)]
      | some r =>
        have hrows := sameRows_deleteAndFlag P hids hdeletes.collection hdeletes.nonempty hr
        have hrows : SameRows (withoutState s r) s₁ :=
          ⟨hs₁.inventory.trans hrows.inventory, hs₁.financial.trans hrows.financial⟩
        have hids₁ : (s₁.inventoryBook.transactions.map Transaction.id).Nodup := by
          rw [hrows.inventory]
          exact hids.sublist (List.filter_sublist.map _)
        rw [erased_deleteAndFlag_iff P hids₁ hdeletes.collection hdeletes.nonempty, hrows.erased,
          erased_withoutState_iff]
        simp only [hrows.firstCopy, hrows.clears]
        rw [exists_firstCopy_iff hr, or_iff_right fun h : Erased id c s => h.no_firstCopy hr]
    · rw [deleteSale, if_neg hsale, hs₁.erased, hone]
      simp [hpurchase, hsale]
  · rw [deletePurchase, if_neg hpurchase] at hs₁
    by_cases hsale : isSaleTransaction t = true
    · have hids₁ : (s₁.inventoryBook.transactions.map Transaction.id).Nodup := by
        rw [hs₁.inventory]
        exact hids
      rw [deleteSale, if_pos hsale, hdeletes.sameId,
        erased_deleteAndFlag_iff P hids₁ hdeletes.collection hdeletes.nonempty, hs₁.erased]
      simp only [hs₁.firstCopy, hs₁.clears, hpurchase, hsale, Bool.false_eq_true, false_or,
        false_and, or_false, true_and]
    · rw [deleteSale, if_neg hsale, hs₁.erased]
      simp [hpurchase, hsale]

end Erasing

/-- A split of a purchase is found under the account that the purchase debits. -/
theorem Kept.split_moves {c r u : Transaction} {id : String} {b : Book} (h : Kept id c b)
    (hsame : SameCopy c r) (hdebit : c.debitAccount ≠ none) (hu : u ∈ b.transactions)
    (hparent : u.parentId = some c.id) :
    u.moves ((r.debitAccount.map AccountRef.name).getD "undefined") = true := by
  obtain ⟨g, hg⟩ := Option.ne_none_iff_exists'.1 hdebit
  obtain ⟨-, hudebit, -⟩ := h.splits u hu hparent
  simp [Transaction.moves, hudebit, hsame.identity.debitAccount, hg]

section Symmetry

variable {P : Platform} {collection : Option (List BookInfo)} {s : State} {event : Event}
  {t t' : Payload} {c : Transaction} {creditAccount : Account}

/-- What is left of a copy without `original_quantity` are its splits. -/
theorem splits_withoutCopy_iff {r : Transaction} {id : String} (hkept : Kept id c s.inventoryBook)
    (hparent : c.parentId = none) (hdebit : c.debitAccount ≠ none)
    (hr : r ∈ s.inventoryBook.transactions) (hsame : SameCopy c r) :
    (∀ u ∈ withoutCopy r s.inventoryBook.transactions, u.parentId ≠ some c.id) ↔
      c.originalQuantity ≠ none ∨ ∀ u ∈ s.inventoryBook.transactions, u.parentId ≠ some c.id := by
  have hid := hsame.identity.id
  have hquantity := hsame.identity.originalQuantity
  constructor
  · intro h
    by_contra hno
    simp only [not_or, not_not, not_forall] at hno
    obtain ⟨hnone, u, hu, hsplit⟩ := hno
    refine h u (List.mem_filter.2 ⟨hu, ?_⟩) hsplit
    have hne : u.id ≠ r.id := by
      intro he
      obtain rfl : u = r := List.inj_on_of_nodup_map hkept.complete.ids hu hr he
      rw [hsame.identity.parentId, hparent] at hsplit
      cases hsplit
    simp [hne, hquantity, hnone]
  · rintro (hsome | hnone) u hu hsplit
    · obtain ⟨hmem, hkeep⟩ := List.mem_filter.1 hu
      have hmoves := hkept.split_moves hsame hdebit hmem hsplit
      have hsome : r.originalQuantity.isSome = true :=
        Option.isSome_iff_ne_none.2 (hquantity ▸ hsome)
      simp [hsome, hmoves, hsplit, hid] at hkeep
    · exact hnone u (List.mem_of_mem_filter hu) hsplit

end Symmetry

namespace Sample

/-- The deletion of a transaction of the dollar book. -/
def deletion (t : Payload) : Event := { type := .deleted, book := dollars, transaction := some t }

/-- The deletion of the purchase. -/
theorem purchase_deletes :
    Deletes books (deletion (purchase "USD")) (purchase "USD") supplier "t-1" :=
  ⟨by decide +kernel, by decide, rfl, rfl, rfl, by decide, rfl, by simp [purchase]⟩

/-- The state after the handler has seen the deletion. -/
def deleted (s : State) (t : Payload) : State :=
  (EventHandlerTransactionDeleted.intercept decimalPlatform books s (deletion t)).1

/-- The sale of the sample is replicated, and then the cost of sales is calculated. -/
theorem sale_reached (quantity : String) (more : List Transaction)
    (hsold : ∃ c flag ib, handled saleEnv purchased (sale quantity) = .ok (ib, .sell c flag))
    (hrun : runEnv.Fresh (dollarState quantity more))
    (hnew : ∀ u ∈ purchased.transactions, u.parentId ≠ some saleEnv.transactionId) :
    ∃ c, c.id = "i-2" ∧
      Reached decimalPlatform books (sale quantity) c (calculated quantity more) := by
  obtain ⟨c, flag, ib, hsold⟩ := hsold
  have hib : ib = sold quantity := by rw [Sample.sold, hsold, bookAfter]
  obtain ⟨ib₁, c₁, flag₁, hbought⟩ := eq_of_bought (handled eventEnv emptyBook (purchase "USD"))
    (by decide +kernel)
  have hib₁ : ib₁ = purchased := by rw [purchased, hbought, bookAfter]
  have hstart : EventFresh eventEnv emptyBook := ⟨by decide, by decide, by decide, by decide⟩
  have hcomplete : Complete purchased :=
    hib₁ ▸ processObject_complete emptyBook_complete hstart hbought
  have h₁ : SystemStep decimalPlatform books ⟨sold quantity, dollarBook "USD"⟩
      (dollarState quantity more) := .financial
  have h₂ : SystemStep decimalPlatform books (dollarState quantity more)
      (calculated quantity more) := .calculate (.run runEnv (some 9) hrun)
  have hsteps : Relation.ReflTransGen (SystemStep decimalPlatform books) ⟨ib, dollarBook "USD"⟩
      (calculated quantity more) := by
    rw [hib]
    exact .tail (.single h₁) h₂
  refine ⟨c, ?_, .replicated hcomplete saleEnv_fresh hnew rfl hsold rfl hsteps⟩
  obtain ⟨q, hreplication⟩ := replication_of_copyOf hcomplete.toDistinct saleEnv_fresh rfl hsold rfl
  exact hreplication.copy.data.id

/-- The answer is that a sale was posted. -/
def sells : Except Exception (Book × Response) → Bool
  | .ok (_, .sell _ _) => true
  | _ => false

theorem eq_of_sells (x : Except Exception (Book × Response)) (h : sells x = true) :
    ∃ c flag ib, x = .ok (ib, .sell c flag) := by
  unfold sells at h
  split at h
  · exact ⟨_, _, _, rfl⟩
  · cases h

end Sample

/-- An ordinary sale, which credits revenue and debits a customer, is deleted: its inventory
    transaction stays. -/
theorem deletion_keeps_sale :
    ∃ c, Reached decimalPlatform Sample.books (Sample.sale "4") c (Sample.calculated "4" []) ∧
      ¬Erased "t-2" c (Sample.deleted (Sample.calculated "4" []) (Sample.sale "4")) := by
  obtain ⟨c, -, hreached⟩ := Sample.sale_reached "4" [] (Sample.eq_of_sells _ (by decide +kernel))
    Sample.runEnv_fresh (by decide +kernel)
  refine ⟨c, hreached, fun herased => ?_⟩
  have hkept : ∃ u ∈ (Sample.deleted (Sample.calculated "4" [])
      (Sample.sale "4")).inventoryBook.transactions, "t-2" ∈ u.remoteIds := by decide +kernel
  obtain ⟨u, hu, hremote⟩ := hkept
  exact herased.copies u hu hremote

/-- The deletion of the purchase erases it and its split. -/
theorem deletion_erases_iff_sample :
    ∃ c, Reached decimalPlatform Sample.books (Sample.purchase "USD") c
        (Sample.calculated "4" []) ∧
      Erased "t-1" c (Sample.deleted (Sample.calculated "4" []) (Sample.purchase "USD")) := by
  obtain ⟨c, hc, hreached⟩ := Sample.calculated_reached "4" [] Sample.saleEnv_fresh
    (by decide +kernel) Sample.runEnv_fresh
  obtain ⟨r, -, hfind, -⟩ := hreached.kept.find
  have hrows : ∀ r ∈ (Sample.calculated "4" []).inventoryBook.transactions.find?
      (·.remoteIds.contains "t-1"), ∀ u ∈ (Sample.calculated "4" []).inventoryBook.transactions,
        "t-1" ∈ u.remoteIds ∨ u.parentId = some "i-1" → TrashedWith r u := by decide +kernel
  have hlinked : ∀ f ∈ (Sample.calculated "4" []).financialBook.transactions,
      "i-1" ∉ f.remoteIds := by decide +kernel
  rw [← hc] at hrows hlinked
  exact ⟨c, hreached, (deletion_erases_iff hreached.kept.complete.ids Sample.purchase_deletes c).2
    (Or.inr ⟨Or.inl (by decide), r, hfind, Or.inl ⟨hrows r hfind,
      fun f hf hf' => absurd hf' (hlinked f hf)⟩⟩)⟩

/-! ## Is the deletion of a liquidated purchase noticed? -/

section Purchase

variable {P : Platform} {collection : Option (List BookInfo)} {s : State} {event : Event}
  {t t' : Payload} {c : Transaction} {creditAccount : Account}

/-- The account of a liquidated purchase is the one that it debits. -/
theorem Kept.goodAccount {id : String} (h : Kept id c s.inventoryBook)
    (hliquidated : Liquidated s.inventoryBook c) {r : Transaction} (hsame : SameCopy c r)
    {g : AccountRef} (hdebit : c.debitAccount = some g) {b : Book} :
    Events.BotService.getGoodAccount b r = b.getAccount g.id := by
  obtain ⟨u, hu, hlog, hlink⟩ := hliquidated
  have hkind : Menu.BotService.isPurchase c = true ∧ OneSided c := by
    rcases hlink with hid | hparent
    · exact h.liquidated u hu hid hlog
    · exact (h.splits u hu hparent).2.2
  have hpurchase : Menu.BotService.isPurchase r = true := by
    rw [hsame.identity.isPurchase]
    exact hkind.1
  have hsale : Menu.BotService.isSale r = false := by
    rw [hsame.identity.isSale, ← Bool.not_eq_true]
    exact hkind.2.not_sale hkind.1
  rw [Events.BotService.getGoodAccount, hsale, if_neg (by simp), hpurchase, if_pos rfl,
    hsame.identity.debitAccount, hdebit]
  rfl

/-- Flagging an account of the book flags no other one. -/
theorem flagged_setNeedsRebuild_iff {b : Book} (hids : ((accountRefs b).map AccountRef.id).Nodup)
    {g a : Account} (hg : g ∈ b.accounts) (ha : a ∈ b.accounts) :
    flagged (b.updateAccount (Events.BotService.setNeedsRebuild g)) a.id = true ↔
      flagged b a.id = true ∨ g = a := by
  rw [flagged_setNeedsRebuild hids hg ha, Bool.or_eq_true, decide_eq_true_eq, or_comm]
  exact or_congr_right
    ⟨fun hid => (eq_of_id hids ha hg hid).symm, fun he => congrArg Account.id he.symm⟩

/-- `flagInventoryAccountForRebuildIfNeeded` flags the account that it finds, if the date is
    calculated. -/
theorem flagged_flagIfNeeded_iff {b : Book} (hids : ((accountRefs b).map AccountRef.id).Nodup)
    {tx : Transaction} {a : Account} (ha : a ∈ b.accounts) :
    flagged (Events.BotService.flagInventoryAccountForRebuildIfNeeded P b tx) a.id = true ↔
      flagged b a.id = true ∨ Events.BotService.getGoodAccount b tx = some a ∧
        Events.BotService.calculated P a tx.date = true := by
  unfold Events.BotService.flagInventoryAccountForRebuildIfNeeded
  cases hfound : Events.BotService.getGoodAccount b tx with
  | none => simp
  | some g =>
    have hg : g ∈ b.accounts := getGoodAccount_mem hfound
    dsimp only
    split
    · rename_i hcalculated
      rw [flagged_setNeedsRebuild_iff hids hg ha, Option.some.injEq]
      exact or_congr_right ⟨fun he => ⟨he, he ▸ hcalculated⟩, And.left⟩
    · rename_i hcalculated
      rw [Option.some.injEq]
      refine (or_iff_left ?_).symm
      rintro ⟨rfl, h⟩
      exact hcalculated h

/-- **Deleting a liquidated purchase.** In every state after a purchase was replicated and some of
    it was liquidated: its deletion trashes the purchase and its splits. The account of the good is
    flagged if it was before, or if the calculation date of the account is not before the date of
    the purchase; and only then, unless the transaction is also taken for a sale or a cost of
    sales. -/
theorem purchase_deletion_flags_iff (h : Reached P collection t c s)
    (hsale : truthy t.transaction.saleInvoice = false)
    (hpurchase : truthy t.transaction.purchaseInvoice = true)
    (hliquidated : Liquidated s.inventoryBook c)
    (hdeletes : Deletes collection event t' creditAccount t.transaction.id)
    (htaken : isPurchaseTransaction t'.transaction = true) :
    let s' := (EventHandlerTransactionDeleted.intercept P collection s event).1
    (∀ u ∈ s'.inventoryBook.transactions, u.id ≠ c.id ∧ u.parentId ≠ some c.id) ∧
      ∃ g a, c.debitAccount = some g ∧ s.inventoryBook.getAccount g.id = some a ∧
        (flagged s.inventoryBook g.id = true ∨ Events.BotService.calculated P a c.date = true →
          flagged s'.inventoryBook g.id = true) ∧
        (isSaleTransaction t' = false → isCOGSTransaction t'.transaction = false →
          flagged s'.inventoryBook g.id = true →
          flagged s.inventoryBook g.id = true ∨
            Events.BotService.calculated P a c.date = true) := by
  intro s'
  have hkept := h.kept
  have hposted := h.posted
  obtain ⟨r, hr, hfind, hsame⟩ := hkept.find
  have hid := hsame.identity.id
  have hids := hkept.complete.ids
  have haccounts := hkept.complete.accountIds
  obtain ⟨g, hdebit⟩ := Option.ne_none_iff_exists'.1 hposted.debitAccount
  obtain ⟨a, ha, haref, hga⟩ := hkept.complete.account_of_ref hr
    (Transaction.mem_refs.2 (Or.inr (hsame.identity.debitAccount.trans hdebit)))
  have hag : a.id = g.id := congrArg AccountRef.id haref
  -- the branch of the purchase
  let s₁ := (deletePurchase P collection s t'.transaction).1
  have hs₁ : s₁ = { withoutState s r with
      inventoryBook := Events.BotService.flagInventoryAccountForRebuildIfNeeded P
        (withoutState s r).inventoryBook r } := by
    show (deletePurchase P collection s t'.transaction).1 = _
    rw [deletePurchase, if_pos htaken, hdeletes.sameId]
    exact deleteAndFlag_some P hids hdeletes.collection hdeletes.nonempty hfind
  have hfound : Events.BotService.getGoodAccount (withoutState s r).inventoryBook r = some a :=
    (hkept.goodAccount hliquidated hsame hdebit).trans hga
  have hflag₁ : flagged s₁.inventoryBook g.id = true ↔
      flagged s.inventoryBook g.id = true ∨ Events.BotService.calculated P a c.date = true := by
    have hdate : r.date = c.date := hsame.identity.date
    rw [hs₁, ← hag, ← hdate]
    refine (flagged_flagIfNeeded_iff (P := P) (b := (withoutState s r).inventoryBook) haccounts
      ha).trans (or_congr_right (and_iff_right hfound))
  have hrows₁ : s₁.inventoryBook.transactions = withoutCopy r s.inventoryBook.transactions := by
    rw [hs₁]
    exact flagIfNeeded_transactions P _ r
  -- the branches after it only trash and flag more
  have hadjust : (deleteAdjustment P collection s₁ creditAccount t'.transaction).1 = s₁ := by
    rw [deleteAdjustment, not_adjustment_of_purchase htaken, Bool.false_and, if_neg (by simp)]
  obtain ⟨hpurchased, hadjusted, hrest, hsame'⟩ := hdeletes.shrinks (P := P) hids haccounts
  have hshrinks : Shrinks s₁ s' := hadjusted.trans hrest
  refine ⟨fun u hu => ?_, g, a, hdebit, hga, fun hcond => ?_, fun hnosale hnocogs hflag => ?_⟩
  · have hu₁ : u ∈ withoutCopy r s.inventoryBook.transactions := hrows₁ ▸ hshrinks.rows.subset hu
    refine ⟨?_, ?_⟩
    · have hkeep := (List.mem_filter.1 hu₁).2
      simp only [Bool.and_eq_true, bne_iff_ne] at hkeep
      exact hid ▸ hkeep.1
    · exact (splits_withoutCopy_iff hkept hposted.parentId hposted.debitAccount hr hsame).2
        (Or.inl (hposted.purchase hsale hpurchase)) u hu₁
  · obtain ⟨a₁, ha₁, href₁⟩ := mem_accounts_of_refs hpurchased.refs ha
    have hid₁ : a₁.id = g.id := (congrArg AccountRef.id href₁).trans hag
    refine hid₁ ▸ hshrinks.flags a₁ ha₁ ?_
    rw [hid₁, hflag₁]
    exact hcond
  · have hs' : s' = s₁ := (hsame' hnosale hnocogs).trans hadjust
    exact hflag₁.1 (hs' ▸ hflag)

end Purchase

/-- Four of the ten widgets are sold on a day before the purchase. The purchase is deleted, and
    with it the split that was sold: the account is not flagged. -/
theorem purchase_deletion_unnoticed :
    ∃ c, Reached decimalPlatform Sample.books (Sample.purchase "USD") c
        (Sample.calculated "4" []) ∧
      Liquidated (Sample.calculated "4" []).inventoryBook c ∧
      c.debitAccount.map AccountRef.id = some "a-widgets" ∧
      flagged (Sample.deleted (Sample.calculated "4" [])
        (Sample.purchase "USD")).inventoryBook "a-widgets" = false := by
  obtain ⟨c, hc, hreached⟩ := Sample.calculated_reached "4" [] Sample.saleEnv_fresh
    (by decide +kernel) Sample.runEnv_fresh
  obtain ⟨r, hr, hid, -, -, u, hu, hlog, hlink⟩ := Sample.calculated_liquidated
  have hrc : r.id = c.id := hid.trans hc.symm
  refine ⟨c, hreached, ⟨u, hu, hlog, by rwa [hrc] at hlink⟩, ?_, by decide +kernel⟩
  have hdebit : ∀ r ∈ (Sample.calculated "4" []).inventoryBook.transactions, r.id = "i-1" →
      r.debitAccount.map AccountRef.id = some "a-widgets" := by decide +kernel
  rw [← (hreached.kept.of_id hr hrc).identity.debitAccount]
  exact hdebit r hr hid

namespace Sample

/-- A second sale of widgets, on a day after the purchase. -/
def secondSale : Payload :=
  { sale "2" with
    transaction := { (sale "2").transaction with id := "t-5", date := 5, saleInvoice := some "S2" } }

def secondSaleEnv : EventEnv :=
  { now := 8, transactionId := "i-9", goodAccountId := "a-third", otherAccountId := "a-fourth" }

def secondRunEnv : RunEnv :=
  { runEnv with
    uuid := Book.unaryId 'v', inventoryId := Book.unaryId 'm', financialId := Book.unaryId 'g' }

/-- The books after the second sale. -/
def soldTwice : State :=
  { calculated "4" [] with
    inventoryBook := bookAfter (handled secondSaleEnv (calculated "4" []).inventoryBook secondSale) }

/-- The books after the calculation of both sales. -/
def calculatedTwice : State :=
  (CostOfSalesService.calculateCostOfSalesForAccount decimalPlatform books secondRunEnv soldTwice
    "a-widgets" (some 9)).1

theorem calculatedTwice_reached :
    ∃ c, c.id = "i-1" ∧ Reached decimalPlatform books (purchase "USD") c calculatedTwice := by
  obtain ⟨c, hc, hreached⟩ := calculated_reached "4" [] saleEnv_fresh (by decide +kernel)
    runEnv_fresh
  have hfresh : EventFresh secondSaleEnv (calculated "4" []).inventoryBook :=
    ⟨by decide +kernel, by decide, by decide +kernel, by decide +kernel⟩
  obtain ⟨response, hhandled⟩ := eq_bookAfter
    (handled secondSaleEnv (calculated "4" []).inventoryBook secondSale) (by decide +kernel)
  have hrun : secondRunEnv.Fresh soldTwice :=
    ⟨Book.freshIds_unaryId (by decide +kernel), Book.freshIds_unaryId (by decide +kernel),
      Book.freshIds_unaryId (by decide +kernel)⟩
  have h₁ : SystemStep decimalPlatform books (calculated "4" []) soldTwice := .check hfresh hhandled
  have h₂ : SystemStep decimalPlatform books soldTwice calculatedTwice :=
    .calculate (.run secondRunEnv (some 9) hrun)
  exact ⟨c, hc, (hreached.tail h₁).tail h₂⟩

end Sample

/-- The deletion of the same purchase trashes the purchase and its split, and leaves the sale as it
    was calculated. After a sale on a later day was calculated too, it flags the account. -/
theorem purchase_deletion_flags_iff_sample :
    ((∃ u ∈ (Sample.deleted (Sample.calculated "4" [])
        (Sample.purchase "USD")).inventoryBook.transactions, u.id = "i-2" ∧ u.checked = true) ∧
      ∀ u ∈ (Sample.deleted (Sample.calculated "4" [])
        (Sample.purchase "USD")).inventoryBook.transactions,
          u.id ≠ "i-1" ∧ u.parentId ≠ some "i-1") ∧
    ∃ c g, Reached decimalPlatform Sample.books (Sample.purchase "USD") c Sample.calculatedTwice ∧
      c.debitAccount = some g ∧
      flagged (Sample.deleted Sample.calculatedTwice
        (Sample.purchase "USD")).inventoryBook g.id = true := by
  constructor
  · obtain ⟨c, hc, hreached⟩ := Sample.calculated_reached "4" [] Sample.saleEnv_fresh
      (by decide +kernel) Sample.runEnv_fresh
    obtain ⟨r, hr, hid, -, -, u, hu, hlog, hlink⟩ := Sample.calculated_liquidated
    have hrc : r.id = c.id := hid.trans hc.symm
    have htrashed := (purchase_deletion_flags_iff hreached (by decide) (by decide)
      ⟨u, hu, hlog, by rwa [hrc] at hlink⟩ Sample.purchase_deletes (by decide)).1
    rw [hc] at htrashed
    exact ⟨by decide +kernel, htrashed⟩
  · obtain ⟨c, hc, hreached⟩ := Sample.calculatedTwice_reached
    have hsplit : ∃ u ∈ Sample.calculatedTwice.inventoryBook.transactions,
        u.liquidationLog ≠ none ∧ u.parentId = some "i-1" := by decide +kernel
    obtain ⟨u, hu, hlog, hparent⟩ := hsplit
    obtain ⟨-, g, a, hdebit, ha, hflags, -⟩ := purchase_deletion_flags_iff hreached (by decide)
      (by decide) ⟨u, hu, hlog, Or.inr (hc ▸ hparent)⟩ Sample.purchase_deletes (by decide)
    refine ⟨c, g, hreached, hdebit, hflags (Or.inr ?_)⟩
    have hdate : c.date = 3 := hreached.posted.date
    have hcalculated : ∀ r ∈ Sample.calculatedTwice.inventoryBook.transactions, r.id = "i-1" →
        ∀ g ∈ r.debitAccount, ∀ a ∈ Sample.calculatedTwice.inventoryBook.getAccount g.id,
          Events.BotService.calculated decimalPlatform a 3 = true := by decide +kernel
    obtain ⟨r, hr, hsame⟩ := hreached.kept.row
    rw [hdate]
    exact hcalculated r hr (hsame.identity.id.trans hc) g
      (hsame.identity.debitAccount.trans hdebit) a ha

/-! ## Is the deletion of an additional cost or a credit note noticed? -/

section Adjustment

variable {P : Platform} {collection : Option (List BookInfo)} {s : State} {event : Event}
  {t : Payload} {creditAccount : Account} {id : String}

/-- The first transaction that is listed for the account around a date with a purchase code is not
    as it was posted: its `original_quantity`, or zero, is not its amount. -/
def FirstListedProcessed (P : Platform) (b : Book) (a : Account) (date : Date)
    (purchaseCode : Option String) : Prop :=
  ∃ u, (b.getTransactions (getAccountQuery P a.name date)).find?
      (·.purchaseCode == purchaseCode) = some u ∧
    P.toNumber (u.originalQuantity.getD 0) ≠ P.toNumber u.amount

theorem adjustedAccount_eq_some {b : Book} {a : Account} {tx : Transaction} :
    adjustedAccount P b creditAccount tx = some a ↔ b.getAccount creditAccount.name = some a ∧
      FirstListedProcessed P b a tx.date tx.purchaseCode := by
  unfold adjustedAccount FirstListedProcessed
  rw [Option.filter_eq_some_iff, Option.any_eq_true]
  simp only [isProcessed, bne_iff_ne]

/-- The deletion is taken for that of a purchase, and the inventory transaction that is trashed has
    a calculated date in the account. -/
def TakenForPurchase (P : Platform) (b : Book) (a : Account) (tx : Transaction) : Prop :=
  isPurchaseTransaction tx = true ∧ ∃ r, FirstCopy tx.id b r ∧
    Events.BotService.getGoodAccount b r = some a ∧
      Events.BotService.calculated P a r.date = true

/-- The deletion is taken for that of an additional cost or a credit note, the account is found
    under the name of the account that the transaction credits, and the first transaction that is
    listed for it with the purchase code is not as it was posted. -/
def TakenForAdjustment (P : Platform) (b : Book) (creditAccount a : Account) (tx : Transaction) :
    Prop :=
  isAdjustmentTransaction tx = true ∧ b.getAccount creditAccount.name = some a ∧
    FirstListedProcessed P b a tx.date tx.purchaseCode

/-- The branch of a purchase flags the account of the transaction that it trashes. -/
theorem flagged_deletePurchase_iff (hs : Complete s.inventoryBook)
    (hdeletes : Deletes collection event t creditAccount id) {a : Account}
    (ha : a ∈ s.inventoryBook.accounts) :
    flagged (deletePurchase P collection s t.transaction).1.inventoryBook a.id = true ↔
      flagged s.inventoryBook a.id = true ∨ TakenForPurchase P s.inventoryBook a t.transaction := by
  unfold deletePurchase TakenForPurchase
  split
  · rename_i htaken
    rw [and_iff_right htaken]
    cases hr : s.inventoryBook.transactions.find? (·.remoteIds.contains t.transaction.id) with
    | none => rw [deleteAndFlag_none hr, or_iff_left (not_exists_firstCopy hr)]
    | some r =>
      rw [deleteAndFlag_some P hs.ids hdeletes.collection (hdeletes.sameId ▸ hdeletes.nonempty) hr,
        exists_firstCopy_iff hr]
      exact flagged_flagIfNeeded_iff (b := (withoutState s r).inventoryBook) hs.accountIds ha
  · rename_i hnot
    exact (or_iff_left fun h => hnot h.1).symm

/-- The branch of an additional cost flags the account that it finds. -/
theorem flagged_deleteAdjustment_iff
    (haccounts : ((accountRefs s.inventoryBook).map AccountRef.id).Nodup)
    (hcollection : Events.BotService.getInventoryBook collection ≠ none) {tx : Transaction}
    {a : Account} (ha : a ∈ s.inventoryBook.accounts) :
    flagged (deleteAdjustment P collection s creditAccount tx).1.inventoryBook a.id = true ↔
      flagged s.inventoryBook a.id = true ∨
        TakenForAdjustment P s.inventoryBook creditAccount a tx := by
  unfold deleteAdjustment TakenForAdjustment
  rw [Option.isSome_iff_ne_none.2 hcollection, Bool.and_true]
  split
  · rename_i htaken
    rw [and_iff_right htaken, ← adjustedAccount_eq_some]
    cases hfound : adjustedAccount P s.inventoryBook creditAccount tx with
    | none => simp
    | some g =>
      have hg := Book.mem_of_getAccount (adjustedAccount_eq_some.1 hfound).1
      rw [Option.some.injEq]
      exact flagged_setNeedsRebuild_iff haccounts hg ha
  · rename_i hnot
    exact (or_iff_left fun h => hnot h.1).symm

/-- **Deleting an additional cost or a credit note.** In every state with a complete inventory book
    and for each of its accounts: the account is flagged after the deletion of a transaction if it
    was before, if the deletion is taken for that of an additional cost or a credit note and finds
    the account and a processed transaction with the purchase code first, or if it is taken for
    that of a purchase of the account with a calculated date; and only then, unless the deletion is
    also taken for that of a sale or of a cost of sales. -/
theorem adjustment_deletion_flags_iff (hs : Complete s.inventoryBook)
    (hdeletes : Deletes collection event t creditAccount id) {a : Account}
    (ha : a ∈ s.inventoryBook.accounts) :
    let s' := (EventHandlerTransactionDeleted.intercept P collection s event).1
    let noticed := flagged s.inventoryBook a.id = true ∨
      TakenForAdjustment P s.inventoryBook creditAccount a t.transaction ∨
        TakenForPurchase P s.inventoryBook a t.transaction
    (noticed → flagged s'.inventoryBook a.id = true) ∧
      (isSaleTransaction t = false → isCOGSTransaction t.transaction = false →
        flagged s'.inventoryBook a.id = true → noticed) := by
  intro s' noticed
  obtain ⟨h₁, h₂, h₃, hsame⟩ := hdeletes.shrinks (P := P) hs.ids hs.accountIds
  let s₂ := (deleteAdjustment P collection (deletePurchase P collection s t.transaction).1
    creditAccount t.transaction).1
  -- a transaction is not taken for both, so one of the two branches finds the books as they were
  have hflag₂ : flagged s₂.inventoryBook a.id = true ↔ noticed := by
    by_cases hpurchase : isPurchaseTransaction t.transaction = true
    · have hnot : isAdjustmentTransaction t.transaction = false :=
        not_adjustment_of_purchase hpurchase
      have hs₂ : s₂ = (deletePurchase P collection s t.transaction).1 := by
        show (deleteAdjustment P collection _ creditAccount t.transaction).1 = _
        rw [deleteAdjustment, hnot, Bool.false_and, if_neg (by simp)]
      rw [hs₂]
      refine (flagged_deletePurchase_iff hs hdeletes ha).trans (or_congr_right ?_)
      exact (or_iff_right fun h => absurd h.1 (by simp [hnot])).symm
    · have hs₂ : s₂ = (deleteAdjustment P collection s creditAccount t.transaction).1 := by
        show (deleteAdjustment P collection (deletePurchase P collection s t.transaction).1
          creditAccount t.transaction).1 = _
        rw [deletePurchase, if_neg hpurchase]
      rw [hs₂]
      refine (flagged_deleteAdjustment_iff hs.accountIds hdeletes.collection ha).trans
        (or_congr_right ?_)
      exact (or_iff_left fun h => hpurchase h.1).symm
  refine ⟨fun hnoticed => ?_, fun hnosale hnocogs hflag => ?_⟩
  · obtain ⟨a₂, ha₂, href₂⟩ := mem_accounts_of_refs (h₂.refs.trans h₁.refs) ha
    have hid₂ : a₂.id = a.id := congrArg AccountRef.id href₂
    exact hid₂ ▸ h₃.flags a₂ ha₂ (hid₂ ▸ hflag₂.2 hnoticed)
  · have hs' : s' = s₂ := hsame hnosale hnocogs
    exact hflag₂.1 (hs' ▸ hflag)

end Adjustment

namespace Sample

def bank : Account := { id := "f-bank", name := "Bank", type := .asset }

/-- Freight for the purchase, an additional cost. -/
def freight : Payload where
  transaction :=
    { id := "t-3", checked := true, date := 3, amount := 20, creditAccount := some bank.ref
      debitAccount := some (widgets "USD").ref, purchaseInvoice := some "F1"
      purchaseCode := some "P1" }
  creditAccount := some bank
  debitAccount := some (widgets "USD")

/-- A credit note for the price of the purchase. -/
def rebate : Payload where
  transaction :=
    { id := "t-4", checked := true, date := 4, amount := 5
      creditAccount := some (widgets "USD").ref, debitAccount := some supplier.ref
      creditNote := some "N1", purchaseCode := some "P1" }
  creditAccount := some (widgets "USD")
  debitAccount := some supplier

end Sample

/-- The freight of a purchase that is liquidated in part, and the rebate on a purchase that one
    sale has liquidated in full, were counted into its cost. They are deleted, and the account is
    not flagged. -/
theorem adjustment_deletion_unnoticed :
    (∃ c, Reached decimalPlatform Sample.books (Sample.purchase "USD") c
        (Sample.calculated "4" [Sample.freight.transaction]) ∧
      (∃ r ∈ (Sample.calculated "4" [Sample.freight.transaction]).inventoryBook.transactions,
        r.id = c.id ∧ r.additionalCosts = some 20) ∧
      flagged (Sample.deleted (Sample.calculated "4" [Sample.freight.transaction])
        Sample.freight).inventoryBook "a-widgets" = false) ∧
    ∃ c, Reached decimalPlatform Sample.books (Sample.purchase "USD") c
        (Sample.calculated "10" [Sample.rebate.transaction]) ∧
      (∃ r ∈ (Sample.calculated "10" [Sample.rebate.transaction]).inventoryBook.transactions,
        r.id = c.id ∧ r.totalCost = some 95) ∧
      flagged (Sample.deleted (Sample.calculated "10" [Sample.rebate.transaction])
        Sample.rebate).inventoryBook "a-widgets" = false := by
  constructor
  · obtain ⟨c, hc, hreached⟩ := Sample.calculated_reached "4" [Sample.freight.transaction]
      Sample.saleEnv_fresh (by decide +kernel)
      ⟨Book.freshIds_unaryId (by decide +kernel), Book.freshIds_unaryId (by decide +kernel),
        Book.freshIds_unaryId (by decide +kernel)⟩
    refine ⟨c, hreached, ?_, by decide +kernel⟩
    rw [hc]
    decide +kernel
  · obtain ⟨c, hc, hreached⟩ := Sample.calculated_reached "10" [Sample.rebate.transaction]
      Sample.saleEnv_fresh (by decide +kernel)
      ⟨Book.freshIds_unaryId (by decide +kernel), Book.freshIds_unaryId (by decide +kernel),
        Book.freshIds_unaryId (by decide +kernel)⟩
    refine ⟨c, hreached, ?_, by decide +kernel⟩
    rw [hc]
    decide +kernel

/-- The rebate on a purchase that is liquidated in part is noticed when it is deleted. -/
theorem adjustment_deletion_flags_iff_sample :
    ∃ a, (Sample.calculated "4" [Sample.rebate.transaction]).inventoryBook.getAccount "Widgets" =
        some a ∧
      flagged (Sample.deleted (Sample.calculated "4" [Sample.rebate.transaction])
        Sample.rebate).inventoryBook a.id = true := by
  obtain ⟨c, -, hreached⟩ := Sample.calculated_reached "4" [Sample.rebate.transaction]
    Sample.saleEnv_fresh (by decide +kernel)
    ⟨Book.freshIds_unaryId (by decide +kernel), Book.freshIds_unaryId (by decide +kernel),
      Book.freshIds_unaryId (by decide +kernel)⟩
  have hdeletes : Deletes Sample.books (Sample.deletion Sample.rebate) Sample.rebate
      (Sample.widgets "USD") "t-4" :=
    ⟨by decide +kernel, by decide, rfl, rfl, rfl, by decide, rfl, by simp [Sample.rebate]⟩
  have hnoticed : (adjustedAccount decimalPlatform
      (Sample.calculated "4" [Sample.rebate.transaction]).inventoryBook (Sample.widgets "USD")
      Sample.rebate.transaction).isSome = true := by decide +kernel
  obtain ⟨a, hadjusted⟩ := Option.isSome_iff_exists.1 hnoticed
  have hfound := adjustedAccount_eq_some.1 hadjusted
  exact ⟨a, hfound.1, (adjustment_deletion_flags_iff hreached.kept.complete hdeletes
    (Book.mem_of_getAccount hfound.1)).1 (Or.inr (Or.inl ⟨by decide, hfound⟩))⟩

end InventoryBot.System
