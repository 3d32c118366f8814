import InventoryBot.Menu.Runs

/-!
# Complete books

A book is complete if its accounts have different ids and names and every transaction shows two
of them. The menu and the webhook keep the inventory book complete, so the assumptions under
which a calculation is understood (`WellFormed`) hold along every history.

* `Complete.wellFormed`: a complete book is well formed.
* `accountRefs_updateAccount`: updating an account changes none of the ids, names and types.
* `calculate_complete`, `reset_complete`: a calculation and a reset keep the book complete.
-/

namespace InventoryBot.System

open Lib Menu CostOfSalesService

/-- The accounts of a book as its transactions show them. -/
def accountRefs (b : Book) : List AccountRef := b.accounts.map Account.ref

/-- The ids of the transactions and the ids and names of the accounts differ, and every
    transaction shows accounts of the book. -/
structure Complete (b : Book) : Prop where
  ids : (b.transactions.map Transaction.id).Nodup
  accountIds : ((accountRefs b).map AccountRef.id).Nodup
  accountNames : ((accountRefs b).map AccountRef.name).Nodup
  refs : ∀ t ∈ b.transactions, ∀ r ∈ t.refs, r ∈ accountRefs b

theorem Complete.wellFormed {b : Book} (h : Complete b) : WellFormed b where
  ids := h.ids
  refs := by
    intro t ht r hr a ha hname
    have hra : r = a.ref := List.inj_on_of_nodup_map h.accountNames (h.refs t ht r hr)
      (List.mem_map_of_mem ha) hname
    rw [hra]
    rfl

/-- A book with the accounts and the ids of a complete one, whose transactions show accounts that
    were shown before, is complete. -/
theorem Complete.of_refs {b b' : Book} (h : Complete b) (haccounts : accountRefs b' = accountRefs b)
    (hids : (b'.transactions.map Transaction.id).Nodup)
    (hrefs : ∀ t ∈ b'.transactions, ∃ u ∈ b.transactions, t.creditAccount = u.creditAccount ∧
      t.debitAccount = u.debitAccount) : Complete b' := by
  refine ⟨hids, haccounts ▸ h.accountIds, haccounts ▸ h.accountNames, ?_⟩
  intro t ht r hr
  obtain ⟨u, hu, hcredit, hdebit⟩ := hrefs t ht
  rw [Transaction.refs, hcredit, hdebit] at hr
  rw [haccounts]
  exact h.refs u hu r hr

/-! ## Accounts -/

/-- Updating an account of the book changes no id, name or type. -/
theorem accountRefs_updateAccount {b : Book} {a : Account}
    (hids : ((accountRefs b).map AccountRef.id).Nodup) (ha : a.ref ∈ accountRefs b) :
    accountRefs (b.updateAccount a) = accountRefs b := by
  unfold accountRefs Book.updateAccount at *
  rw [List.map_map]
  refine List.map_congr_left fun x hx => ?_
  by_cases hid : x.id = a.id
  · rw [Function.comp_apply, if_pos hid]
    exact (List.inj_on_of_nodup_map hids (List.mem_map_of_mem hx) ha hid).symm
  · rw [Function.comp_apply, if_neg hid]

/-- Updating an account leaves the accounts with other ids. -/
theorem mem_updateAccount_iff {b : Book} {a x : Account} (h : x.id ≠ a.id) :
    x ∈ (b.updateAccount a).accounts ↔ x ∈ b.accounts := by
  unfold Book.updateAccount
  rw [List.mem_map]
  constructor
  · rintro ⟨y, hy, rfl⟩
    split at h
    · exact absurd rfl h
    · rename_i hne
      rwa [if_neg hne]
  · intro hx
    exact ⟨x, hx, if_neg h⟩

theorem ref_mem_of_getAccount {b : Book} {key : String} {a : Account}
    (h : b.getAccount key = some a) : a.ref ∈ accountRefs b :=
  List.mem_map_of_mem (Book.mem_of_getAccount h)

/-- An account that is not found has no account with its name. -/
theorem name_notMem_of_getAccount {b : Book} {name : String} (h : b.getAccount name = none) :
    name ∉ (accountRefs b).map AccountRef.name := by
  intro hmem
  obtain ⟨r, hr, hname⟩ := List.mem_map.1 hmem
  obtain ⟨a, ha, rfl⟩ := List.mem_map.1 hr
  unfold Book.getAccount at h
  cases hfind : b.accounts.find? (·.id == name) with
  | some x =>
    rw [hfind] at h
    cases h
  | none =>
    rw [hfind] at h
    have hnone : b.accounts.find? (·.name == name) = none := h
    exact List.find?_eq_none.1 hnone a ha (beq_iff_eq.2 hname)

theorem nodup_accountIds {b : Book} (h : ((accountRefs b).map AccountRef.id).Nodup) :
    (b.accounts.map Account.id).Nodup := by
  simpa [accountRefs, Function.comp_def, Account.ref] using h

theorem eq_of_id {b : Book} (h : ((accountRefs b).map AccountRef.id).Nodup) {x y : Account}
    (hx : x ∈ b.accounts) (hy : y ∈ b.accounts) (hid : x.id = y.id) : x = y :=
  List.inj_on_of_nodup_map (nodup_accountIds h) hx hy hid

/-- The account with an id is the only one that the id finds. -/
theorem getAccount_id {b : Book} (h : ((accountRefs b).map AccountRef.id).Nodup) {a : Account}
    (ha : a ∈ b.accounts) : b.getAccount a.id = some a := by
  unfold Book.getAccount
  rw [find?_key (nodup_accountIds h) ha rfl]
  rfl

/-- The transaction with an id is the only one that the id finds. -/
theorem getTransactions_id {b : Book} (hids : (b.transactions.map Transaction.id).Nodup)
    {t : Transaction} (ht : t ∈ b.transactions) :
    (b.getTransactions (.id t.id)).head? = some t := by
  rw [Book.getTransactions, List.head?_filter]
  exact find?_key hids ht rfl

/-! ## Runs of the menu -/

theorem accountRefs_storeLastCalcTxDate {P : Platform} {b : Book} {a : Account}
    (hids : ((accountRefs b).map AccountRef.id).Nodup) (ha : a ∈ b.accounts)
    (sales : List Transaction) : accountRefs (storeLastCalcTxDate P b a sales) = accountRefs b := by
  have hstored : ∀ date, accountRefs (b.updateAccount (GoodAccount.setCOGSCalculationDate a date)) =
      accountRefs b := fun date =>
    accountRefs_updateAccount hids (show a.ref ∈ accountRefs b from List.mem_map_of_mem ha)
  unfold storeLastCalcTxDate
  split
  · rfl
  · split
    · exact hstored _
    · rfl
    · split
      · exact hstored _
      · rfl

section Runs

variable {P : Platform} {collection : Option (List BookInfo)} {env : RunEnv} {s : State}
  {goodAccountId : String}

theorem accountRefs_reset (hs : Complete s.inventoryBook) :
    accountRefs (resetCostOfSalesForAccount P collection s goodAccountId).1.inventoryBook =
      accountRefs s.inventoryBook := by
  unfold resetCostOfSalesForAccount
  cases hplan : planReset P collection s goodAccountId with
  | error e => rfl
  | ok plan =>
    cases plan with
    | stop summary => rfl
    | fire goodAccount processor =>
      have ha := Book.mem_of_getAccount (planReset_fire hplan).account
      exact accountRefs_updateAccount (b := (processor.fireBatchOperations 3 s).inventoryBook)
        hs.accountIds (show goodAccount.ref ∈ accountRefs s.inventoryBook from List.mem_map_of_mem ha)

theorem accountRefs_calculate (hs : Complete s.inventoryBook) (toDate : Option Date) :
    accountRefs (calculateCostOfSalesForAccount P collection env s goodAccountId
      toDate).1.inventoryBook = accountRefs s.inventoryBook := by
  rcases calculate_cases P collection env s goodAccountId toDate with
    hsame | hsame | ⟨-, hreset⟩ | ⟨goodAccount, sales, processor, hplan, hresult⟩
  · rw [hsame]
  · rw [hsame]
    rfl
  · rw [hreset]
    exact accountRefs_reset hs
  · rw [hresult]
    obtain ⟨hpassed, -⟩ := planCalculation_fire hplan
    exact accountRefs_storeLastCalcTxDate
      (b := (processor.fireBatchOperations env 3 s).inventoryBook) hs.accountIds
      (Book.mem_of_getAccount hpassed.account) sales

/-- A reset keeps the book complete. -/
theorem reset_complete (hs : Complete s.inventoryBook) :
    Complete (resetCostOfSalesForAccount P collection s goodAccountId).1.inventoryBook := by
  have hrefs : accountRefs (resetCostOfSalesForAccount P collection s goodAccountId).1.inventoryBook =
      accountRefs s.inventoryBook := accountRefs_reset hs
  rcases reset_cases (P := P) collection goodAccountId hs.ids with
    ⟨hsame, -⟩ | ⟨-, goodAccount, hdone⟩
  · rwa [hsame]
  · refine hs.of_refs hrefs (hs.ids.sublist hdone.ids) fun t' ht' => ?_
    obtain ⟨t, ht, -, rfl⟩ := hdone.mem ht'
    have hrow := resetRow_sameIdentity P goodAccount.name t
    exact ⟨t, ht, hrow.creditAccount, hrow.debitAccount⟩

/-- A calculation keeps the book complete. -/
theorem calculate_complete (hs : Complete s.inventoryBook) (hfresh : env.Fresh s)
    (toDate : Option Date) :
    Complete (calculateCostOfSalesForAccount P collection env s goodAccountId
      toDate).1.inventoryBook := by
  have hrefs : accountRefs (calculateCostOfSalesForAccount P collection env s goodAccountId
      toDate).1.inventoryBook = accountRefs s.inventoryBook := accountRefs_calculate hs toDate
  rcases calculate_cases P collection env s goodAccountId toDate with
    hsame | hsame | ⟨-, hreset⟩ | ⟨goodAccount, sales, processor, hplan, -⟩
  · rwa [hsame]
  · rw [hsame]
    exact hs
  · rw [hreset]
    exact reset_complete hs
  · obtain ⟨d, hfires⟩ := calculation_fires (fun _ => True) hs.wellFormed hfresh hplan
      fun _ _ _ => Or.inl fun _ => trivial
    refine hs.of_refs hrefs (hfires.wellFormed hs.wellFormed hfresh).ids fun t' ht' => ?_
    rcases hfires.mem_cases ht' with ⟨-, t, ht, htrace⟩ | ⟨k, u, hu, rfl, p, hp, hsplit, -⟩
    · have hsame := sameIdentity_of_trace htrace
      exact ⟨t, ht, hsame.creditAccount, hsame.debitAccount⟩
    · exact ⟨p, hp, hsplit.creditAccount, hsplit.debitAccount⟩

end Runs

end InventoryBot.System
