import InventoryBot.Menu.Bot
import InventoryBot.System.Books

/-!
# The scope of calculation and reset

A calculation goes over the accounts that its context selects. A reset takes the same context, but
goes over all asset accounts of the inventory book, whatever the context is.

* `resetCostOfSales_frame`: a reset leaves alone what does not belong to an account that it goes
  over, whichever calls succeed.
* `forAccounts_reset_readable`, `forAccounts_reset_returns`: the loop of a reset comes to its end
  if every purchase that it meets has a cost to go back to.
* `resetCostOfSales_scope`: when a reset resets the accounts of the calculation, each once, and
  leaves the others alone.
-/

namespace InventoryBot.System

open Lib Menu CostOfSalesService Bot

/-- The name and id under which a loop goes over an account. -/
def nameAndId (a : Account) : String × String := (a.name, a.id)

/-- The names and ids of the accounts that a calculation goes over. -/
def calculatedAccounts (collection : Option (List BookInfo)) (contextParams : ContextParams)
    (w : Books) : List (String × String) :=
  match getAccountsToCalculate collection contextParams w with
  | .ok accountsToCalculate => accountsToCalculate
  | .error _ => []

/-- The accounts were reset one after the other, each on the books that the reset before it has
    left. Every call has returned a summary, and the results list these. -/
inductive ResetsEach (P : Platform) (collection : Option (List BookInfo)) :
    List (String × String) → Books → Books → List (String × String) → Prop
  | nil {w : Books} : ResetsEach P collection [] w w []
  | cons {accountName accountId : String} {accounts results : List (String × String)}
      {w w₁ w' : Books} {summary : Summary} :
      w.onAccount collection (resetCostOfSalesForAccount P collection) accountId =
        (w₁, .returned summary) →
      ResetsEach P collection accounts w₁ w' results →
      ResetsEach P collection ((accountName, accountId) :: accounts) w w'
        ((accountName, summary.getResult) :: results)

/-- The transaction moves none of the accounts. -/
def MovesNone (w : Books) (ids : List String) (t : Transaction) : Prop :=
  ∀ r ∈ accountRefs w.inventoryBook, r.id ∈ ids → t.moves r.name = false

/-- Accounts other than those of `ids` are as they were, and so are the inventory transactions that
    move none of these, and the financial transactions that are linked to none that does. -/
structure LeavesOthers (ids : List String) (w w' : Books) : Prop where
  accounts : ∀ a, a.id ∉ ids → (a ∈ w'.inventoryBook.accounts ↔ a ∈ w.inventoryBook.accounts)
  transactions : ∀ t, MovesNone w ids t →
    (t ∈ w'.inventoryBook.transactions ↔ t ∈ w.inventoryBook.transactions)
  cogs : ∀ id t, (∀ row ∈ w.inventoryBook.transactions, ¬MovesNone w ids row →
    row.id ∉ t.remoteIds) → (t ∈ (w'.financialBook id).transactions ↔
      t ∈ (w.financialBook id).transactions)

/-- What a reset makes of the books, and its results, are those of resets of the accounts that a
    calculation would go over for the context, each of them once, and nothing else has changed.
    Without an inventory book, where a calculation throws too, the reset throws. -/
structure SameScope (P : Platform) (collection : Option (List BookInfo))
    (contextParams : ContextParams) (w : Books)
    (reset : Books × Except Thrown (List (String × String))) : Prop where
  resets : ∃ accounts results, accounts.Perm (calculatedAccounts collection contextParams w) ∧
    ResetsEach P collection accounts w reset.1 results ∧
    (reset.2 = .ok results ∨
      BotService.getInventoryBook collection = none ∧ reset.2 = .error inventoryBookNotFound)
  others : LeavesOthers ((calculatedAccounts collection contextParams w).map Prod.snd) w reset.1

/-- The books are those of the platform: the inventory book is complete, and the ids of the
    transactions of a financial book differ. -/
structure ValidBooks (w : Books) : Prop where
  inventory : Complete w.inventoryBook
  financial : ∀ id, ((w.financialBook id).transactions.map Transaction.id).Nodup

theorem LeavesOthers.congr {ids ids' : List String} {w w' : Books} (h : LeavesOthers ids w w')
    (hids : ∀ id, id ∈ ids ↔ id ∈ ids') : LeavesOthers ids' w w' := by
  have hmoves : ∀ t, MovesNone w ids t ↔ MovesNone w ids' t := by
    intro t
    unfold MovesNone
    simp only [hids]
  refine ⟨fun a ha => h.accounts a (mt (hids a.id).1 ha),
    fun t ht => h.transactions t ((hmoves t).2 ht),
    fun id t ht => h.cogs id t fun row hrow hn => ht row hrow (mt (hmoves row).2 hn)⟩

/-! ## What resets leave alone -/

/-- What resets of accounts of `ids` do to the books. -/
structure ResetsOnly (ids : List String) (w w' : Books) : Prop where
  valid : ValidBooks w'
  refs : accountRefs w'.inventoryBook = accountRefs w.inventoryBook
  rows : ∀ t' ∈ w'.inventoryBook.transactions, ∃ t ∈ w.inventoryBook.transactions, SameIdentity t t'
  others : LeavesOthers ids w w'

section Frame

variable {P : Platform} {collection : Option (List BookInfo)} {ids : List String} {w w' w'' : Books}

theorem ResetsOnly.refl (h : ValidBooks w) : ResetsOnly ids w w :=
  ⟨h, rfl, fun t ht => ⟨t, ht, .refl t⟩, fun _ _ => Iff.rfl, fun _ _ => Iff.rfl, fun _ _ _ => Iff.rfl⟩

theorem movesNone_congr (hrefs : accountRefs w'.inventoryBook = accountRefs w.inventoryBook)
    {t t' : Transaction} (h : SameIdentity t t') : MovesNone w' ids t' ↔ MovesNone w ids t := by
  unfold MovesNone
  rw [hrefs]
  refine forall₃_congr fun r _ _ => ?_
  rw [h.moves]

theorem ResetsOnly.trans (h : ResetsOnly ids w w') (h' : ResetsOnly ids w' w'') :
    ResetsOnly ids w w'' := by
  refine ⟨h'.valid, h'.refs.trans h.refs, ?_, ?_, ?_, ?_⟩
  · intro t'' ht''
    obtain ⟨t', ht', hsame'⟩ := h'.rows t'' ht''
    obtain ⟨t, ht, hsame⟩ := h.rows t' ht'
    exact ⟨t, ht, hsame.trans hsame'⟩
  · exact fun a ha => (h'.others.accounts a ha).trans (h.others.accounts a ha)
  · intro t ht
    have ht' : MovesNone w' ids t := (movesNone_congr h.refs (.refl t)).2 ht
    exact (h'.others.transactions t ht').trans (h.others.transactions t ht)
  · intro id t ht
    refine (h'.others.cogs id t fun row' hrow' hmoves => ?_).trans (h.others.cogs id t ht)
    -- the transaction was in the first books too, under its id and between its accounts
    obtain ⟨row, hrow, hsame⟩ := h.rows row' hrow'
    rw [hsame.id]
    exact ht row hrow fun hnone => hmoves ((movesNone_congr h.refs hsame).2 hnone)

/-- What the loop of a reset queues for trashing in the financial book is linked to a listed
    transaction. -/
theorem foldlM_resetTransaction_linked {fb : Book} {l : List Transaction}
    {processor processor' : ResetCostOfSalesProcessor}
    (h : l.foldlM (resetTransaction P fb) processor = .ok processor') {k : String}
    (hk : k ∈ processor'.financialBookTransactionsToTrashMap.keys) :
    k ∈ processor.financialBookTransactionsToTrashMap.keys ∨
      ∃ row ∈ l, ∃ c ∈ fb.transactions, c.id = k ∧ row.id ∈ c.remoteIds := by
  induction l generalizing processor with
  | nil =>
    cases h
    exact Or.inl hk
  | cons tx l ih =>
    rw [List.foldlM_cons] at h
    obtain ⟨processor₁, htx, h⟩ := bind_eq_ok.1 h
    rcases ih h with hold | ⟨row, hrow, hlinked⟩
    · rw [(resetTransaction_queues htx).2.2] at hold
      rcases mem_keys_enqueue.1 hold with ⟨c, hc, rfl⟩ | hold
      · refine Or.inr ⟨tx, List.mem_cons_self, ?_⟩
        unfold resetCogs at hc
        split at hc
        · obtain ⟨c₀, hc₀, rfl⟩ := Option.map_eq_some_iff.1 hc
          obtain ⟨hmem, hselects⟩ := List.mem_filter.1 (List.mem_of_head? hc₀)
          exact ⟨c₀, hmem, rfl, by simpa [Query.selects] using hselects⟩
        · cases hc
      · exact Or.inl hold
    · exact Or.inr ⟨row, List.mem_cons_of_mem tx hrow, hlinked⟩

/-! ### One reset -/

section Reset

variable {P : Platform} {collection : Option (List BookInfo)} {s s' : State} {r : AccountRef}
  {goodAccount : Account}

/-- A reset updates no account but its own. -/
theorem mem_accounts_reset (hs : Complete s.inventoryBook) (hr : r ∈ accountRefs s.inventoryBook)
    {x : Account} (hx : x.id ≠ r.id) :
    x ∈ (resetCostOfSalesForAccount P collection s r.id).1.inventoryBook.accounts ↔
      x ∈ s.inventoryBook.accounts := by
  unfold resetCostOfSalesForAccount
  cases hplan : planReset P collection s r.id with
  | error e => exact Iff.rfl
  | ok plan =>
    cases plan with
    | stop summary => exact Iff.rfl
    | fire goodAccount processor =>
      have hown : goodAccount.id = r.id := by
        obtain ⟨a, ha, rfl⟩ := List.mem_map.1 hr
        have hfound := getAccount_id hs.accountIds ha
        exact congrArg Account.id
          (Option.some.inj ((planReset_fire hplan).account.symm.trans hfound))
      refine mem_updateAccount_iff (b := (processor.fireBatchOperations 3 s).inventoryBook) ?_
      show x.id ≠ goodAccount.id
      rwa [hown]

/-- A reset leaves the inventory transactions that do not move its account. -/
theorem mem_transactions_reset (h : ResetDone P s r.id goodAccount s') {t : Transaction}
    (ht : t.moves goodAccount.name = false) :
    t ∈ s'.inventoryBook.transactions ↔ t ∈ s.inventoryBook.transactions := by
  have hrow : resetRow P goodAccount.name t = t := by simp [resetRow, ht]
  constructor
  · intro hmem
    obtain ⟨u, hu, -, rfl⟩ := h.mem hmem
    have humoves : u.moves goodAccount.name = false := by
      rwa [(resetRow_sameIdentity P goodAccount.name u).moves] at ht
    have hurow : resetRow P goodAccount.name u = u := by simp [resetRow, humoves]
    rwa [hurow]
  · intro hmem
    rw [h.inventory, List.mem_map]
    exact ⟨t, List.mem_filter.2 ⟨hmem, by simp [ht]⟩, hrow⟩

/-- A reset leaves the financial transactions that are linked to none of its account. -/
theorem mem_financial_reset (h : ResetDone P s r.id goodAccount s')
    (hids : (s.financialBook.transactions.map Transaction.id).Nodup) {t : Transaction}
    (ht : ∀ row ∈ s.inventoryBook.transactions, row.moves goodAccount.name →
      row.id ∉ t.remoteIds) :
    t ∈ s'.financialBook.transactions ↔ t ∈ s.financialBook.transactions := by
  obtain ⟨processor, hloop, hfinancial⟩ := h.loop
  obtain ⟨-, -, hkeyed⟩ := foldlM_resetTransaction_keyed hloop Book.keyedById_empty
    Book.keyedById_empty Book.keyedById_empty
  rw [hfinancial, Book.batchTrashTransactions, List.mem_filter]
  refine and_iff_left_of_imp fun hmem => ?_
  rw [Bool.not_eq_true', ← Bool.not_eq_true, Book.any_id_values hkeyed]
  intro hkey
  rcases foldlM_resetTransaction_linked hloop hkey with hnew | ⟨row, hrow, c, hc, hid, hlinked⟩
  · exact absurd hnew List.not_mem_nil
  · obtain rfl : c = t := List.inj_on_of_nodup_map hids hc hmem hid
    obtain ⟨hrow, hmoves⟩ := List.mem_filter.1 hrow
    exact ht row hrow hmoves hlinked

/-- The account with the id of one of the book has its name. -/
theorem name_of_getAccount (hs : Complete s.inventoryBook) (hr : r ∈ accountRefs s.inventoryBook)
    (h : s.inventoryBook.getAccount r.id = some goodAccount) : goodAccount.ref = r := by
  obtain ⟨a, ha, rfl⟩ := List.mem_map.1 hr
  have hfound : s.inventoryBook.getAccount a.id = some a := getAccount_id hs.accountIds ha
  exact congrArg Account.ref (Option.some.inj (h.symm.trans hfound))

/-- What a reset of an account leaves alone. -/
structure ResetFrame (r : AccountRef) (s s' : State) : Prop where
  rows : ∀ t' ∈ s'.inventoryBook.transactions, ∃ t ∈ s.inventoryBook.transactions,
    SameIdentity t t'
  transactions : ∀ t, t.moves r.name = false →
    (t ∈ s'.inventoryBook.transactions ↔ t ∈ s.inventoryBook.transactions)
  cogs : ∀ t, (∀ row ∈ s.inventoryBook.transactions, row.moves r.name → row.id ∉ t.remoteIds) →
    (t ∈ s'.financialBook.transactions ↔ t ∈ s.financialBook.transactions)
  financialIds : (s'.financialBook.transactions.map Transaction.id).Nodup

theorem reset_frame (hs : Complete s.inventoryBook)
    (hids : (s.financialBook.transactions.map Transaction.id).Nodup)
    (hr : r ∈ accountRefs s.inventoryBook) :
    ResetFrame r s (resetCostOfSalesForAccount P collection s r.id).1 := by
  rcases reset_cases (P := P) collection r.id hs.ids with
    ⟨hsame, -⟩ | ⟨-, goodAccount, hdone⟩
  · rw [hsame]
    exact ⟨fun t ht => ⟨t, ht, .refl t⟩, fun _ _ => Iff.rfl, fun _ _ => Iff.rfl, hids⟩
  · have hname : goodAccount.name = r.name :=
      congrArg AccountRef.name (name_of_getAccount hs hr hdone.account)
    refine ⟨?_, ?_, ?_, ?_⟩
    · intro t' ht'
      obtain ⟨t, ht, -, rfl⟩ := hdone.mem ht'
      exact ⟨t, ht, resetRow_sameIdentity P goodAccount.name t⟩
    · intro t ht
      exact mem_transactions_reset hdone (hname ▸ ht)
    · intro t ht
      exact mem_financial_reset hdone hids (hname ▸ ht)
    · obtain ⟨processor, -, hfinancial⟩ := hdone.loop
      rw [hfinancial]
      exact hids.sublist (List.Sublist.map _ List.filter_sublist)

end Reset

/-! ### The loop -/

/-- A reset of an account of `ids` touches what belongs to these. -/
theorem resetsOnly_onAccount (hw : ValidBooks w) {r : AccountRef}
    (hr : r ∈ accountRefs w.inventoryBook) (hids : r.id ∈ ids) :
    ResetsOnly ids w
      (w.onAccount collection (resetCostOfSalesForAccount P collection) r.id).1 := by
  unfold Books.onAccount
  cases w.financialBookOf collection r.id with
  | none => exact .refl hw
  | some info =>
    let s : State := ⟨w.inventoryBook, w.financialBook info.id⟩
    have hs : Complete s.inventoryBook := hw.inventory
    have hframe : ResetFrame r s (resetCostOfSalesForAccount P collection s r.id).1 :=
      reset_frame hs (hw.financial info.id) hr
    refine ⟨⟨reset_complete hs, fun id => ?_⟩, accountRefs_reset hs, hframe.rows, ?_, ?_, ?_⟩
    · by_cases hid : id = info.id
      · subst hid
        simpa using hframe.financialIds
      · simpa [hid] using hw.financial id
    · intro a ha
      have hne : a.id ≠ r.id := fun hid => ha (hid ▸ hids)
      exact mem_accounts_reset hs hr hne
    · exact fun t ht => hframe.transactions t (ht r hr hids)
    · intro id t ht
      by_cases hid : id = info.id
      · subst hid
        have hunlinked : ∀ row ∈ s.inventoryBook.transactions, row.moves r.name →
            row.id ∉ t.remoteIds := by
          intro row hrow hmoves
          refine ht row hrow fun hnone => ?_
          rw [hnone r hr hids] at hmoves
          cases hmoves
        simpa using hframe.cogs t hunlinked
      · simp [hid]

/-- A loop over accounts of `ids` touches what belongs to these, also when a call ends it. -/
theorem resetsOnly_forAccounts {accounts : List Account} (hw : ValidBooks w)
    (h : ∀ a ∈ accounts, a.id ∈ ids ∧ a.ref ∈ accountRefs w.inventoryBook) :
    ResetsOnly ids w (forAccounts (Books.onAccount collection
      (resetCostOfSalesForAccount P collection)) (accounts.map nameAndId) w).1 := by
  induction accounts generalizing w with
  | nil => exact .refl hw
  | cons a accounts ih =>
    obtain ⟨hids, hr⟩ := h a List.mem_cons_self
    have hstep : ResetsOnly ids w
        (w.onAccount collection (resetCostOfSalesForAccount P collection) a.id).1 :=
      resetsOnly_onAccount hw hr hids
    rw [List.map_cons, nameAndId, forAccounts]
    generalize w.onAccount collection (resetCostOfSalesForAccount P collection) a.id = result at hstep
    obtain ⟨w₁, outcome⟩ := result
    cases outcome with
    | threw e => exact hstep
    | returned summary =>
      refine hstep.trans (ih hstep.valid fun b hb => ?_)
      rw [hstep.refs]
      exact h b (List.mem_cons_of_mem a hb)

/-- A reset leaves alone what does not belong to an account that it goes over. -/
theorem resetCostOfSales_frame {localeCompare : String → String → ℤ} {contextParams : ContextParams}
    (hw : ValidBooks w) : LeavesOthers ((assets w.inventoryBook.accounts).map Account.id) w
      (resetCostOfSales P localeCompare collection contextParams w).1 := by
  unfold resetCostOfSales getAccountsToReset
  cases BotService.getInventoryBook collection with
  | none => exact (ResetsOnly.refl hw).others
  | some info =>
    refine (resetsOnly_forAccounts hw fun a ha => ?_).others
    have hasset : a ∈ assets w.inventoryBook.accounts := (List.mem_insertionSort _).1 ha
    exact ⟨List.mem_map_of_mem hasset, List.mem_map_of_mem (List.mem_of_mem_filter hasset)⟩

end Frame

/-! ## The two scopes -/

/-- The asset accounts of the inventory book are the ones that the context selects. -/
def SelectsAssets (contextParams : ContextParams) (w : Books) : Prop :=
  match contextParams.account, contextParams.group with
  | some account, _ =>
    match w.inventoryBook.getAccount account.id with
    | some account => ∀ a ∈ w.inventoryBook.accounts, a.type = .asset ↔ a.id = account.id
    | none => ∀ a ∈ w.inventoryBook.accounts, a.type ≠ .asset
  | none, some group =>
    match w.getGroup group.id with
    | some group => ∀ a ∈ w.inventoryBook.accounts, a.type = .asset → a.id ∈ group.accountIds
    | none => ∀ a ∈ w.inventoryBook.accounts, a.type ≠ .asset
  | none, none => True

/-- The accounts that the context selects; none if it names one that is not found. -/
def selected (contextParams : ContextParams) (w : Books) : List Account :=
  match selectedAccounts contextParams w with
  | .ok accounts => accounts
  | .error _ => []

section Scope

variable {P : Platform} {collection : Option (List BookInfo)} {contextParams : ContextParams}
  {w : Books}

theorem mem_assets {a : Account} {accounts : List Account} :
    a ∈ assets accounts ↔ a ∈ accounts ∧ a.type = .asset := by
  simp [assets]

theorem mem_selected_account {account : ContextRef} {a : Account}
    (h : contextParams.account = some account) : a ∈ selected contextParams w ↔
      w.inventoryBook.getAccount account.id = some a := by
  cases hfound : w.inventoryBook.getAccount account.id with
  | none => simp [selected, selectedAccounts, h, hfound]
  | some b => simp [selected, selectedAccounts, h, hfound, eq_comm]

theorem mem_selected_group {group : ContextRef} {a : Account}
    (hno : contextParams.account = none) (h : contextParams.group = some group) :
    a ∈ selected contextParams w ↔ ∃ g, w.getGroup group.id = some g ∧
      a ∈ w.inventoryBook.accounts ∧ a.id ∈ g.accountIds ∧ a.type = .asset := by
  cases hfound : w.getGroup group.id with
  | none => simp [selected, selectedAccounts, hno, h, hfound]
  | some g =>
    simp [selected, selectedAccounts, hno, h, hfound, mem_assets, Books.getAccounts, and_assoc]

theorem selected_all (hno : contextParams.account = none) (h : contextParams.group = none) :
    selected contextParams w = assets w.inventoryBook.accounts := by
  simp [selected, selectedAccounts, hno, h]

/-- The accounts that a context selects are accounts of the book. -/
theorem selected_subset : ∀ a ∈ selected contextParams w, a ∈ w.inventoryBook.accounts := by
  intro a ha
  cases haccount : contextParams.account with
  | some account => exact Book.mem_of_getAccount ((mem_selected_account haccount).1 ha)
  | none =>
    cases hgroup : contextParams.group with
    | some group =>
      obtain ⟨g, -, hmem, -⟩ := (mem_selected_group haccount hgroup).1 ha
      exact hmem
    | none =>
      rw [selected_all haccount hgroup] at ha
      exact (mem_assets.1 ha).1

theorem nodup_accountNames (hw : Complete w.inventoryBook) :
    (w.inventoryBook.accounts.map Account.name).Nodup := by
  simpa [accountRefs, Function.comp_def, Account.ref] using hw.accountNames

/-- A context selects each account once. -/
theorem selected_nodup (hw : Complete w.inventoryBook) :
    ((selected contextParams w).map Account.name).Nodup := by
  have hsublist : ∀ l : List Account, l.Sublist w.inventoryBook.accounts →
      (l.map Account.name).Nodup := fun l hl => (nodup_accountNames hw).sublist (hl.map Account.name)
  unfold selected selectedAccounts
  cases contextParams.account with
  | some account =>
    dsimp only
    cases w.inventoryBook.getAccount account.id with
    | none => exact List.nodup_nil
    | some a => exact List.nodup_singleton _
  | none =>
    cases contextParams.group with
    | some group =>
      dsimp only
      cases w.getGroup group.id with
      | none => exact List.nodup_nil
      | some g => exact hsublist _ (List.filter_sublist.trans List.filter_sublist)
    | none => exact hsublist _ List.filter_sublist

/-- A calculation goes over the selected accounts. -/
theorem calculatedAccounts_perm (hw : Complete w.inventoryBook)
    (hbook : BotService.getInventoryBook collection ≠ none) :
    (calculatedAccounts collection contextParams w).Perm
      ((selected contextParams w).map nameAndId) := by
  obtain ⟨info, hinfo⟩ := Option.ne_none_iff_exists'.1 hbook
  cases hselected : selectedAccounts contextParams w with
  | error e => simp [calculatedAccounts, getAccountsToCalculate, hinfo, selected, hselected]
  | ok accounts =>
    have hnodup : (accounts.map Account.name).Nodup := by
      simpa [selected, hselected] using @selected_nodup contextParams w hw
    have hentries : (accounts.foldl (fun (accountsMap : OrderedMap String String) account =>
        accountsMap.set account.name account.id) ∅).entries = accounts.map nameAndId :=
      OrderedMap.entries_foldl_set (m := ∅) Account.id hnodup fun _ _ => List.not_mem_nil
    simp only [calculatedAccounts, getAccountsToCalculate, hinfo, selected, hselected]
    exact hentries ▸ List.perm_insertionSort _ _

/-- The context selects the asset accounts if and only if the selected accounts are these. -/
theorem selectsAssets_iff (hw : Complete w.inventoryBook) : SelectsAssets contextParams w ↔
    ∀ a ∈ w.inventoryBook.accounts, a.type = .asset ↔ a ∈ selected contextParams w := by
  unfold SelectsAssets
  cases haccount : contextParams.account with
  | some account =>
    simp only [mem_selected_account haccount]
    cases hfound : w.inventoryBook.getAccount account.id with
    | none => simp
    | some b =>
      refine forall₂_congr fun a ha => iff_congr Iff.rfl ?_
      rw [Option.some_inj]
      exact ⟨fun hid => (eq_of_id hw.accountIds ha (Book.mem_of_getAccount hfound) hid).symm,
        fun hsame => congrArg Account.id hsame.symm⟩
  | none =>
    cases hgroup : contextParams.group with
    | some group =>
      simp only [mem_selected_group haccount hgroup]
      cases hfound : w.getGroup group.id with
      | none => simp
      | some g =>
        refine forall₂_congr fun a ha => ?_
        simp only [Option.some.injEq, exists_eq_left', ha, true_and]
        exact ⟨fun h => ⟨fun htype => ⟨h htype, htype⟩, And.right⟩, fun h htype => (h.1 htype).1⟩
    | none =>
      rw [selected_all haccount hgroup]
      refine iff_of_true trivial fun a ha => ?_
      simp [mem_assets, ha]

/-! ## The loop comes to its end -/

/-- The purchases of an account with a financial book have a cost to go back to. -/
def AccountReadable (P : Platform) (collection : Option (List BookInfo)) (w : Books) (a : Account) :
    Prop :=
  BotService.getFinancialBook collection (BotService.getExchangeCode a) ≠ none →
    ∀ t ∈ w.inventoryBook.transactions, t.moves a.name → CostReadable P t

/-- The purchases of the asset accounts with a financial book have a cost to go back to. -/
def CostsReadable (P : Platform) (collection : Option (List BookInfo)) (w : Books) : Prop :=
  ∀ a ∈ w.inventoryBook.accounts, a.type = .asset → AccountReadable P collection w a

/-- The purchases that two accounts with financial books share have a cost to go back to also when
    the reset of one of them has taken their purchase logs. -/
def SharedReadable (P : Platform) (collection : Option (List BookInfo)) (w : Books)
    (a b : Account) : Prop :=
  BotService.getFinancialBook collection (BotService.getExchangeCode a) ≠ none →
    BotService.getFinancialBook collection (BotService.getExchangeCode b) ≠ none →
      ∀ t ∈ w.inventoryBook.transactions, t.moves a.name → t.moves b.name →
        CostReadable P { t with purchaseLog := none }

/-- The purchases that two asset accounts share do not need their purchase logs. -/
def LogsReadable (P : Platform) (collection : Option (List BookInfo)) (w : Books) : Prop :=
  ∀ a ∈ w.inventoryBook.accounts, ∀ b ∈ w.inventoryBook.accounts, a.type = .asset →
    b.type = .asset → a.id ≠ b.id → SharedReadable P collection w a b

/-- The loop returns if and only if every one of its resets does. -/
theorem forAccounts_iff {accounts results : List (String × String)} {w' : Books} :
    forAccounts (Books.onAccount collection (resetCostOfSalesForAccount P collection)) accounts w =
      (w', .ok results) ↔ ResetsEach P collection accounts w w' results := by
  induction accounts generalizing w results with
  | nil =>
    unfold forAccounts
    constructor
    · intro h
      cases h
      exact .nil
    · intro h
      cases h
      rfl
  | cons x accounts ih =>
    obtain ⟨accountName, accountId⟩ := x
    unfold forAccounts
    constructor
    · intro h
      split at h
      · cases h
      · rename_i w₁ summary hreset
        cases hrest : forAccounts (Books.onAccount collection
          (resetCostOfSalesForAccount P collection)) accounts w₁ with
        | mk w₂ rest =>
          rw [hrest] at h
          cases rest with
          | error e => cases h
          | ok rest =>
            cases h
            exact .cons hreset (ih.1 hrest)
    · intro h
      cases h with
      | cons hreset hrest =>
        rw [hreset]
        simp only [ih.2 hrest]
        rfl

/-- The results name the accounts that were reset. -/
theorem ResetsEach.names {accounts results : List (String × String)} {w' : Books}
    (h : ResetsEach P collection accounts w w' results) :
    results.map Prod.fst = accounts.map Prod.fst := by
  induction h with
  | nil => rfl
  | cons hreset hrest ih => rw [List.map_cons, List.map_cons, ih]

variable (P collection) in
/-- A call for an account of the book resets it on the inventory book as it is. -/
theorem onAccount_reset (hw : Complete w.inventoryBook) {a : Account}
    (ha : a ∈ w.inventoryBook.accounts) : ∃ s : State, s.inventoryBook = w.inventoryBook ∧
      (w.onAccount collection (resetCostOfSalesForAccount P collection) a.id).1.inventoryBook =
        (resetCostOfSalesForAccount P collection s a.id).1.inventoryBook ∧
      (w.onAccount collection (resetCostOfSalesForAccount P collection) a.id).2 =
        (resetCostOfSalesForAccount P collection s a.id).2 := by
  unfold Books.onAccount
  cases hbook : w.financialBookOf collection a.id with
  | some info => exact ⟨⟨w.inventoryBook, w.financialBook info.id⟩, rfl, rfl, rfl⟩
  | none =>
    refine ⟨⟨w.inventoryBook, w.inventoryBook⟩, rfl, ?_, rfl⟩
    have hfound : w.inventoryBook.getAccount a.id = some a := getAccount_id hw.accountIds ha
    have hnone : BotService.getFinancialBook collection (BotService.getExchangeCode a) = none := by
      simpa [Books.financialBookOf, hfound] using hbook
    simp [resetCostOfSalesForAccount, planReset, openAccount, hfound, hnone, bind, Except.bind, pure,
      Except.pure]

/-- A reset that fired its batches has read the costs of all purchases of its account. -/
theorem ResetDone.readable {s s' : State} {goodAccountId : String} {goodAccount : Account}
    (h : ResetDone P s goodAccountId goodAccount s') {t : Transaction}
    (ht : t ∈ s.inventoryBook.transactions) (hmoves : t.moves goodAccount.name) :
    CostReadable P t := by
  obtain ⟨processor, hloop, -⟩ := h.loop
  by_contra hunreadable
  have hthrows : ∃ e, (s.inventoryBook.transactions.filter (·.moves goodAccount.name)).foldlM
      (resetTransaction P s.financialBook) {} = .error e := by
    rw [foldlM_throws_iff fun processor tx => resetTransaction_throws_iff processor tx]
    exact ⟨t, List.mem_filter.2 ⟨ht, hmoves⟩, hunreadable⟩
  obtain ⟨e, he⟩ := hthrows
  rw [hloop] at he
  cases he

/-- A call without a financial book leaves the books alone, and others leave the transactions that
    do not move their account. -/
theorem onAccount_row (hw : Complete w.inventoryBook) {a : Account}
    (ha : a ∈ w.inventoryBook.accounts) {t' : Transaction}
    (ht' : t' ∈ (w.onAccount collection
      (resetCostOfSalesForAccount P collection) a.id).1.inventoryBook.transactions) :
    ∃ t ∈ w.inventoryBook.transactions, SameIdentity t t' ∧ (t' = t ∨ t.moves a.name ∧
      BotService.getFinancialBook collection (BotService.getExchangeCode a) ≠ none) := by
  have hfound : w.inventoryBook.getAccount a.id = some a := getAccount_id hw.accountIds ha
  by_cases hbook : BotService.getFinancialBook collection (BotService.getExchangeCode a) = none
  · have hnone : w.financialBookOf collection a.id = none := by
      simp [Books.financialBookOf, hfound, hbook]
    rw [Books.onAccount, hnone] at ht'
    exact ⟨t', ht', .refl t', Or.inl rfl⟩
  · obtain ⟨s, hs, hbooks, -⟩ := onAccount_reset P collection hw ha
    rw [hbooks] at ht'
    rcases reset_cases (P := P) collection a.id (hs ▸ hw.ids) with ⟨hsame, -⟩ | ⟨-, a', hdone⟩
    · rw [hsame, hs] at ht'
      exact ⟨t', ht', .refl t', Or.inl rfl⟩
    · obtain rfl : a' = a := Option.some.inj (hdone.account.symm.trans (hs ▸ hfound))
      obtain ⟨t, ht, -, rfl⟩ := hdone.mem ht'
      refine ⟨t, hs ▸ ht, resetRow_sameIdentity P a'.name t, ?_⟩
      by_cases hown : t.moves a'.name
      · exact Or.inr ⟨hown, hbook⟩
      · exact Or.inl (by simp [resetRow, hown])

/-- The purchases of an account can be read if they can be after the reset of another. -/
theorem accountReadable_of_onAccount (hw : Complete w.inventoryBook) {a b : Account}
    (ha : a ∈ w.inventoryBook.accounts) (h : AccountReadable P collection
      (w.onAccount collection (resetCostOfSalesForAccount P collection) a.id).1 b) :
    AccountReadable P collection w b := by
  have hfound : w.inventoryBook.getAccount a.id = some a := getAccount_id hw.accountIds ha
  obtain ⟨s, hs, hbooks, -⟩ := onAccount_reset P collection hw ha
  rw [← hs] at hfound
  intro hbook t ht hmoves
  have hread := h hbook
  rw [hbooks] at hread
  rw [← hs] at ht
  rcases reset_cases (P := P) collection a.id (hs ▸ hw.ids) with ⟨hsame, -⟩ | ⟨-, a', hdone⟩
  · rw [hsame] at hread
    exact hread t ht hmoves
  · obtain rfl : a' = a := Option.some.inj (hdone.account.symm.trans hfound)
    by_cases hown : t.moves a'.name
    · exact ResetDone.readable hdone ht hown
    · exact hread t ((mem_transactions_reset (r := a'.ref) hdone (by simpa using hown)).2 ht) hmoves

/-- A reset leaves the purchases of another account readable, if those that the two share can be
    read without their purchase logs. -/
theorem AccountReadable.onAccount {a b : Account} (h : AccountReadable P collection w b)
    (hshared : SharedReadable P collection w a b) (hw : Complete w.inventoryBook)
    (ha : a ∈ w.inventoryBook.accounts) : AccountReadable P collection
      (w.onAccount collection (resetCostOfSalesForAccount P collection) a.id).1 b := by
  intro hbook t' ht' hmoves
  obtain ⟨t, ht, hsame, rfl | ⟨hown, habook⟩⟩ := onAccount_row hw ha ht'
  · exact h hbook t' ht hmoves
  · rw [hsame.moves] at hmoves
    exact (hshared habook hbook t ht hown hmoves).of_sameIdentity hsame

/-- A reset changes nothing about what other accounts share. -/
theorem SharedReadable.onAccount {a b c : Account} (h : SharedReadable P collection w b c)
    (hw : Complete w.inventoryBook) (ha : a ∈ w.inventoryBook.accounts) :
    SharedReadable P collection
      (w.onAccount collection (resetCostOfSalesForAccount P collection) a.id).1 b c := by
  intro hbbook hcbook t' ht' hbmoves hcmoves
  obtain ⟨t, ht, hsame, -⟩ := onAccount_row hw ha ht'
  rw [hsame.moves] at hbmoves hcmoves
  have hunlogged : SameIdentity t { t' with purchaseLog := none } := { hsame with }
  exact (h hbbook hcbook t ht hbmoves hcmoves).of_sameIdentity hunlogged

/-- A call for an account of the book throws if and only if a purchase has no cost to go back to. -/
theorem onAccount_throws_iff (hw : Complete w.inventoryBook) {a : Account}
    (ha : a ∈ w.inventoryBook.accounts) :
    (∃ e, (w.onAccount collection (resetCostOfSalesForAccount P collection) a.id).2 = .threw e) ↔
      ¬AccountReadable P collection w a := by
  obtain ⟨s, hs, -, houtcome⟩ := onAccount_reset P collection hw ha
  have hfound : s.inventoryBook.getAccount a.id = some a := by rw [hs, getAccount_id hw.accountIds ha]
  rw [houtcome, reset_throws_iff hfound, hs]
  simp [AccountReadable]

variable (P collection) in
/-- After the reset of the first account of a loop, the others are accounts of the book as before. -/
theorem rest_of_loop (hw : ValidBooks w) {a : Account} {accounts : List Account}
    (haccounts : ∀ b ∈ a :: accounts, b ∈ w.inventoryBook.accounts)
    (hids : ((a :: accounts).map Account.id).Nodup) :
    ValidBooks (w.onAccount collection (resetCostOfSalesForAccount P collection) a.id).1 ∧
      ∀ b ∈ accounts, b ∈ (w.onAccount collection
        (resetCostOfSalesForAccount P collection) a.id).1.inventoryBook.accounts := by
  have ha := haccounts a List.mem_cons_self
  have hstep : ResetsOnly [a.id] w
      (w.onAccount collection (resetCostOfSalesForAccount P collection) a.id).1 :=
    resetsOnly_onAccount hw (List.mem_map_of_mem ha) List.mem_cons_self
  refine ⟨hstep.valid, fun b hb => ?_⟩
  have hne : b.id ∉ [a.id] := by
    rw [List.mem_singleton]
    exact fun hid => (List.nodup_cons.1 hids).1 (hid ▸ List.mem_map_of_mem hb)
  exact (hstep.others.accounts b hne).2 (haccounts b (List.mem_cons_of_mem a hb))

/-- The loop goes on after a call that returns, on the books that it has left. -/
theorem forAccounts_cons (call : Books → String → Books × Outcome) (a : Account)
    (accounts : List Account) :
    (forAccounts call ((a :: accounts).map nameAndId) w).2 =
      match (call w a.id).2 with
      | .threw e => .error (.exception e)
      | .returned summary => (forAccounts call (accounts.map nameAndId) (call w a.id).1).2.map
          ((a.name, summary.getResult) :: ·) := by
  rw [List.map_cons, nameAndId, forAccounts]
  generalize call w a.id = result
  obtain ⟨w₁, outcome⟩ := result
  cases outcome <;> rfl

/-- A loop that comes to its end meets no purchase without a cost to go back to. -/
theorem forAccounts_reset_readable {accounts : List Account} (hw : ValidBooks w)
    (haccounts : ∀ a ∈ accounts, a ∈ w.inventoryBook.accounts)
    (hids : (accounts.map Account.id).Nodup) {results : List (String × String)}
    (h : (forAccounts (Books.onAccount collection (resetCostOfSalesForAccount P collection))
      (accounts.map nameAndId) w).2 = .ok results) :
    ∀ a ∈ accounts, AccountReadable P collection w a := by
  induction accounts generalizing w results with
  | nil => exact fun _ ha => absurd ha List.not_mem_nil
  | cons a accounts ih =>
    have ha := haccounts a List.mem_cons_self
    rw [forAccounts_cons] at h
    have hown : AccountReadable P collection w a := by
      by_contra hunreadable
      obtain ⟨e, he⟩ := (onAccount_throws_iff hw.inventory ha).2 hunreadable
      rw [he] at h
      cases h
    have hgoes : ∃ results, (forAccounts (Books.onAccount collection
        (resetCostOfSalesForAccount P collection)) (accounts.map nameAndId)
        (w.onAccount collection (resetCostOfSalesForAccount P collection) a.id).1).2 =
          .ok results := by
      split at h
      · cases h
      · cases hrest : (forAccounts (Books.onAccount collection
            (resetCostOfSalesForAccount P collection)) (accounts.map nameAndId)
            (w.onAccount collection (resetCostOfSalesForAccount P collection) a.id).1).2 with
        | error e =>
          rw [hrest] at h
          cases h
        | ok rest => exact ⟨rest, rfl⟩
    obtain ⟨rest, hrest⟩ := hgoes
    obtain ⟨hvalid, hkept⟩ := rest_of_loop P collection hw haccounts hids
    refine List.forall_mem_cons.2 ⟨hown, fun b hb => ?_⟩
    exact accountReadable_of_onAccount hw.inventory ha
      (ih hvalid hkept (List.nodup_cons.1 hids).2 hrest b hb)

/-- A loop comes to its end if the purchases of its accounts have a cost to go back to, those that
    two of them share also without their purchase logs. -/
theorem forAccounts_reset_returns {accounts : List Account} (hw : ValidBooks w)
    (haccounts : ∀ a ∈ accounts, a ∈ w.inventoryBook.accounts)
    (hids : (accounts.map Account.id).Nodup)
    (hread : ∀ a ∈ accounts, AccountReadable P collection w a)
    (hshared : ∀ a ∈ accounts, ∀ b ∈ accounts, a.id ≠ b.id → SharedReadable P collection w a b) :
    ∃ results, (forAccounts (Books.onAccount collection (resetCostOfSalesForAccount P collection))
      (accounts.map nameAndId) w).2 = .ok results := by
  induction accounts generalizing w with
  | nil => exact ⟨[], rfl⟩
  | cons a accounts ih =>
    have ha := haccounts a List.mem_cons_self
    have hother : ∀ b ∈ accounts, a.id ≠ b.id := fun b hb hid =>
      (List.nodup_cons.1 hids).1 (hid ▸ List.mem_map_of_mem hb)
    obtain ⟨hvalid, hkept⟩ := rest_of_loop P collection hw haccounts hids
    have hrest : ∀ b ∈ accounts, AccountReadable P collection
        (w.onAccount collection (resetCostOfSalesForAccount P collection) a.id).1 b := by
      intro b hb
      have hab := hshared a List.mem_cons_self b (List.mem_cons_of_mem a hb) (hother b hb)
      exact (hread b (List.mem_cons_of_mem a hb)).onAccount hab hw.inventory ha
    obtain ⟨results, hresults⟩ := ih hvalid hkept (List.nodup_cons.1 hids).2 hrest
      fun b hb c hc hne => (hshared b (List.mem_cons_of_mem a hb) c (List.mem_cons_of_mem a hc)
        hne).onAccount hw.inventory ha
    rw [forAccounts_cons]
    cases houtcome : (w.onAccount collection (resetCostOfSalesForAccount P collection) a.id).2 with
    | threw e =>
      exact absurd (hread a List.mem_cons_self)
        ((onAccount_throws_iff hw.inventory ha).1 ⟨e, houtcome⟩)
    | returned summary =>
      rw [hresults]
      exact ⟨_, rfl⟩

/-- A context for which a calculation goes over the names of the asset accounts selects these. -/
theorem selectsAssets_of_names (hw : Complete w.inventoryBook)
    (hbook : BotService.getInventoryBook collection ≠ none)
    (hnames : ((assets w.inventoryBook.accounts).map Account.name).Perm
      ((calculatedAccounts collection contextParams w).map Prod.fst)) :
    SelectsAssets contextParams w := by
  have hcalculated : (calculatedAccounts collection contextParams w).Perm
      ((selected contextParams w).map nameAndId) := calculatedAccounts_perm hw hbook
  have hselected : ∀ n, n ∈ (assets w.inventoryBook.accounts).map Account.name ↔
      n ∈ (selected contextParams w).map Account.name := by
    intro n
    rw [hnames.mem_iff, (hcalculated.map _).mem_iff, List.map_map]
    rfl
  refine (selectsAssets_iff hw).2 fun a ha => ⟨fun htype => ?_, fun hmem => ?_⟩
  · obtain ⟨b, hb, hname⟩ := List.mem_map.1 ((hselected a.name).1
      (List.mem_map_of_mem (mem_assets.2 ⟨ha, htype⟩)))
    exact List.inj_on_of_nodup_map (nodup_accountNames hw) (selected_subset b hb) ha hname ▸ hb
  · obtain ⟨b, hb, hname⟩ := List.mem_map.1 ((hselected a.name).2 (List.mem_map_of_mem hmem))
    obtain ⟨hb, htype⟩ := mem_assets.1 hb
    exact List.inj_on_of_nodup_map (nodup_accountNames hw) hb ha hname ▸ htype

/-- For a context that selects the asset accounts a calculation goes over these. -/
theorem SelectsAssets.calculated_perm (h : SelectsAssets contextParams w)
    (hw : Complete w.inventoryBook) (hbook : BotService.getInventoryBook collection ≠ none) :
    ((assets w.inventoryBook.accounts).map nameAndId).Perm
      (calculatedAccounts collection contextParams w) := by
  have hassets : (assets w.inventoryBook.accounts).Nodup :=
    (List.Nodup.of_map _ (nodup_accountNames hw)).filter _
  have hselected : (selected contextParams w).Nodup := List.Nodup.of_map _ (selected_nodup hw)
  have hperm : (assets w.inventoryBook.accounts).Perm (selected contextParams w) := by
    refine (List.perm_ext_iff_of_nodup hassets hselected).2 fun a => ?_
    constructor
    · intro ha
      obtain ⟨ha, htype⟩ := mem_assets.1 ha
      exact ((selectsAssets_iff hw).1 h a ha).1 htype
    · intro ha
      have hmem := selected_subset a ha
      exact mem_assets.2 ⟨hmem, ((selectsAssets_iff hw).1 h a hmem).2 ha⟩
  exact (hperm.map nameAndId).trans (calculatedAccounts_perm hw hbook).symm

/-- A reset is the loop over the asset accounts, by their names. -/
theorem resetCostOfSales_loop {localeCompare : String → String → ℤ}
    (hbook : BotService.getInventoryBook collection ≠ none) :
    ∃ accounts : List Account, accounts.Perm (assets w.inventoryBook.accounts) ∧
      resetCostOfSales P localeCompare collection contextParams w =
        forAccounts (Books.onAccount collection (resetCostOfSalesForAccount P collection))
          (accounts.map nameAndId) w := by
  obtain ⟨info, hinfo⟩ := Option.ne_none_iff_exists'.1 hbook
  refine ⟨_, List.perm_insertionSort (fun a b : Account => localeCompare a.name b.name ≤ 0) _, ?_⟩
  simp only [resetCostOfSales, getAccountsToReset, hinfo]
  rfl

/-- Without an inventory book a calculation and a reset go over no account. -/
theorem sameScope_of_no_book {localeCompare : String → String → ℤ} (hw : ValidBooks w)
    (hbook : BotService.getInventoryBook collection = none) :
    SameScope P collection contextParams w
      (resetCostOfSales P localeCompare collection contextParams w) := by
  have hreset : resetCostOfSales P localeCompare collection contextParams w =
      (w, .error inventoryBookNotFound) := by
    simp [resetCostOfSales, getAccountsToReset, hbook]
  have hcalculated : calculatedAccounts collection contextParams w = [] := by
    simp [calculatedAccounts, getAccountsToCalculate, hbook]
  rw [hreset]
  refine ⟨⟨[], [], ?_, .nil, Or.inr ⟨hbook, rfl⟩⟩, (ResetsOnly.refl hw).others⟩
  rw [hcalculated]

/-- For a context, a reset resets the accounts that a calculation would go over, each once, and
    leaves the others alone only if the context selects the asset accounts of the inventory book and
    the purchases of these have a cost to go back to. It does so if, moreover, the purchases that two
    asset accounts share do not need their purchase logs: whether such a log is gone when the second
    account has its turn depends on the locks that the first one meets. Without an inventory book
    both throw. -/
theorem resetCostOfSales_scope (P : Platform) (localeCompare : String → String → ℤ)
    (collection : Option (List BookInfo)) (contextParams : ContextParams) {w : Books}
    (hw : ValidBooks w) :
    (SameScope P collection contextParams w
        (resetCostOfSales P localeCompare collection contextParams w) →
      BotService.getInventoryBook collection = none ∨
        (SelectsAssets contextParams w ∧ CostsReadable P collection w)) ∧
    (BotService.getInventoryBook collection = none ∨
        (SelectsAssets contextParams w ∧ CostsReadable P collection w ∧
          LogsReadable P collection w) →
      SameScope P collection contextParams w
        (resetCostOfSales P localeCompare collection contextParams w)) := by
  by_cases hbook : BotService.getInventoryBook collection = none
  · exact ⟨fun _ => Or.inl hbook, fun _ => sameScope_of_no_book hw hbook⟩
  rw [or_iff_right hbook, or_iff_right hbook]
  obtain ⟨accounts, haccounts, hloop⟩ := resetCostOfSales_loop (P := P) (w := w) hbook
  have hmem : ∀ a ∈ accounts, a ∈ w.inventoryBook.accounts ∧ a.type = .asset :=
    fun a ha => mem_assets.1 (haccounts.mem_iff.1 ha)
  have hids : (accounts.map Account.id).Nodup := by
    rw [(haccounts.map Account.id).nodup_iff]
    exact (nodup_accountIds hw.inventory.accountIds).sublist (List.filter_sublist.map _)
  constructor
  · rintro ⟨⟨calculated, results, hcalculated, heach, hend⟩, -⟩
    have hok := hend.resolve_right fun hnone => hbook hnone.1
    refine ⟨selectsAssets_of_names hw.inventory hbook ?_, fun a ha htype => ?_⟩
    · -- the results name the accounts that the loop has gone over
      have hgone : ResetsEach P collection (accounts.map nameAndId) w
          (resetCostOfSales P localeCompare collection contextParams w).1 results :=
        forAccounts_iff.1 (hloop ▸ Prod.ext rfl hok)
      have hnames : calculated.map Prod.fst = accounts.map Account.name := by
        rw [← heach.names, hgone.names, List.map_map]
        rfl
      exact (haccounts.map Account.name).symm.trans (hnames ▸ hcalculated.map Prod.fst)
    · exact forAccounts_reset_readable hw (fun a ha => (hmem a ha).1) hids (hloop ▸ hok) a
        (haccounts.mem_iff.2 (mem_assets.2 ⟨ha, htype⟩))
  · rintro ⟨hscope, hread, hlogs⟩
    obtain ⟨results, hok⟩ := forAccounts_reset_returns hw (fun a ha => (hmem a ha).1) hids
      (fun a ha => hread a (hmem a ha).1 (hmem a ha).2) fun a ha b hb hne =>
        hlogs a (hmem a ha).1 b (hmem b hb).1 (hmem a ha).2 (hmem b hb).2 hne
    rw [← hloop] at hok
    have hperm : (accounts.map nameAndId).Perm (calculatedAccounts collection contextParams w) :=
      (haccounts.map nameAndId).trans (hscope.calculated_perm hw.inventory hbook)
    have hframe : LeavesOthers ((assets w.inventoryBook.accounts).map Account.id) w
        (resetCostOfSales P localeCompare collection contextParams w).1 := resetCostOfSales_frame hw
    refine ⟨⟨accounts.map nameAndId, results, hperm, forAccounts_iff.1 (hloop ▸ Prod.ext rfl hok),
      Or.inl hok⟩, hframe.congr fun id => ?_⟩
    rw [← (hperm.map Prod.snd).mem_iff, List.map_map, ← (haccounts.map Account.id).mem_iff]
    rfl

end Scope

namespace Sample

open Menu.Sample

def gadgets : Account :=
  { id := "a-gadgets", name := "Gadgets", type := .asset, groups := good.groups }

/-- The small account beside another good. -/
def twoGoods : State :=
  { start with
    inventoryBook :=
      { start.inventoryBook with
        accounts := [good, gadgets, { id := buy.id, name := buy.name, type := buy.type },
          { id := sell.id, name := sell.name, type := sell.type }] } }

/-- The books after the widgets were calculated. -/
def widgetsCalculated : State :=
  (calculateCostOfSalesForAccount decimalPlatform collection (env 9) twoGoods "a-widgets" none).1

def goodsBooks : Books where
  inventoryBook := widgetsCalculated.inventoryBook
  groups := [{ id := "g-goods", name := "Goods", accountIds := ["a-widgets", "a-gadgets"] }]
  financialBook := fun _ => widgetsCalculated.financialBook

theorem validBooks_goodsBooks : ValidBooks goodsBooks := by
  refine ⟨⟨?_, ?_, ?_, ?_⟩, fun id => ?_⟩
  · decide +kernel
  · decide +kernel
  · decide +kernel
  · decide +kernel
  · show (widgetsCalculated.financialBook.transactions.map Transaction.id).Nodup
    decide +kernel

/-- The context of the gadgets. -/
def gadgetsContext : ContextParams := { account := some ⟨"a-gadgets", "Gadgets"⟩ }

/-- Asked for the gadgets, of which a calculation takes none but these, the reset changes the
    transactions of the widgets too. -/
theorem resetCostOfSales_widgets :
    calculatedAccounts collection gadgetsContext goodsBooks = [("Gadgets", "a-gadgets")] ∧
      ¬SameScope decimalPlatform collection gadgetsContext goodsBooks
        (resetCostOfSales decimalPlatform (fun _ _ => 0) collection gadgetsContext goodsBooks) := by
  have hcalculated : calculatedAccounts collection gadgetsContext goodsBooks =
      [("Gadgets", "a-gadgets")] := by decide +kernel
  refine ⟨hcalculated, fun h => ?_⟩
  have hreset : ∃ t ∈ goodsBooks.inventoryBook.transactions,
      (∀ r ∈ accountRefs goodsBooks.inventoryBook, r.id ∈ ["a-gadgets"] → t.moves r.name = false) ∧
      t ∉ (resetCostOfSales decimalPlatform (fun _ _ => 0) collection gadgetsContext
        goodsBooks).1.inventoryBook.transactions := by
    decide +kernel
  obtain ⟨t, ht, hnone, hgone⟩ := hreset
  have hothers := h.others
  rw [hcalculated] at hothers
  exact hgone ((hothers.transactions t hnone).2 ht)

/-- For the group of both goods the scopes are the same. -/
theorem resetCostOfSales_scope_goods :
    SameScope decimalPlatform collection { group := some ⟨"g-goods", "Goods"⟩ } goodsBooks
      (resetCostOfSales decimalPlatform (fun _ _ => 0) collection
        { group := some ⟨"g-goods", "Goods"⟩ } goodsBooks) := by
  refine (resetCostOfSales_scope decimalPlatform (fun _ _ => 0) collection
    { group := some ⟨"g-goods", "Goods"⟩ } validBooks_goodsBooks).2 (Or.inr ⟨?_, ?_, ?_⟩)
  · show ∀ a ∈ goodsBooks.inventoryBook.accounts, a.type = .asset → a.id ∈ ["a-widgets", "a-gadgets"]
    decide +kernel
  · unfold CostsReadable AccountReadable CostReadable
    decide +kernel
  · unfold LogsReadable SharedReadable CostReadable
    decide +kernel

end Sample

end InventoryBot.System
