import InventoryBot.Menu.Calculation
import InventoryBot.Menu.ResetRows

/-!
# Completed runs

* `Calculates`: a completed calculation of an account, whatever its outcome.
* `Calculates.cases`: it changes nothing, or resets a flagged account, or makes the books what
  the desk shows after a sequence of moves.
* `reset_cases`: what a completed reset does.
-/

namespace InventoryBot.Menu

open Lib CostOfSalesService

/-! ## The account across runs -/

/-- Overwriting the entry that a test finds makes the test find what was written. -/
theorem find?_map_overwrite {p : Account → Bool} {g a : Account} (hid : a.id = g.id) (ha : p a) :
    ∀ {l : List Account}, l.find? p = some g →
      (l.map fun x => if x.id = a.id then a else x).find? p = some a := by
  intro l
  induction l with
  | nil => simp
  | cons x l ih =>
    intro h
    rw [List.map_cons, List.find?_cons]
    by_cases hx : x.id = a.id
    · rw [if_pos hx, ha]
    · rw [if_neg hx]
      cases hp : p x with
      | true =>
        rw [List.find?_cons, hp] at h
        exact absurd (Option.some.inj h ▸ hid.symm) hx
      | false =>
        rw [List.find?_cons, hp] at h
        exact ih h

/-- Updating the account that a key finds makes the key find the update. -/
theorem getAccount_updateAccount {b : Book} {key : String} {g a : Account}
    (hg : b.getAccount key = some g) (hid : a.id = g.id) (hname : a.name = g.name) :
    (b.updateAccount a).getAccount key = some a := by
  unfold Book.getAccount at hg ⊢
  refine (Option.orElse_eq_some _ _ _).2 ?_
  rcases (Option.orElse_eq_some _ _ _).1 hg with hfind | ⟨hnone, hfind⟩
  · have hkey : (a.id == key) = true := by
      have := List.find?_some hfind
      rwa [hid]
    exact Or.inl (find?_map_overwrite hid hkey hfind)
  · have hkey : (a.name == key) = true := by
      have := List.find?_some hfind
      rwa [hname]
    refine Or.inr ⟨?_, find?_map_overwrite hid hkey hfind⟩
    rw [List.find?_eq_none] at hnone ⊢
    intro x hx
    obtain ⟨y, hy, rfl⟩ := List.mem_map.1 hx
    have hyid : (if y.id = a.id then a else y).id = y.id := by split <;> simp_all
    rw [hyid]
    exact hnone y hy

/-- The account after a calculation is the same, but for its properties. -/
structure SameAccount (a a' : Account) : Prop where
  id : a'.id = a.id
  name : a'.name = a.name
  type : a'.type = a.type
  groups : a'.groups = a.groups

theorem SameAccount.refl (a : Account) : SameAccount a a := ⟨rfl, rfl, rfl, rfl⟩

theorem SameAccount.trans {a a' a'' : Account} (h : SameAccount a a') (h' : SameAccount a' a'') :
    SameAccount a a'' :=
  ⟨h'.id.trans h.id, h'.name.trans h.name, h'.type.trans h.type, h'.groups.trans h.groups⟩

theorem setCOGSCalculationDate_same (a : Account) (date : String) :
    SameAccount a (GoodAccount.setCOGSCalculationDate a date) := ⟨rfl, rfl, rfl, rfl⟩

theorem clearAccount_same (a : Account) : SameAccount a (clearAccount a) := ⟨rfl, rfl, rfl, rfl⟩

theorem needsRebuild_setCOGSCalculationDate (a : Account) (date : String) :
    GoodAccount.needsRebuild (GoodAccount.setCOGSCalculationDate a date) =
      GoodAccount.needsRebuild a := by
  have hget : (GoodAccount.setCOGSCalculationDate a date).properties.get needsRebuildProp =
      a.properties.get needsRebuildProp :=
    OrderedMap.get_set_of_ne _ _ (by decide)
  rw [GoodAccount.needsRebuild, GoodAccount.needsRebuild, hget]

/-- What `storeLastCalcTxDate` does to the account it is given. -/
theorem storeLastCalcTxDate_account {P : Platform} {b : Book} {key : String} {a : Account}
    (sales : List Transaction) (ha : b.getAccount key = some a) :
    ∃ a', (storeLastCalcTxDate P b a sales).getAccount key = some a' ∧ SameAccount a a' ∧
      GoodAccount.needsRebuild a' = GoodAccount.needsRebuild a := by
  have hsame : ∃ a', b.getAccount key = some a' ∧ SameAccount a a' ∧
      GoodAccount.needsRebuild a' = GoodAccount.needsRebuild a := ⟨a, ha, .refl a, rfl⟩
  have hstored : ∀ date, ∃ a', (b.updateAccount
      (GoodAccount.setCOGSCalculationDate a date)).getAccount key = some a' ∧ SameAccount a a' ∧
      GoodAccount.needsRebuild a' = GoodAccount.needsRebuild a := fun date =>
    ⟨_, getAccount_updateAccount ha rfl rfl, setCOGSCalculationDate_same a date,
      needsRebuild_setCOGSCalculationDate a date⟩
  unfold storeLastCalcTxDate
  split
  · exact hsame
  · split
    · exact hstored _
    · exact hsame
    · split
      · exact hstored _
      · exact hsame

/-- The accounts of a book, but for their properties, after a run. -/
def AccountsKept (b b' : Book) : Prop := ∀ a' ∈ b'.accounts, ∃ a ∈ b.accounts, SameAccount a a'

theorem AccountsKept.refl (b : Book) : AccountsKept b b := fun a ha => ⟨a, ha, .refl a⟩

theorem accountsKept_updateAccount {b : Book} {g a : Account} (hg : g ∈ b.accounts)
    (hsame : SameAccount g a) : AccountsKept b (b.updateAccount a) := by
  intro a' ha'
  obtain ⟨x, hx, rfl⟩ := List.mem_map.1 ha'
  split
  · exact ⟨g, hg, hsame⟩
  · exact ⟨x, hx, .refl x⟩

theorem accountsKept_storeLastCalcTxDate (P : Platform) {b : Book} {a : Account}
    (ha : a ∈ b.accounts) (sales : List Transaction) :
    AccountsKept b (storeLastCalcTxDate P b a sales) := by
  unfold storeLastCalcTxDate
  split
  · exact .refl b
  · split
    · exact accountsKept_updateAccount ha (setCOGSCalculationDate_same a _)
    · exact .refl b
    · split
      · exact accountsKept_updateAccount ha (setCOGSCalculationDate_same a _)
      · exact .refl b

/-! ## One calculation -/

section Calculation

variable {P : Platform} {collection : Option (List BookInfo)} {env : RunEnv} {s : State}
  {goodAccountId : String} {toDate : Option Date}

/-- A calculation that fires its batches. -/
theorem calculate_of_fire {goodAccount : Account} {sales : List Transaction}
    {processor : CalculateCostOfSalesProcessor}
    (hplan : planCalculation P collection env s goodAccountId toDate =
      .ok (.fire goodAccount sales processor)) :
    calculateCostOfSalesForAccount P collection env s goodAccountId toDate =
      ({ processor.fireBatchOperations env 3 (withCostOfSalesAccount env s) with
          inventoryBook := storeLastCalcTxDate P
            (processor.fireBatchOperations env 3 s).inventoryBook goodAccount sales },
        .returned .calculatingAsync) := by
  unfold calculateCostOfSalesForAccount
  rw [hplan]
  dsimp only
  rw [booksAfterPlan_fire hplan]
  rfl

/-- A calculation leaves the books alone but for the account of the cost of goods sold, resets a
    flagged account, or fires its batches. -/
theorem calculate_cases (P : Platform) (collection : Option (List BookInfo)) (env : RunEnv)
    (s : State) (goodAccountId : String) (toDate : Option Date) :
    (calculateCostOfSalesForAccount P collection env s goodAccountId toDate).1 = s ∨
      (calculateCostOfSalesForAccount P collection env s goodAccountId toDate).1 =
        withCostOfSalesAccount env s ∨
      (planCalculation P collection env s goodAccountId toDate = .ok .reset ∧
        (calculateCostOfSalesForAccount P collection env s goodAccountId toDate).1 =
          (resetCostOfSalesForAccount P collection s goodAccountId).1) ∨
      ∃ goodAccount sales processor,
        planCalculation P collection env s goodAccountId toDate =
            .ok (.fire goodAccount sales processor) ∧
          (calculateCostOfSalesForAccount P collection env s goodAccountId toDate).1 =
            { processor.fireBatchOperations env 3 (withCostOfSalesAccount env s) with
              inventoryBook := storeLastCalcTxDate P
                (processor.fireBatchOperations env 3 s).inventoryBook goodAccount sales } := by
  have hbooks := booksAfterPlan_cases P collection env s goodAccountId toDate
  unfold calculateCostOfSalesForAccount
  cases hplan : planCalculation P collection env s goodAccountId toDate with
  | error e => exact hbooks.imp id Or.inl
  | ok plan =>
    cases plan with
    | stop summary => exact hbooks.imp id Or.inl
    | reset =>
      refine Or.inr (Or.inr (Or.inl ⟨rfl, ?_⟩))
      dsimp only
      split <;> rename_i hreset <;> rw [hreset]
    | fire goodAccount sales processor =>
      refine Or.inr (Or.inr (Or.inr ⟨goodAccount, sales, processor, rfl, ?_⟩))
      dsimp only
      rw [booksAfterPlan_fire hplan]
      rfl

/-- The books after a calculation that fired, over the desk that its moves end with. -/
structure CalculationFires (P : Platform) (env : RunEnv) (s : State) (goodAccountId : String)
    (toDate : Date) (closes : ℚ → Prop) (goodAccount : Account) (d : Desk) (s' : State) :
    Prop where
  passed : Passed P s goodAccountId toDate goodAccount
  moves : Moves P env (costOfSalesBook env s) s.inventoryBook.info.fractionDigits goodAccount.name
    (BotService.getBeforeDateIsoString toDate) closes (Desk.start s.inventoryBook.transactions) d
  idle : d.current = none
  inventory : s'.inventoryBook.transactions =
    d.stored ++ Book.postAll env.inventoryId env.now d.created
  financial : s'.financialBook.transactions =
    s.financialBook.transactions ++ Book.postAll env.financialId env.now d.posted
  info : s'.inventoryBook.info = s.inventoryBook.info
  accounts : AccountsKept s.inventoryBook s'.inventoryBook
  financialAccounts : s'.financialBook.accounts = (costOfSalesBook env s).accounts
  account : ∃ a, s'.inventoryBook.getAccount goodAccountId = some a ∧ SameAccount goodAccount a ∧
    GoodAccount.needsRebuild a = false

theorem storeLastCalcTxDate_info (b : Book) (a : Account) (sales : List Transaction) :
    (storeLastCalcTxDate P b a sales).info = b.info := by
  unfold storeLastCalcTxDate
  split
  · rfl
  · split
    · rfl
    · rfl
    · split <;> rfl

/-- Up to its batches, a calculation that fires is a sequence of moves. -/
theorem planCalculation_moves (closes : ℚ → Prop) {goodAccount : Account} {sales : List Transaction}
    {processor : CalculateCostOfSalesProcessor} (hwf : WellFormed s.inventoryBook)
    (hfresh : env.Fresh s)
    (hplan : planCalculation P collection env s goodAccountId toDate =
      .ok (.fire goodAccount sales processor))
    (henough : ∀ purchases processor₁, processCreditNotes P
        (listingOf P s.inventoryBook goodAccount
          (toDate.getD env.today)).goodAccountCreditNoteTransactionsMap.entries
        (listingOf P s.inventoryBook goodAccount
          (toDate.getD env.today)).goodAccountPurchaseTransactionsMap {} =
          .ok (.done purchases processor₁) →
      Enough closes (listingOf P s.inventoryBook goodAccount
        (toDate.getD env.today)).goodAccountSaleTransactions purchases.values) :
    Passed P s goodAccountId (toDate.getD env.today) goodAccount ∧
      ∃ d, Moves P env (costOfSalesBook env s) s.inventoryBook.info.fractionDigits goodAccount.name
          (BotService.getBeforeDateIsoString (toDate.getD env.today)) closes
          (Desk.start s.inventoryBook.transactions) d ∧ d.current = none ∧
        Coherent env s.inventoryBook.transactions (creditNoteNumbers s.inventoryBook) processor d := by
  obtain ⟨hpassed, hlisting⟩ := planCalculation_fire hplan
  have hkind : ∀ t ∈ s.inventoryBook.transactions, t.moves goodAccount.name → OneKind t :=
    fun t ht hm => hwf.oneKind hpassed.account hpassed.notIncoming hpassed.notOutgoing ht hm
  exact ⟨hpassed, planListing_moves hwf.ids hkind hfresh.uuids hlisting henough⟩

/-- A calculation that fires makes the books what its desk shows. -/
theorem calculation_fires (closes : ℚ → Prop) {goodAccount : Account} {sales : List Transaction}
    {processor : CalculateCostOfSalesProcessor} (hwf : WellFormed s.inventoryBook)
    (hfresh : env.Fresh s)
    (hplan : planCalculation P collection env s goodAccountId toDate =
      .ok (.fire goodAccount sales processor))
    (henough : ∀ purchases processor₁, processCreditNotes P
        (listingOf P s.inventoryBook goodAccount
          (toDate.getD env.today)).goodAccountCreditNoteTransactionsMap.entries
        (listingOf P s.inventoryBook goodAccount
          (toDate.getD env.today)).goodAccountPurchaseTransactionsMap {} =
          .ok (.done purchases processor₁) →
      Enough closes (listingOf P s.inventoryBook goodAccount
        (toDate.getD env.today)).goodAccountSaleTransactions purchases.values) :
    ∃ d, CalculationFires P env s goodAccountId (toDate.getD env.today) closes goodAccount d
      (calculateCostOfSalesForAccount P collection env s goodAccountId toDate).1 := by
  obtain ⟨hpassed, d, hmoves, hidle, hcoherent⟩ :=
    planCalculation_moves closes hwf hfresh hplan henough
  obtain ⟨hinventory, hfinancial⟩ := fireBatchOperations_desk hcoherent hfresh.inventoryIds
  have hresult : (calculateCostOfSalesForAccount P collection env s goodAccountId toDate).1 =
      { processor.fireBatchOperations env 3 (withCostOfSalesAccount env s) with
        inventoryBook := storeLastCalcTxDate P
          (processor.fireBatchOperations env 3 s).inventoryBook goodAccount sales } := by
    rw [calculate_of_fire hplan]
  have haccount : (processor.fireBatchOperations env 3 s).inventoryBook.getAccount goodAccountId =
      some goodAccount := hpassed.account
  obtain ⟨a, ha, hsame, hrebuild⟩ := storeLastCalcTxDate_account (P := P) sales haccount
  rw [hresult]
  exact ⟨d, hpassed, hmoves, hidle, (storeLastCalcTxDate_transactions _ _ _).trans hinventory,
    hfinancial, storeLastCalcTxDate_info _ _ _,
    accountsKept_storeLastCalcTxDate P (b := (processor.fireBatchOperations env 3 s).inventoryBook)
      (Book.mem_of_getAccount haccount) sales,
    rfl, a, ha, hsame, hrebuild.trans hpassed.current⟩

/-- Every transaction is still there after a calculation. -/
theorem CalculationFires.forward {closes : ℚ → Prop} {goodAccount : Account} {d : Desk}
    {s' : State} {toDate : Date} (hwf : WellFormed s.inventoryBook)
    (h : CalculationFires P env s goodAccountId toDate closes goodAccount d s') {t : Transaction}
    (ht : t ∈ s.inventoryBook.transactions) :
    ∃ t' ∈ s'.inventoryBook.transactions, SameIdentity t t' := by
  have hid : t.id ∈ d.stored.map Transaction.id := by
    rw [h.moves.ids]
    exact List.mem_map_of_mem ht
  obtain ⟨t', ht', hid⟩ := List.mem_map.1 hid
  obtain ⟨u, hu, htrace⟩ := h.moves.stored_trace t' ht'
  have hsame := sameIdentity_of_trace htrace
  obtain rfl : u = t := List.inj_on_of_nodup_map hwf.ids hu ht (hsame.id.symm.trans hid)
  refine ⟨t', ?_, hsame⟩
  rw [h.inventory]
  exact List.mem_append_left _ ht'

/-- A transaction shows its accounts as they are in `accounts`. -/
def RefsKnown (accounts : List Account) (t : Transaction) : Prop :=
  ∀ r ∈ t.refs, ∀ a ∈ accounts, r.name = a.name → r.type = a.type

theorem RefsKnown.congr {accounts : List Account} {t u : Transaction} (h : RefsKnown accounts t)
    (hc : u.creditAccount = t.creditAccount) (hd : u.debitAccount = t.debitAccount) :
    RefsKnown accounts u := by
  intro r hr
  rw [Transaction.refs, hc, hd] at hr
  exact h r hr

/-- What holds of the inventory transactions before a calculation, and is kept when one is
    rewritten, split off or posted, holds of them afterwards. -/
theorem CalculationFires.forall_rows {closes : ℚ → Prop} {goodAccount : Account} {d : Desk}
    {s' : State} {toDate : Date} {Q : Transaction → Prop}
    (hwritten : ∀ p t, Written P p t → Q p → Q t) (hsplit : ∀ p t, SplitFrom P p t → Q p → Q t)
    (hpost : ∀ id t, Q t → Q (Book.post id env.now t))
    (h : CalculationFires P env s goodAccountId toDate closes goodAccount d s')
    (hs : ∀ t ∈ s.inventoryBook.transactions, Q t) : ∀ t ∈ s'.inventoryBook.transactions, Q t := by
  have hdesk := h.moves.forall_rows hwritten hsplit (fun t ht => ht.elim (hs t) (by simp [Desk.start]))
  intro t ht
  rw [h.inventory, List.mem_append] at ht
  rcases ht with ht | ht
  · exact hdesk t (Or.inl ht)
  · obtain ⟨k, u, hu, rfl⟩ := Book.mem_postAll ht
    exact hpost _ _ (hdesk u (Or.inr hu))

theorem isPurchase_post (id : String) (now : ℕ) {p t : Transaction} (h : IsSplit p t)
    (hp : BotService.isPurchase p) : BotService.isPurchase (Book.post id now t) := by
  obtain ⟨-, r, hr, htype⟩ := isPurchase_iff.1 hp
  exact isPurchase_iff.2 ⟨rfl, r, h.creditAccount.trans hr, htype⟩

/-- What a calculation is going to create are splits of stored purchases. -/
theorem created_split {fb : Book} {digits : ℕ} {account : String} {before : Date}
    {closes : ℚ → Prop} {store : List Transaction} {d : Desk}
    (h : Moves P env fb digits account before closes (Desk.start store) d) {u : Transaction}
    (hu : u ∈ d.created) : ∃ p ∈ store, IsSplit p u ∧ BotService.isPurchase p := by
  rcases h.created_trace u hu with hstart | ⟨p, hp, p', hsame, hsplit⟩
  · cases hstart
  · have hs := hsplit.isSplit
    refine ⟨p, hp, ⟨hs.creditAccount.trans hsame.creditAccount,
      hs.debitAccount.trans hsame.debitAccount, hs.date.trans hsame.date, ?_, hs.checked,
      hs.originalQuantity, hs.goodPurchaseCost, hs.purchaseLog, hs.additionalCosts⟩,
      hsame.isPurchase ▸ hsplit.isPurchase⟩
    rw [hs.parentId, hsame.id]

/-- A transaction after a calculation was stored before, or is a split of one that was. -/
theorem CalculationFires.mem_cases {closes : ℚ → Prop} {goodAccount : Account} {d : Desk}
    {s' : State} {toDate : Date}
    (h : CalculationFires P env s goodAccountId toDate closes goodAccount d s') {t' : Transaction}
    (ht' : t' ∈ s'.inventoryBook.transactions) :
    (t' ∈ d.stored ∧ ∃ t ∈ s.inventoryBook.transactions, Relation.ReflTransGen (Written P) t t') ∨
      ∃ k, ∃ u ∈ d.created, t' = Book.post (env.inventoryId k) env.now u ∧
        ∃ p ∈ s.inventoryBook.transactions, IsSplit p u ∧ BotService.isPurchase p := by
  rw [h.inventory, List.mem_append] at ht'
  rcases ht' with ht' | ht'
  · exact Or.inl ⟨ht', h.moves.stored_trace t' ht'⟩
  · obtain ⟨k, u, hu, rfl⟩ := Book.mem_postAll ht'
    obtain ⟨p, hp, hsplit, hkind⟩ := created_split h.moves hu
    exact Or.inr ⟨k, u, hu, rfl, p, hp, hsplit, hkind⟩

/-- What a calculation created is split off. -/
theorem CalculationFires.created_parent {closes : ℚ → Prop} {goodAccount : Account} {d : Desk}
    {s' : State} {toDate : Date}
    (h : CalculationFires P env s goodAccountId toDate closes goodAccount d s') :
    ∀ t ∈ d.created, t.parentId ≠ none := by
  intro t ht hnone
  obtain ⟨p, -, hsplit, -⟩ := created_split h.moves ht
  rw [hsplit.parentId] at hnone
  cases hnone

/-- The books stay well formed. -/
theorem CalculationFires.wellFormed {closes : ℚ → Prop} {goodAccount : Account} {d : Desk}
    {s' : State} {toDate : Date} (hwf : WellFormed s.inventoryBook) (hfresh : env.Fresh s)
    (h : CalculationFires P env s goodAccountId toDate closes goodAccount d s') :
    WellFormed s'.inventoryBook := by
  refine ⟨?_, ?_⟩
  · rw [h.inventory]
    have hids := h.moves.ids
    refine Book.nodup_append_postAll (hids ▸ hwf.ids) ⟨hfresh.inventoryIds.injective, ?_⟩
    intro k hk
    exact hfresh.inventoryIds.new k (List.mem_cons_of_mem _ (hids ▸ hk))
  · intro t ht r hr a' ha' hname
    have hknown : RefsKnown s.inventoryBook.accounts t := by
      refine h.forall_rows (Q := RefsKnown s.inventoryBook.accounts) (fun p t hw hp => ?_)
        (fun p t hs hp => ?_) (fun id t ht => ?_) (fun t ht r hr => hwf.refs t ht r hr) t ht
      · exact RefsKnown.congr hp hw.sameIdentity.creditAccount hw.sameIdentity.debitAccount
      · exact RefsKnown.congr hp hs.isSplit.creditAccount hs.isSplit.debitAccount
      · exact RefsKnown.congr ht rfl rfl
    obtain ⟨a, ha, hsame⟩ := h.accounts a' ha'
    rw [hsame.type]
    exact hknown r hr a ha (hname.trans hsame.name)

end Calculation

/-! ## One reset -/

section Reset

variable {P : Platform} {collection : Option (List BookInfo)} {s : State} {goodAccountId : String}

/-- The books after a reset that fired its batches. -/
structure ResetDone (P : Platform) (s : State) (goodAccountId : String) (goodAccount : Account)
    (s' : State) : Prop where
  account : s.inventoryBook.getAccount goodAccountId = some goodAccount
  inventory : s'.inventoryBook.transactions = (s.inventoryBook.transactions.filter fun t =>
    !(t.moves goodAccount.name && resetTrash t)).map (resetRow P goodAccount.name)
  cleared : s'.inventoryBook.getAccount goodAccountId = some (clearAccount goodAccount)
  accounts : AccountsKept s.inventoryBook s'.inventoryBook
  info : s'.inventoryBook.info = s.inventoryBook.info
  loop : ∃ processor, (s.inventoryBook.transactions.filter
      (·.moves goodAccount.name)).foldlM (resetTransaction P s.financialBook) {} = .ok processor ∧
    s'.financialBook = s.financialBook.batchTrashTransactions
      processor.financialBookTransactionsToTrashMap.values

theorem planReset_stop {summary : Summary}
    (h : planReset P collection s goodAccountId = .ok (.stop summary)) :
    summary = .nothingToCalculate ∨ summary = .lockError := by
  unfold planReset at h
  obtain ⟨⟨a, book⟩, -, h⟩ := bind_eq_ok.1 h
  simp only at h
  split at h
  · cases h
    exact Or.inl rfl
  · obtain ⟨processor, -, h⟩ := bind_eq_ok.1 h
    split at h
    · cases h
      exact Or.inr rfl
    · cases h

/-- A reset leaves the books alone or fires its batches. -/
theorem reset_cases (collection : Option (List BookInfo)) (goodAccountId : String)
    (hids : (s.inventoryBook.transactions.map Transaction.id).Nodup) :
    ((resetCostOfSalesForAccount P collection s goodAccountId).1 = s ∧
        (resetCostOfSalesForAccount P collection s goodAccountId).2 ≠ .returned .resetingAsync) ∨
      ((resetCostOfSalesForAccount P collection s goodAccountId).2 = .returned .resetingAsync ∧
        ∃ goodAccount, ResetDone P s goodAccountId goodAccount
          (resetCostOfSalesForAccount P collection s goodAccountId).1) := by
  unfold resetCostOfSalesForAccount
  cases hplan : planReset P collection s goodAccountId with
  | error e => exact Or.inl ⟨rfl, by simp⟩
  | ok plan =>
    cases plan with
    | stop summary =>
      refine Or.inl ⟨rfl, ?_⟩
      rcases planReset_stop hplan with rfl | rfl <;> simp
    | fire goodAccount processor =>
      have hfires := planReset_fire hplan
      refine Or.inr ⟨rfl, goodAccount, hfires.account, fireBatchOperations_three_rows hfires hids,
        ?_, ?_, rfl, processor, hfires.loop, rfl⟩
      · exact getAccount_updateAccount (b := (processor.fireBatchOperations 3 s).inventoryBook)
          hfires.account rfl rfl
      · exact accountsKept_updateAccount (b := (processor.fireBatchOperations 3 s).inventoryBook)
          (Book.mem_of_getAccount hfires.account) (clearAccount_same goodAccount)

/-- A transaction after a reset comes from one that was not trashed. -/
theorem ResetDone.mem {goodAccount : Account} {s' : State}
    (h : ResetDone P s goodAccountId goodAccount s') {t' : Transaction}
    (ht' : t' ∈ s'.inventoryBook.transactions) : ∃ t ∈ s.inventoryBook.transactions,
      (t.moves goodAccount.name → resetTrash t = false) ∧ t' = resetRow P goodAccount.name t := by
  rw [h.inventory] at ht'
  obtain ⟨t, ht, rfl⟩ := List.mem_map.1 ht'
  obtain ⟨ht, hkept⟩ := List.mem_filter.1 ht
  refine ⟨t, ht, fun hmoves => ?_, rfl⟩
  simpa [hmoves] using hkept

/-- A transaction that was not split off is still there after a reset. -/
theorem ResetDone.forward {goodAccount : Account} {s' : State}
    (h : ResetDone P s goodAccountId goodAccount s') {t : Transaction}
    (ht : t ∈ s.inventoryBook.transactions) (hparent : t.parentId = none) :
    ∃ t' ∈ s'.inventoryBook.transactions, SameIdentity t t' := by
  have hkept : resetTrash t = false := by
    have hnone : truthy t.parentId = false := by
      rw [hparent]
      rfl
    simp [resetTrash, hnone]
  refine ⟨resetRow P goodAccount.name t, ?_, resetRow_sameIdentity P goodAccount.name t⟩
  rw [h.inventory]
  exact List.mem_map_of_mem (List.mem_filter.2 ⟨ht, by simp [hkept]⟩)

theorem ResetDone.ids {goodAccount : Account} {s' : State}
    (h : ResetDone P s goodAccountId goodAccount s') :
    (s'.inventoryBook.transactions.map Transaction.id).Sublist
      (s.inventoryBook.transactions.map Transaction.id) := by
  rw [h.inventory, List.map_map]
  have hid : (Transaction.id ∘ resetRow P goodAccount.name) = Transaction.id :=
    funext fun t => resetRow_id P goodAccount.name t
  rw [hid]
  exact List.Sublist.map _ List.filter_sublist

/-- The books stay well formed. -/
theorem ResetDone.wellFormed {goodAccount : Account} {s' : State} (hwf : WellFormed s.inventoryBook)
    (h : ResetDone P s goodAccountId goodAccount s') : WellFormed s'.inventoryBook := by
  refine ⟨hwf.ids.sublist h.ids, ?_⟩
  intro t' ht' r hr a' ha' hname
  obtain ⟨t, ht, -, rfl⟩ := h.mem ht'
  obtain ⟨a, ha, hsame⟩ := h.accounts a' ha'
  have hrow := resetRow_sameIdentity P goodAccount.name t
  rw [Transaction.refs, hrow.creditAccount, hrow.debitAccount] at hr
  rw [hsame.type]
  exact hwf.refs t ht r hr a ha (hname.trans hsame.name)

end Reset

/-! ## Completed calculations -/

/-- A completed calculation of an account. -/
inductive Calculates (P : Platform) (collection : Option (List BookInfo)) (goodAccountId : String) :
    State → State → Prop
  | run {s : State} (env : RunEnv) (toDate : Option Date) (hfresh : env.Fresh s) :
      Calculates P collection goodAccountId s
        (calculateCostOfSalesForAccount P collection env s goodAccountId toDate).1

section Calculates

variable {P : Platform} {collection : Option (List BookInfo)} {goodAccountId : String}
  {s s' : State}

theorem planCalculation_reset {env : RunEnv} {toDate : Option Date}
    (h : planCalculation P collection env s goodAccountId toDate = .ok .reset) :
    ∃ goodAccount, s.inventoryBook.getAccount goodAccountId = some goodAccount ∧
      GoodAccount.needsRebuild goodAccount = true := by
  unfold planCalculation at h
  obtain ⟨⟨a, book⟩, hopen, h⟩ := bind_eq_ok.1 h
  obtain ⟨haccount, -⟩ := openAccount_ok hopen
  simp only at h
  split at h
  · rename_i hrebuild
    exact ⟨a, haccount, hrebuild⟩
  · split at h
    · cases h
    · split at h
      · cases h
      · split at h
        · cases h
        · unfold planListing at h
          obtain ⟨result, -, h⟩ := bind_eq_ok.1 h
          cases result with
          | stop => cases h
          | done purchases processor =>
            obtain ⟨result, -, h⟩ := bind_eq_ok.1 h
            cases result <;> cases h

/-- A completed calculation changes nothing but the account of the cost of goods sold, resets a
    flagged account, or fires its batches. -/
theorem Calculates.cases (h : Calculates P collection goodAccountId s s')
    (hwf : WellFormed s.inventoryBook) :
    (s' = s ∨ ∃ env, s' = withCostOfSalesAccount env s) ∨
      (∃ goodAccount, GoodAccount.needsRebuild goodAccount = true ∧
        ResetDone P s goodAccountId goodAccount s') ∨
      ∃ env toDate goodAccount d, RunEnv.Fresh env s ∧
        CalculationFires P env s goodAccountId toDate (fun _ => True) goodAccount d s' := by
  cases h with
  | run env toDate hfresh =>
    rcases calculate_cases P collection env s goodAccountId toDate with
      hsame | hsame | ⟨hplan, hreset⟩ | ⟨goodAccount, sales, processor, hplan, -⟩
    · exact Or.inl (Or.inl hsame)
    · exact Or.inl (Or.inr ⟨env, hsame⟩)
    · obtain ⟨a, ha, hflag⟩ := planCalculation_reset hplan
      rcases reset_cases (P := P) collection goodAccountId hwf.ids with
        ⟨hsame, -⟩ | ⟨-, goodAccount, hdone⟩
      · exact Or.inl (Or.inl (hreset.trans hsame))
      · refine Or.inr (Or.inl ⟨goodAccount, ?_, hreset ▸ hdone⟩)
        obtain rfl : a = goodAccount := Option.some.inj (ha.symm.trans hdone.account)
        exact hflag
    · obtain ⟨d, hfires⟩ := calculation_fires (fun _ => True) hwf hfresh hplan
        fun _ _ _ => Or.inl fun _ => trivial
      exact Or.inr (Or.inr ⟨env, _, goodAccount, d, hfresh, hfires⟩)

end Calculates

/-! ## A small account

A purchase of ten and a sale of four, as the webhook posts them, for concrete runs. -/

namespace Sample

def widgets : AccountRef := ⟨"a-widgets", "Widgets", .asset⟩

def buy : AccountRef := ⟨"a-buy", "Buy", .incoming⟩

def sell : AccountRef := ⟨"a-sell", "Sell", .outgoing⟩

def good : Account :=
  { id := widgets.id, name := widgets.name, type := widgets.type,
    groups := [{ name := "Goods", properties := OrderedMap.set ∅ excCodeProp "USD" }] }

def collection : Option (List BookInfo) :=
  some [{ id := "b-usd", name := "Dollars", excCode := some "USD", fractionDigits := 2 },
    { id := "b-inv", name := "Inventory", fractionDigits := 0 }]

/-- A purchase as the webhook posts it. -/
def purchase (id code : String) (date : Date) (quantity cost : ℚ) : Transaction :=
  { id := id, date := date, createdAt := some 0, amount := quantity, creditAccount := some buy,
    debitAccount := some widgets, remoteIds := [id], agentId := some "inventory-bot",
    excCode := some "USD", goodPurchaseCost := some cost, originalQuantity := some quantity,
    purchaseCode := some code,
    totalCost := some cost }

/-- A sale as the webhook posts it. -/
def sale (id invoice : String) (date : Date) (quantity amount : ℚ) : Transaction :=
  { id := id, date := date, createdAt := some 0, amount := quantity, creditAccount := some widgets,
    debitAccount := some sell, remoteIds := [id], agentId := some "inventory-bot",
    excCode := some "USD", saleAmount := some amount, saleInvoice := some invoice }

/-- A credit note as the webhook posts it. -/
def creditNote (id number code : String) (date : Date) (quantity : ℚ) : Transaction :=
  { id := id, date := date, createdAt := some 0, amount := quantity, creditAccount := some widgets,
    debitAccount := some buy, remoteIds := [id], agentId := some "inventory-bot",
    excCode := some "USD", creditNote := some number, purchaseCode := some code }

/-- The books with some transactions of the account. -/
def state (inventory financial : List Transaction) : State where
  inventoryBook :=
    { info := { id := "b-inv", name := "Inventory", fractionDigits := 0 }, accounts := [good],
      transactions := inventory }
  financialBook :=
    { info := { id := "b-usd", name := "Dollars", excCode := some "USD", fractionDigits := 2 },
      accounts := [{ id := "f-widgets", name := "Widgets", type := .asset }],
      transactions := financial }

/-- A cost in the financial book that is linked to a purchase by its code. -/
def additionalCost (id invoice code : String) (date : Date) (amount : ℚ) : Transaction :=
  { id := id, checked := true, date := date, createdAt := some 0, amount := amount,
    creditAccount := some ⟨"f-bank", "Bank", .asset⟩,
    debitAccount := some ⟨"f-widgets", "Widgets", .asset⟩, purchaseCode := some code,
    purchaseInvoice := some invoice }

def start : State :=
  state [purchase "1" "P1" 1 10 100, sale "2" "S1" 2 4 80] [additionalCost "9" "T1" "P1" 1 20]

def env (today : Date) : RunEnv where
  today := today
  now := 1
  uuid := Book.unaryId 'u'
  inventoryId := Book.unaryId 'i'
  financialId := Book.unaryId 'f'
  cogsAccountId := "f-cogs"

theorem env_fresh : (env 9).Fresh start :=
  ⟨Book.freshIds_unaryId (by decide), Book.freshIds_unaryId (by decide),
    Book.freshIds_unaryId (by decide)⟩

theorem start_wellFormed : WellFormed start.inventoryBook := ⟨by decide, by decide⟩

theorem getAccount_start : start.inventoryBook.getAccount good.id = some good := by
  rfl

end Sample

end InventoryBot.Menu
