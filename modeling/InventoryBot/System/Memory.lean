import InventoryBot.Events.Index
import InventoryBot.System.Views

/-!
# What an account remembers

The flag `needs_rebuild` and the date `cogs_calc_date` of a good account are properties that only
a reset may take back.

* `Remembers`: the flag of an account is kept, and its date is neither removed nor lowered.
* `Overwrites`: a checked purchase writes the properties of the financial account over those of an
  account of the inventory book.
* `only_reset_forgets_iff`: along which histories every account remembers until it is reset.
-/

namespace InventoryBot.System

open Lib Menu Events CostOfSalesService

/-! ## Remembering -/

/-- The calculation date is neither removed nor lowered. -/
def DateKept (P : Platform) (a a' : Account) : Prop :=
  ∀ value, GoodAccount.getCOGSCalculationDateValue P a = some value →
    ∃ value', GoodAccount.getCOGSCalculationDateValue P a' = some value' ∧
      ∀ date, value = some date → ∃ date', value' = some date' ∧ date ≤ date'

/-- The flag is kept, and the calculation date is neither removed nor lowered. -/
structure Remembers (P : Platform) (a a' : Account) : Prop where
  flag : GoodAccount.needsRebuild a = true → GoodAccount.needsRebuild a' = true
  date : DateKept P a a'

/-- The account with an id remembers from one state to another. -/
def RemembersAt (P : Platform) (accountId : String) (s s' : State) : Prop :=
  ∀ a, s.inventoryBook.getAccount accountId = some a →
    ∃ a', s'.inventoryBook.getAccount accountId = some a' ∧ Remembers P a a'

section Remembers

variable {P : Platform} {a a' a'' : Account}

theorem dateKept_of_eq (h : GoodAccount.getCOGSCalculationDateValue P a' =
    GoodAccount.getCOGSCalculationDateValue P a) : DateKept P a a' := fun value hvalue =>
  ⟨value, h.trans hvalue, fun date hdate => ⟨date, hdate, le_rfl⟩⟩

theorem DateKept.trans (h : DateKept P a a') (h' : DateKept P a' a'') : DateKept P a a'' := by
  intro value hvalue
  obtain ⟨value', hvalue', hle⟩ := h value hvalue
  obtain ⟨value'', hvalue'', hle'⟩ := h' value' hvalue'
  refine ⟨value'', hvalue'', fun date hdate => ?_⟩
  obtain ⟨date', hdate', hdates⟩ := hle date hdate
  obtain ⟨date'', hdate'', hdates'⟩ := hle' date' hdate'
  exact ⟨date'', hdate'', hdates.trans hdates'⟩

theorem Remembers.trans (h : Remembers P a a') (h' : Remembers P a' a'') : Remembers P a a'' :=
  ⟨fun hflag => h'.flag (h.flag hflag), h.date.trans h'.date⟩

theorem calculationDate_congr (P : Platform) (h : a'.properties = a.properties) :
    GoodAccount.getCOGSCalculationDateValue P a' = GoodAccount.getCOGSCalculationDateValue P a := by
  unfold GoodAccount.getCOGSCalculationDateValue GoodAccount.getCOGSCalculationDate
  rw [h]

theorem remembers_of_properties (h : a'.properties = a.properties) : Remembers P a a' :=
  ⟨fun hflag => (needsRebuild_congr h).trans hflag, dateKept_of_eq (calculationDate_congr P h)⟩

/-- Remembering is about the properties only. -/
theorem remembers_congr {b b' : Account} (h : b.properties = a.properties)
    (h' : b'.properties = a'.properties) : Remembers P b b' ↔ Remembers P a a' :=
  ⟨fun hr => (remembers_of_properties h).trans (hr.trans (remembers_of_properties h'.symm)),
    fun hr => (remembers_of_properties h.symm).trans (hr.trans (remembers_of_properties h'))⟩

/-- The flag leaves the calculation date alone. -/
theorem calculationDate_setNeedsRebuild (P : Platform) (a : Account) :
    GoodAccount.getCOGSCalculationDateValue P (Events.BotService.setNeedsRebuild a) =
      GoodAccount.getCOGSCalculationDateValue P a := by
  have hne : cogsCalcDateProp ≠ needsRebuildProp := by decide
  unfold GoodAccount.getCOGSCalculationDateValue GoodAccount.getCOGSCalculationDate
    Events.BotService.setNeedsRebuild
  rw [OrderedMap.get_set_of_ne _ _ hne]

theorem remembers_setNeedsRebuild (P : Platform) (a : Account) :
    Remembers P a (Events.BotService.setNeedsRebuild a) :=
  ⟨fun _ => needsRebuild_setNeedsRebuild a, dateKept_of_eq (calculationDate_setNeedsRebuild P a)⟩

/-- The text of a date is read back as the date. -/
def ReadsDates (P : Platform) : Prop :=
  ∀ date, P.dateText date ≠ "" ∧ P.dateNumber (P.dateText date) = some date

/-- The date that a calculation writes is later than the stored one. -/
theorem remembers_movedDate (hdates : ReadsDates P) {sales : List Transaction} {date : Date}
    (h : movedDate P a sales = some date) :
    Remembers P a (GoodAccount.setCOGSCalculationDate a (P.dateText date)) := by
  have hne : needsRebuildProp ≠ cogsCalcDateProp := by decide
  have hstored : GoodAccount.getCOGSCalculationDateValue P
      (GoodAccount.setCOGSCalculationDate a (P.dateText date)) = some (some date) := by
    simp [GoodAccount.getCOGSCalculationDateValue, GoodAccount.getCOGSCalculationDate,
      GoodAccount.setCOGSCalculationDate, truthy, hdates date]
  refine ⟨fun hflag => ?_, fun value hvalue => ⟨_, hstored, fun old hold => ⟨date, rfl, ?_⟩⟩⟩
  · unfold GoodAccount.needsRebuild GoodAccount.setCOGSCalculationDate at *
    rwa [OrderedMap.get_set_of_ne _ _ hne]
  · unfold movedDate at h
    rw [hvalue, hold] at h
    cases hlast : sales.getLast? with
    | none =>
      rw [hlast] at h
      cases h
    | some lastSaleTx =>
      rw [hlast] at h
      dsimp only at h
      split at h
      · rename_i hlt
        rw [← Option.some.inj h]
        exact hlt.le
      · cases h

end Remembers

/-! ## The accounts after a step -/

/-- The book stores the account, and the account remembers. -/
def KeptIn (P : Platform) (b' : Book) (a : Account) : Prop :=
  ∃ a' ∈ b'.accounts, a'.ref = a.ref ∧ Remembers P a a'

section KeptIn

variable {P : Platform} {b b' b'' : Book} {a : Account}

theorem keptIn_of_mem (h : a ∈ b.accounts) : KeptIn P b a :=
  ⟨a, h, rfl, remembers_of_properties rfl⟩

theorem KeptIn.trans (h : KeptIn P b' a)
    (h' : ∀ x ∈ b'.accounts, x.ref = a.ref → KeptIn P b'' x) : KeptIn P b'' a := by
  obtain ⟨a', ha', href, hremembers⟩ := h
  obtain ⟨a'', ha'', href', hremembers'⟩ := h' a' ha' href
  exact ⟨a'', ha'', href'.trans href, hremembers.trans hremembers'⟩

theorem mem_updateAccount_self (ha : a ∈ b.accounts) {v : Account} (hid : a.id = v.id) :
    v ∈ (b.updateAccount v).accounts :=
  List.mem_map.2 ⟨a, ha, if_pos hid⟩

/-- An account of the book is written back with a change that it remembers through. -/
theorem keptIn_updateAccount (hb : Distinct b) (ha : a ∈ b.accounts) {v v' : Account}
    (hv : v ∈ b.accounts) (href : v'.ref = v.ref) (hremembers : Remembers P v v') :
    KeptIn P (b.updateAccount v') a := by
  have hid : v'.id = v.id := congrArg AccountRef.id href
  by_cases hsame : a.id = v.id
  · obtain rfl : a = v := eq_of_id hb.accountIds ha hv hsame
    exact ⟨v', mem_updateAccount_self ha hid.symm, href, hremembers⟩
  · exact keptIn_of_mem ((mem_updateAccount_iff (hid ▸ hsame)).2 ha)

theorem keptIn_setNeedsRebuild (hb : Distinct b) (ha : a ∈ b.accounts) {v : Account}
    (hv : v ∈ b.accounts) : KeptIn P (b.updateAccount (Events.BotService.setNeedsRebuild v)) a :=
  keptIn_updateAccount hb ha hv rfl (remembers_setNeedsRebuild P v)

end KeptIn

/-! ## Replication -/

section Replication

variable {P : Platform} {env : EventEnv} {b b₁ : Book} {a good : Account}

theorem mem_getOrCreateAccount (ha : a ∈ b.accounts) (name : String) (type : AccountType) :
    a ∈ (getOrCreateAccount env b name type).1.accounts := by
  unfold getOrCreateAccount
  split
  · exact ha
  · exact List.mem_append_left _ ha

theorem postAndCheck_book (P : Platform) (env : EventEnv) (b : Book) (good : Account)
    (new t : Transaction) :
    (postAndCheck P env b good new t).1 =
      let posted := { b with
        transactions := b.transactions ++ [Book.post env.transactionId env.now new] }
      if Events.BotService.calculated P good t.date = true then
        posted.updateAccount (Events.BotService.setNeedsRebuild good)
      else posted := by
  simp only [postAndCheck, checkLastTxDate]
  split <;> rfl

variable (P env good) in
/-- The accounts after the check that follows a post: another account than the one that the
    handler holds stays, and that one is stored as it was or as the handler holds it, flagged. -/
theorem mem_postAndCheck (build : Account → Transaction) (name : String) (type : AccountType)
    (t : Transaction) (ha : a ∈ b₁.accounts) :
    let found := getOrCreateAccount env b₁ name type
    let b' := (postAndCheck P env found.1 good (build found.2) t).1
    (a.id ≠ good.id → a ∈ b'.accounts) ∧
      (a.id = good.id → (if Events.BotService.calculated P good t.date = true then
        Events.BotService.setNeedsRebuild good else a) ∈ b'.accounts) := by
  intro found b'
  have hmem : a ∈ ({ found.1 with transactions := found.1.transactions ++
      [Book.post env.transactionId env.now (build found.2)] } : Book).accounts :=
    mem_getOrCreateAccount ha name type
  have hbook : b' = _ := postAndCheck_book P env found.1 good (build found.2) t
  rw [hbook]
  dsimp only
  by_cases hcalculated : Events.BotService.calculated P good t.date = true
  · rw [if_pos hcalculated, if_pos hcalculated]
    refine ⟨fun hne => ?_, fun hid => mem_updateAccount_self hmem hid⟩
    exact (mem_updateAccount_iff (a := Events.BotService.setNeedsRebuild good) hne).2 hmem
  · rw [if_neg hcalculated, if_neg hcalculated]
    exact ⟨fun _ => hmem, fun _ => hmem⟩

/-- Posting a copy with an account of the book, all accounts remember. -/
theorem keptIn_postAndCheck (build : Account → Transaction) (name : String) (type : AccountType)
    (t : Transaction) (hb₁ : Distinct b₁) (hgood : good ∈ b₁.accounts) (ha : a ∈ b₁.accounts) :
    let found := getOrCreateAccount env b₁ name type
    KeptIn P (postAndCheck P env found.1 good (build found.2) t).1 a := by
  intro found
  obtain ⟨hother, hsame⟩ := mem_postAndCheck P env good build name type t ha
  by_cases hid : a.id = good.id
  · obtain rfl : a = good := eq_of_id hb₁.accountIds ha hgood hid
    have hstored := hsame rfl
    split at hstored
    · exact ⟨_, hstored, rfl, remembers_setNeedsRebuild P a⟩
    · exact keptIn_of_mem hstored
  · exact keptIn_of_mem (hother hid)

/-- The account of a good as the check of a purchase leaves it: the properties of the financial
    account, or those that the handler compares with, flagged. -/
def bought (P : Platform) (inventoryAccount financialAccount : Account) (date : Date) : Account :=
  let synced := { inventoryAccount with properties := financialAccount.properties }
  let view := if P.sharesAccounts then synced else inventoryAccount
  if Events.BotService.calculated P view date = true then Events.BotService.setNeedsRebuild view
  else synced

theorem mem_createAccount (ha : a ∈ b.accounts) (new : Account) :
    a ∈ (createAccount b new).accounts := List.mem_append_left _ ha

/-- The branch of a sale. -/
theorem sell_kept {b' : Book} {response : Response} {quantity : ℚ} {t : Payload}
    {goodExcCode : Option String} (hb : Distinct b) (hfresh : EventFresh env b)
    (h : sell P env b quantity t goodExcCode = .ok (b', response)) (ha : a ∈ b.accounts) :
    KeptIn P b' a := by
  have hpost : ∀ b₁ good, Distinct b₁ → good ∈ b₁.accounts → a ∈ b₁.accounts →
      (let found := getOrCreateAccount env b₁ goodSellAccountName .outgoing
        let posted := postAndCheck P env found.1 good
          (newSale quantity good found.2 goodExcCode t.transaction) t.transaction
        (posted.1, Response.sell posted.2.1 posted.2.2)) = (b', response) → KeptIn P b' a := by
    intro b₁ good hb₁ hgood ha₁ hresult
    cases hresult
    exact keptIn_postAndCheck (fun other => newSale quantity good other goodExcCode t.transaction)
      _ _ _ hb₁ hgood ha₁
  unfold sell at h
  dsimp only at h
  cases hfound : t.transaction.good.bind b.getAccount with
  | some good =>
    rw [hfound] at h
    obtain ⟨name, -, hgood⟩ := Option.bind_eq_some_iff.1 hfound
    exact hpost b good hb (Book.mem_of_getAccount hgood) ha (Except.ok.inj h)
  | none =>
    rw [hfound] at h
    obtain ⟨⟨b₁, good⟩, hgood, h⟩ := bind_eq_ok.1 h
    have hgrows := createOnSale_grows env hfound hgood
    refine hpost b₁ good (hgrows.distinct hb hfresh.goodAccountId) ?_ ?_ (Except.ok.inj h)
    · unfold createConnectedInventoryAccountOnSale at hgood
      split at hgood
      · cases hgood
      · cases hgood
        exact List.mem_append_right _ List.mem_cons_self
    · unfold createConnectedInventoryAccountOnSale at hgood
      split at hgood
      · cases hgood
      · cases hgood
        exact mem_createAccount ha _

variable (env) in
/-- An account created for a purchase or a credit note. -/
theorem createOnPurchase_mem (f : Account) (ha : a ∈ b.accounts) :
    a ∈ (createConnectedInventoryAccountOnPurchase env b f).1.accounts ∧
      (createConnectedInventoryAccountOnPurchase env b f).2 ∈
        (createConnectedInventoryAccountOnPurchase env b f).1.accounts := by
  obtain ⟨-, -, haccounts⟩ := connectGroups_frame f.groups b
  constructor
  · refine mem_createAccount ?_ _
    rwa [haccounts]
  · exact List.mem_append_right _ List.mem_cons_self

/-- The branch of a credit note. -/
theorem credit_kept {b' : Book} {response : Response} {quantity : ℚ} {t : Payload} {f : Account}
    {goodExcCode : Option String} (hb : Distinct b) (hfresh : EventFresh env b)
    (h : credit P env b quantity t f goodExcCode = (b', response)) (ha : a ∈ b.accounts) :
    KeptIn P b' a := by
  have hpost : ∀ b₁ good, Distinct b₁ → good ∈ b₁.accounts → a ∈ b₁.accounts →
      (let found := getOrCreateAccount env b₁ goodBuyAccountName .incoming
        let posted := postAndCheck P env found.1 good
          (newCreditNote quantity good found.2 goodExcCode t.transaction) t.transaction
        (posted.1, Response.credit posted.2.1 posted.2.2)) = (b', response) → KeptIn P b' a := by
    intro b₁ good hb₁ hgood ha₁ hresult
    cases hresult
    exact keptIn_postAndCheck
      (fun other => newCreditNote quantity good other goodExcCode t.transaction) _ _ _ hb₁ hgood ha₁
  unfold credit at h
  cases hfound : b.getAccount f.name with
  | none =>
    rw [hfound] at h
    obtain ⟨hold, hnew⟩ := createOnPurchase_mem env f ha
    exact hpost _ _ ((createOnPurchase_grows env hfound).distinct hb hfresh.goodAccountId) hnew hold h
  | some good =>
    rw [hfound] at h
    exact hpost b good hb (Book.mem_of_getAccount hfound) ha h

/-- The branch of a purchase: the account that it finds is left as `bought` says, all others
    remember. -/
theorem buy_kept {b' : Book} {response : Response} {quantity : ℚ} {t : Payload} {f : Account}
    {goodExcCode : Option String} (hb : Distinct b) (hfresh : EventFresh env b)
    (h : buy P env b quantity t f goodExcCode = (b', response)) (ha : a ∈ b.accounts) :
    (b.getAccount f.name ≠ some a → KeptIn P b' a) ∧
      (b.getAccount f.name = some a →
        Holds b' a.ref (bought P a f t.transaction.date).properties) := by
  unfold buy at h
  cases hfound : b.getAccount f.name with
  | none =>
    rw [hfound] at h
    obtain ⟨hold, hnew⟩ := createOnPurchase_mem env f ha
    refine ⟨fun _ => ?_, fun hnone => by cases hnone⟩
    cases h
    exact keptIn_postAndCheck (fun other => newPurchase quantity _ other goodExcCode t.transaction)
      _ _ _ ((createOnPurchase_grows env hfound).distinct hb hfresh.goodAccountId) hnew hold
  | some good =>
    rw [hfound] at h
    let connected := connectGroups f.groups b
    let own : Account := { good with
      properties := f.properties
      archived := f.archived
      groups := good.groups ++ connected.2 }
    have hchecked : checkInventoryAccount b f = (connected.1.updateAccount own, some own) := by
      simp only [checkInventoryAccount, hfound, own, connected]
    rw [hchecked] at h
    let view : Account := if P.sharesAccounts then own else good
    have hview : view.id = good.id := by
      show (if P.sharesAccounts then own else good).id = good.id
      split <;> rfl
    obtain ⟨-, -, haccounts⟩ := connectGroups_frame f.groups b
    have haconnected : a ∈ connected.1.accounts := haccounts ▸ ha
    have hgood : good ∈ connected.1.accounts := haccounts ▸ Book.mem_of_getAccount hfound
    have hown : own ∈ (connected.1.updateAccount own).accounts := mem_updateAccount_self hgood rfl
    constructor
    · intro hne
      have hid : a.id ≠ good.id := fun hid =>
        hne (congrArg some (eq_of_id hb.accountIds (Book.mem_of_getAccount hfound) ha hid.symm))
      have hstored : a ∈ (connected.1.updateAccount own).accounts :=
        (mem_updateAccount_iff (a := own) hid).2 haconnected
      cases h
      exact keptIn_of_mem ((mem_postAndCheck P env view
        (fun other => newPurchase quantity view other goodExcCode t.transaction) goodBuyAccountName
        .incoming t.transaction hstored).1 (hview ▸ hid))
    · intro hsome
      obtain rfl : good = a := Option.some.inj hsome
      have hstored := (mem_postAndCheck P env view
        (fun other => newPurchase quantity view other goodExcCode t.transaction) goodBuyAccountName
        .incoming t.transaction hown).2 hview.symm
      cases h
      refine ⟨_, hstored, ?_, ?_⟩
      · show (if _ then _ else own).ref = good.ref
        split
        · show view.ref = good.ref
          show (if P.sharesAccounts then own else good).ref = good.ref
          split <;> rfl
        · rfl
      · have hproperties : view.properties = (if P.sharesAccounts then
            { good with properties := f.properties } else good : Account).properties := by
          show (if P.sharesAccounts then own else good).properties = _
          split <;> rfl
        unfold bought
        dsimp only
        rw [← calculated_congr P hproperties]
        split
        · simp only [Events.BotService.setNeedsRebuild, hproperties]
        · rfl

end Replication

/-! ## The other events -/

/-- The accounts stay different, and all of them remember. -/
def RemembersAll (P : Platform) (b b' : Book) : Prop :=
  Distinct b → Distinct b' ∧ ∀ a ∈ b.accounts, KeptIn P b' a

section Events

variable {P : Platform} {collection : Option (List BookInfo)} {b b' b'' : Book} {s : State}

theorem remembersAll_of_accounts (h : b'.accounts = b.accounts) : RemembersAll P b b' := fun hb =>
  ⟨distinct_of_accounts hb h, fun _ ha => keptIn_of_mem (h.symm ▸ ha)⟩

theorem RemembersAll.trans (h : RemembersAll P b b') (h' : RemembersAll P b' b'') :
    RemembersAll P b b'' := by
  intro hb
  obtain ⟨hb', hkept⟩ := h hb
  obtain ⟨hb'', hkept'⟩ := h' hb'
  exact ⟨hb'', fun a ha => (hkept a ha).trans fun x hx _ => hkept' x hx⟩

theorem remembersAll_setNeedsRebuild {v : Account} (hv : v ∈ b.accounts) :
    RemembersAll P b (b.updateAccount (Events.BotService.setNeedsRebuild v)) := fun hb =>
  ⟨distinct_updateAccount hb (List.mem_map_of_mem hv : v.ref ∈ accountRefs b),
    fun _ ha => keptIn_setNeedsRebuild hb ha hv⟩

theorem mem_of_getGoodAccount {t : Transaction} {v : Account}
    (h : Events.BotService.getGoodAccount b t = some v) : v ∈ b.accounts := by
  unfold Events.BotService.getGoodAccount at h
  split at h
  · obtain ⟨r, -, hr⟩ := Option.bind_eq_some_iff.1 h
    exact Book.mem_of_getAccount hr
  · split at h
    · obtain ⟨r, -, hr⟩ := Option.bind_eq_some_iff.1 h
      exact Book.mem_of_getAccount hr
    · cases h

/-- `InterceptorFlagRebuild` flags an account at most. -/
theorem intercept_remembers (P : Platform) (b : Book) (event : Event) :
    RemembersAll P b (InterceptorFlagRebuild.intercept b event).1 := by
  have hsame : RemembersAll P b b := remembersAll_of_accounts rfl
  unfold InterceptorFlagRebuild.intercept
  split
  · split
    · exact hsame
    · dsimp only
      split
      · rename_i goodAccount hgood
        obtain ⟨t, -, ht⟩ := Option.bind_eq_some_iff.1 hgood
        split
        · exact remembersAll_setNeedsRebuild (mem_of_getGoodAccount ht)
        · exact hsame
      · exact hsame
  · exact hsame

theorem posted_remembers (P : Platform) (b : Book) (event : Event) :
    RemembersAll P b (EventHandlerTransactionPosted.handleEvent b event).1 := by
  refine remembersAll_of_accounts ?_
  unfold EventHandlerTransactionPosted.handleEvent
  split
  · split
    · rfl
    · split <;> rfl
  · rfl

open InterceptorOrderProcessorDelete InterceptorOrderProcessorDeleteFinancial

theorem accounts_cascadeDeleteInventoryTransactions (b : Book) (id : String) (q : Option ℚ)
    (name : Option String) :
    (cascadeDeleteInventoryTransactions b id q name).1.accounts = b.accounts := by
  unfold cascadeDeleteInventoryTransactions
  split
  · simp only [foldl_uncheckAndTrash, Book.batchTrashTransactions]
  · rfl

theorem accounts_deleteOnInventoryBook (collection : Option (List BookInfo)) (s : State)
    (id : String) : (deleteOnInventoryBook collection s id).1.inventoryBook.accounts =
      s.inventoryBook.accounts := by
  have hdeleted : (deleteTransactionByRemoteId s.inventoryBook id).1.accounts =
      s.inventoryBook.accounts := by
    unfold deleteTransactionByRemoteId
    split
    · rfl
    · split <;> rfl
  unfold deleteOnInventoryBook
  split
  · rfl
  · dsimp only
    split
    · rfl
    · exact (accounts_cascadeDeleteInventoryTransactions _ _ _ _).trans hdeleted

theorem flagIfNeeded_remembers (P : Platform) (b : Book) (t : Transaction) :
    RemembersAll P b (Events.BotService.flagInventoryAccountForRebuildIfNeeded P b t) := by
  unfold Events.BotService.flagInventoryAccountForRebuildIfNeeded
  split
  · split
    · exact remembersAll_setNeedsRebuild (mem_of_getGoodAccount ‹_›)
    · exact remembersAll_of_accounts rfl
  · exact remembersAll_of_accounts rfl

theorem deleteAndFlag_remembers (P : Platform) (collection : Option (List BookInfo)) (s : State)
    (id : String) :
    RemembersAll P s.inventoryBook (deleteAndFlag P collection s id).1.inventoryBook := by
  have hdeleted : RemembersAll P s.inventoryBook
      (deleteOnInventoryBook collection s id).1.inventoryBook :=
    remembersAll_of_accounts (accounts_deleteOnInventoryBook collection s id)
  unfold deleteAndFlag
  split
  · rename_i heq
    rwa [heq] at hdeleted
  · rename_i heq
    rw [heq] at hdeleted
    exact hdeleted.trans (flagIfNeeded_remembers P _ _)

/-- A deletion in a financial book flags accounts at most. -/
theorem deletedFinancial_remembers (P : Platform) (collection : Option (List BookInfo)) (s : State)
    (t : Payload) : RemembersAll P s.inventoryBook
      (InterceptorOrderProcessorDeleteFinancial.intercept P collection s t).1.inventoryBook := by
  have hsame : ∀ s : State, RemembersAll P s.inventoryBook s.inventoryBook := fun s =>
    remembersAll_of_accounts rfl
  have hpurchase : ∀ s, RemembersAll P s.inventoryBook
      (deletePurchase P collection s t.transaction).1.inventoryBook := by
    intro s
    unfold deletePurchase
    split
    · exact deleteAndFlag_remembers P collection s _
    · exact hsame s
  have hadjustment : ∀ s creditAccount, RemembersAll P s.inventoryBook
      (deleteAdjustment P collection s creditAccount t.transaction).1.inventoryBook := by
    intro s creditAccount
    unfold deleteAdjustment
    split
    · split
      · rename_i goodAccount hadjusted
        obtain ⟨hfound, -⟩ := Option.filter_eq_some_iff.1 hadjusted
        exact remembersAll_setNeedsRebuild (Book.mem_of_getAccount hfound)
      · exact hsame s
    · exact hsame s
  have hsale : ∀ s, RemembersAll P s.inventoryBook
      (deleteSale P collection s t).1.inventoryBook := by
    intro s
    unfold deleteSale
    split
    · exact deleteAndFlag_remembers P collection s _
    · exact hsame s
  have hcogs : ∀ s, RemembersAll P s.inventoryBook
      (deleteCOGS collection s t.transaction).1.inventoryBook := by
    intro s
    unfold deleteCOGS
    split
    · split
      · unfold Events.BotService.flagInventoryAccountForRebuild
        dsimp only
        split
        · exact remembersAll_setNeedsRebuild (mem_of_getGoodAccount ‹_›)
        · exact hsame s
      · exact hsame s
    · exact hsame s
  unfold InterceptorOrderProcessorDeleteFinancial.intercept
  dsimp only
  split
  · exact hsame s
  · split
    · split
      · exact hsame s
      · exact (((hpurchase s).trans (hadjustment _ _)).trans (hsale _)).trans (hcogs _)
    · exact hsame s

/-- A deletion in the inventory book flags an account at most. -/
theorem deletedGoods_remembers (P : Platform) (collection : Option (List BookInfo)) (s : State)
    (t : Payload) : RemembersAll P s.inventoryBook
      (InterceptorOrderProcessorDeleteGoods.intercept P collection s t).1.inventoryBook := by
  have hsame : RemembersAll P s.inventoryBook s.inventoryBook := remembersAll_of_accounts rfl
  unfold InterceptorOrderProcessorDeleteGoods.intercept
  dsimp only
  split
  · exact hsame
  · split
    · exact hsame
    · rename_i goodAccount hgood
      have hmem : goodAccount ∈ s.inventoryBook.accounts := by
        unfold InterceptorOrderProcessorDeleteGoods.getGoodAccount at hgood
        split at hgood
        · obtain ⟨r, -, hr⟩ := Option.bind_eq_some_iff.1 hgood
          exact Book.mem_of_getAccount hr
        · split at hgood
          · obtain ⟨r, -, hr⟩ := Option.bind_eq_some_iff.1 hgood
            exact Book.mem_of_getAccount hr
          · cases hgood
      split
      · split
        · exact (remembersAll_setNeedsRebuild hmem).trans
            (remembersAll_of_accounts (accounts_cascadeDeleteInventoryTransactions _ _ _ _))
        · exact hsame
      · split
        · exact hsame
        · exact hsame

end Events

/-! ## Purchases -/

/-- The book whose checked transaction is handled. -/
def eventBook (s : State) (event : Event) : Book :=
  if Events.BotService.isInventoryBook event.book then s.inventoryBook else s.financialBook

/-- The event is the check of a purchase `t` whose debited financial account `f` has the name of
    the account `a` of the inventory book, and the handler gets as far as replicating it. -/
structure Overwrites (P : Platform) (collection : Option (List BookInfo)) (s : State)
    (event : Event) (t : Payload) (f a : Account) : Prop where
  type : event.type = .checked
  unflagged : ∀ name, (InterceptorFlagRebuild.intercept s.inventoryBook event).2 ≠ .flagged name
  collection : Events.BotService.getInventoryBook collection ≠ none
  reaches : ∃ quantity, Reaches P (eventBook s event) s.inventoryBook event t quantity
  sale : truthy t.transaction.saleInvoice = false
  kind : truthy t.transaction.purchaseInvoice = true
  debitAccount : t.debitAccount = some f
  account : s.inventoryBook.getAccount f.name = some a

/-- The properties of the financial account keep the flag and the date, or the handler restores
    them: it flags the account, and the object that it flags has the properties that were there,
    unless it is the one that it has overwritten. -/
def SafeOverwrite (P : Platform) (a f : Account) (date : Date) : Prop :=
  let synced := { a with properties := f.properties }
  if P.sharesAccounts = true then
    if Events.BotService.calculated P synced date = true then DateKept P a synced
    else Remembers P a synced
  else Events.BotService.calculated P a date = true ∨ Remembers P a synced

section Purchases

variable {P : Platform} {collection : Option (List BookInfo)} {s : State} {a f : Account}

theorem remembers_bought_iff (date : Date) :
    Remembers P a (bought P a f date) ↔ SafeOverwrite P a f date := by
  have hflagged : ∀ x : Account, Remembers P a (Events.BotService.setNeedsRebuild x) ↔
      DateKept P a x := fun x =>
    ⟨fun h => h.date.trans (dateKept_of_eq (calculationDate_setNeedsRebuild P x).symm),
      fun h => ⟨fun _ => needsRebuild_setNeedsRebuild x,
        h.trans (dateKept_of_eq (calculationDate_setNeedsRebuild P x))⟩⟩
  unfold bought SafeOverwrite
  dsimp only
  by_cases hshares : P.sharesAccounts = true
  · rw [if_pos hshares, if_pos hshares]
    split
    · exact hflagged _
    · exact Iff.rfl
  · rw [if_neg hshares, if_neg hshares]
    split
    · rename_i hcalculated
      exact iff_of_true (remembers_setNeedsRebuild P a) (Or.inl hcalculated)
    · rename_i hcalculated
      exact ⟨Or.inr, fun h => h.resolve_left hcalculated⟩

theorem intercept_unflagged {b : Book} {event : Event}
    (h : ∀ name, (InterceptorFlagRebuild.intercept b event).2 ≠ .flagged name) :
    (InterceptorFlagRebuild.intercept b event).1 = b := by
  unfold InterceptorFlagRebuild.intercept at h ⊢
  split
  · rename_i hbook
    rw [if_pos hbook] at h
    split
    · rfl
    · rename_i t ht
      rw [ht] at h
      dsimp only at h ⊢
      split
      · rename_i goodAccount hgood
        rw [hgood] at h
        dsimp only at h
        split
        · rename_i habsent
          rw [if_pos habsent] at h
          exact absurd rfl (h goodAccount.name)
        · rfl
      · rfl
  · rfl

variable (P collection) in
/-- The check of a transaction: an account that is not overwritten remembers, and one that is
    stands as `bought` says. -/
theorem checked_kept {env : EventEnv} {event : Event} (htype : event.type = .checked)
    (hb : Distinct s.inventoryBook) (hfresh : EventFresh env s.inventoryBook)
    (ha : a ∈ s.inventoryBook.accounts) :
    let b' := (handleEvent P collection env s event).inventoryBook
    Distinct b' ∧ ((∀ t f, ¬Overwrites P collection s event t f a) → KeptIn P b' a) ∧
      ∀ t f, Overwrites P collection s event t f a →
        Holds b' a.ref (bought P a f t.transaction.date).properties := by
  intro b'
  have hb' : b' = (EventHandlerTransactionChecked.handleEvent P collection env (eventBook s event)
      s.inventoryBook event).1 := by
    show (handleEvent P collection env s event).inventoryBook = _
    simp only [handleEvent, htype, eventBook]
  obtain ⟨hdistinct, hkept⟩ := intercept_remembers P s.inventoryBook event hb
  unfold EventHandlerTransactionChecked.handleEvent at hb'
  split at hb'
  · rename_i b₁ name hintercept
    rw [hintercept] at hdistinct hkept
    refine ⟨hb' ▸ hdistinct, fun _ => hb' ▸ hkept a ha, fun t f ho => ?_⟩
    exact absurd (by rw [hintercept]) (ho.unflagged name)
  · rename_i b₁ response hnot hintercept
    have hunflagged : ∀ name, (InterceptorFlagRebuild.intercept s.inventoryBook event).2 ≠
        .flagged name := by
      intro name hflagged
      rw [hintercept] at hflagged
      exact hnot name hflagged
    obtain rfl : b₁ = s.inventoryBook := by
      have hsame := intercept_unflagged hunflagged
      rwa [hintercept] at hsame
    have hsame : b' = s.inventoryBook → (∀ t f, ¬Overwrites P collection s event t f a) →
        Distinct b' ∧ ((∀ t f, ¬Overwrites P collection s event t f a) → KeptIn P b' a) ∧
          ∀ t f, Overwrites P collection s event t f a →
            Holds b' a.ref (bought P a f t.transaction.date).properties := fun he hnone =>
      ⟨he ▸ hb, fun _ => he ▸ keptIn_of_mem ha, fun t f ho => absurd ho (hnone t f)⟩
    split at hb'
    · rename_i hcollection
      exact hsame hb' fun t f ho => ho.collection hcollection
    · rename_i info hinfo
      have hpurchase : ∀ t f, Overwrites P collection s event t f a → ∃ quantity,
          processObject P env (eventBook s event) s.inventoryBook event =
            .ok (buy P env s.inventoryBook quantity t f
              (getGoodExcCodeFromTransaction t (eventBook s event))) := by
        intro t f ho
        obtain ⟨quantity, hreaches⟩ := ho.reaches
        exact ⟨quantity, processObject_purchase hreaches ho.sale ho.kind ho.debitAccount⟩
      cases hprocess : processObject P env (eventBook s event) s.inventoryBook event with
      | error e =>
        rw [hprocess] at hb'
        refine hsame hb' fun t f ho => ?_
        obtain ⟨quantity, hbuy⟩ := hpurchase t f ho
        rw [hprocess] at hbuy
        cases hbuy
      | ok result =>
        obtain ⟨b'', response⟩ := result
        rw [hprocess] at hb'
        obtain rfl : b' = b'' := hb'
        have hoverwrites : ∀ t f, Overwrites P collection s event t f a →
            Holds b' a.ref (bought P a f t.transaction.date).properties := by
          intro t f ho
          obtain ⟨quantity, hbuy⟩ := hpurchase t f ho
          rw [hprocess] at hbuy
          exact (buy_kept hb hfresh (Except.ok.inj hbuy).symm ha).2 ho.account
        rcases processObject_branches hprocess with
          ⟨hnothing, hsilent⟩ | ⟨t, quantity, hreaches, hbranch⟩
        · exact ⟨hnothing ▸ hb, fun _ => hnothing ▸ keptIn_of_mem ha, hoverwrites⟩
        · obtain ⟨hnothing, hsilent⟩ | ⟨t', quantity', c, -, hreplication⟩ :=
            processObject_cases hb hfresh hprocess
          · exact ⟨hnothing ▸ hb, fun _ => hnothing ▸ keptIn_of_mem ha, hoverwrites⟩
          refine ⟨hreplication.posts.distinct, fun hnone => ?_, hoverwrites⟩
          cases hbranch with
          | sale hkind h => exact sell_kept hb hfresh h ha
          | creditNote hsale hpurchased hkind h => exact credit_kept hb hfresh h ha
          | @purchase hsale hkind f hdebit h =>
            refine (buy_kept hb hfresh h ha).1 fun hfound => ?_
            exact hnone t f ⟨htype, hunflagged, by simp [hinfo], ⟨quantity, hreaches⟩, hsale, hkind,
              hdebit, hfound⟩

end Purchases

/-! ## Runs of the menu -/

/-- A reset of the account with an id fires. -/
def Completes (P : Platform) (collection : Option (List BookInfo)) (s : State)
    (goodAccountId accountId : String) : Prop :=
  ∃ goodAccount processor, planReset P collection s goodAccountId =
    .ok (.fire goodAccount processor) ∧ goodAccount.id = accountId

section Runs

variable {P : Platform} {collection : Option (List BookInfo)} {s : State} {a : Account}
  {goodAccountId : String}

/-- A reset forgets no other account than its own. -/
theorem reset_kept (hb : Distinct s.inventoryBook) (ha : a ∈ s.inventoryBook.accounts)
    (h : ¬Completes P collection s goodAccountId a.id) :
    let b' := (resetCostOfSalesForAccount P collection s goodAccountId).1.inventoryBook
    Distinct b' ∧ KeptIn P b' a := by
  unfold resetCostOfSalesForAccount
  cases hplan : planReset P collection s goodAccountId with
  | error e => exact ⟨hb, keptIn_of_mem ha⟩
  | ok plan =>
    cases plan with
    | stop summary => exact ⟨hb, keptIn_of_mem ha⟩
    | fire goodAccount processor =>
      have hmem := Book.mem_of_getAccount (planReset_fire hplan).account
      have hb' : Distinct (processor.fireBatchOperations 3 s).inventoryBook :=
        distinct_of_accounts hb rfl
      have hne : a.id ≠ goodAccount.id := fun hid => h ⟨goodAccount, processor, hplan, hid.symm⟩
      refine ⟨distinct_updateAccount (a := clearAccount goodAccount) hb' ?_, ?_⟩
      · exact (List.mem_map_of_mem hmem : goodAccount.ref ∈ accountRefs s.inventoryBook)
      · exact keptIn_of_mem
          ((mem_updateAccount_iff (b := (processor.fireBatchOperations 3 s).inventoryBook)
            (a := clearAccount goodAccount) hne).2 ha)

/-- A calculation forgets no account, unless it resets one. -/
theorem calculate_kept (hdates : ReadsDates P) {env : RunEnv} {toDate : Option Date}
    (hb : Distinct s.inventoryBook) (ha : a ∈ s.inventoryBook.accounts)
    (h : planCalculation P collection env s goodAccountId toDate = .ok .reset →
      ¬Completes P collection s goodAccountId a.id) :
    let b' := (calculateCostOfSalesForAccount P collection env s goodAccountId
      toDate).1.inventoryBook
    Distinct b' ∧ KeptIn P b' a := by
  rcases calculate_cases P collection env s goodAccountId toDate with
    hsame | hsame | ⟨hplan, hreset⟩ | ⟨goodAccount, sales, processor, hplan, hresult⟩
  · rw [hsame]
    exact ⟨hb, keptIn_of_mem ha⟩
  · rw [hsame]
    exact ⟨hb, keptIn_of_mem ha⟩
  · rw [hreset]
    exact reset_kept hb ha (h hplan)
  · rw [hresult]
    obtain ⟨hpassed, -⟩ := planCalculation_fire hplan
    have hmem := Book.mem_of_getAccount hpassed.account
    have hb' : Distinct (processor.fireBatchOperations env 3 s).inventoryBook :=
      distinct_of_accounts hb rfl
    show Distinct (storeLastCalcTxDate P (processor.fireBatchOperations env 3 s).inventoryBook
      goodAccount sales) ∧ KeptIn P (storeLastCalcTxDate P
        (processor.fireBatchOperations env 3 s).inventoryBook goodAccount sales) a
    rw [storeLastCalcTxDate_eq]
    cases hmoved : movedDate P goodAccount sales with
    | none => exact ⟨hb', keptIn_of_mem ha⟩
    | some date =>
      have href : goodAccount.ref ∈ accountRefs s.inventoryBook := List.mem_map_of_mem hmem
      exact ⟨distinct_updateAccount (a := GoodAccount.setCOGSCalculationDate goodAccount
          (P.dateText date)) hb' href,
        keptIn_updateAccount hb' ha hmem rfl (remembers_movedDate hdates hmoved)⟩

end Runs

/-! ## Histories -/

/-- What happens next in the books: the webhook handles an event, the menu calculates or resets an
    account, or users change the transactions of the inventory book and the financial book. -/
inductive Action where
  | handle (env : EventEnv) (event : Event)
  | calculate (goodAccountId : String) (env : RunEnv) (toDate : Option Date)
  | reset (goodAccountId : String)
  | edit (inventoryTransactions : List Transaction) (financialBook : Book)

namespace Action

variable (P : Platform) (collection : Option (List BookInfo))

/-- The books after an action. -/
def apply (s : State) : Action → State
  | .handle env event => handleEvent P collection env s event
  | .calculate goodAccountId env toDate =>
    (calculateCostOfSalesForAccount P collection env s goodAccountId toDate).1
  | .reset goodAccountId => (resetCostOfSalesForAccount P collection s goodAccountId).1
  | .edit inventoryTransactions financialBook =>
    ⟨{ s.inventoryBook with transactions := inventoryTransactions }, financialBook⟩

/-- The ids that an event hands out are new, and the action completes no reset of the account. -/
def Allowed (accountId : String) (s : State) : Action → Prop
  | .handle env _ => EventFresh env s.inventoryBook
  | .calculate goodAccountId env toDate =>
    planCalculation P collection env s goodAccountId toDate = .ok .reset →
      ¬Completes P collection s goodAccountId accountId
  | .reset goodAccountId => ¬Completes P collection s goodAccountId accountId
  | .edit _ _ => True

/-- The action is no check of a purchase that overwrites the account with properties that lack its
    flag or its date. -/
def Harmless (accountId : String) (s : State) : Action → Prop
  | .handle _ event => ∀ t f a, Overwrites P collection s event t f a → a.id = accountId →
      SafeOverwrite P a f t.transaction.date
  | _ => True

end Action

/-- The states of a history. -/
def states (P : Platform) (collection : Option (List BookInfo)) : State → List Action → List State
  | s, [] => [s]
  | s, action :: rest => s :: states P collection (action.apply P collection s) rest

/-- Every action of a history has a property in the state in which it happens. -/
def Along (P : Platform) (collection : Option (List BookInfo)) (p : State → Action → Prop) :
    State → List Action → Prop
  | _, [] => True
  | s, action :: rest => p s action ∧ Along P collection p (action.apply P collection s) rest

section Histories

variable {P : Platform} {collection : Option (List BookInfo)} {s : State} {a : Account}

/-- One action: the account stays, and it remembers exactly if the action is harmless. -/
theorem Action.remembers_iff (hdates : ReadsDates P) (hb : Distinct s.inventoryBook)
    (ha : a ∈ s.inventoryBook.accounts) (action : Action)
    (hallowed : action.Allowed P collection a.id s) :
    Distinct (action.apply P collection s).inventoryBook ∧
      (∃ a' ∈ (action.apply P collection s).inventoryBook.accounts, a'.id = a.id) ∧
      (RemembersAt P a.id s (action.apply P collection s) ↔
        action.Harmless P collection a.id s) := by
  have hfound : s.inventoryBook.getAccount a.id = some a := getAccount_id hb.accountIds ha
  -- an account that is kept is the one that its id finds
  have hkept : ∀ {s' : State}, Distinct s'.inventoryBook → KeptIn P s'.inventoryBook a →
      (∃ a' ∈ s'.inventoryBook.accounts, a'.id = a.id) ∧ RemembersAt P a.id s s' := by
    rintro s' hb' ⟨a', ha', href, hremembers⟩
    have hid : a'.id = a.id := congrArg AccountRef.id href
    refine ⟨⟨a', ha', hid⟩, fun x hx => ⟨a', hid ▸ getAccount_id hb'.accountIds ha', ?_⟩⟩
    obtain rfl : a = x := Option.some.inj (hfound.symm.trans hx)
    exact hremembers
  cases action with
  | handle env event =>
    have hquiet : event.type ≠ .checked →
        RemembersAll P s.inventoryBook (handleEvent P collection env s event).inventoryBook →
        Distinct (handleEvent P collection env s event).inventoryBook ∧
          (∃ a' ∈ (handleEvent P collection env s event).inventoryBook.accounts, a'.id = a.id) ∧
          (RemembersAt P a.id s (handleEvent P collection env s event) ↔
            Action.Harmless P collection a.id s (.handle env event)) := by
      intro hne hall
      obtain ⟨hb', hkeptIn⟩ := hall hb
      obtain ⟨hmem, hremembers⟩ := hkept hb' (hkeptIn a ha)
      exact ⟨hb', hmem, iff_of_true hremembers fun t f x ho => absurd ho.type hne⟩
    cases htype : event.type with
    | posted =>
      refine hquiet (by simp [htype]) ?_
      simpa only [handleEvent, htype] using posted_remembers P s.inventoryBook event
    | unchecked =>
      refine hquiet (by simp [htype]) ?_
      simpa only [handleEvent, htype, EventHandlerTransactionUnchecked.handleEvent] using
        intercept_remembers P s.inventoryBook event
    | deleted =>
      refine hquiet (by simp [htype]) ?_
      simp only [handleEvent, htype, EventHandlerTransactionDeleted.intercept]
      split
      · exact remembersAll_of_accounts rfl
      · split
        · exact deletedGoods_remembers P collection s _
        · exact deletedFinancial_remembers P collection s _
    | checked =>
      obtain ⟨hb', hother, hbought⟩ := checked_kept P collection htype hb
        hallowed ha
      by_cases hnone : ∀ t f, ¬Overwrites P collection s event t f a
      · obtain ⟨hmem, hremembers⟩ := hkept hb' (hother hnone)
        refine ⟨hb', hmem, iff_of_true hremembers fun t f x ho hid => ?_⟩
        obtain rfl : x = a := eq_of_id hb.accountIds (Book.mem_of_getAccount ho.account) ha hid
        exact absurd ho (hnone t f)
      · push Not at hnone
        obtain ⟨t, f, ho⟩ := hnone
        obtain ⟨a', ha', href, hproperties⟩ := hbought t f ho
        have hid : a'.id = a.id := congrArg AccountRef.id href
        have hfound' : (handleEvent P collection env s event).inventoryBook.getAccount a.id =
            some a' := hid ▸ getAccount_id hb'.accountIds ha'
        refine ⟨hb', ⟨a', ha', hid⟩, ?_⟩
        have hsafe : RemembersAt P a.id s (handleEvent P collection env s event) ↔
            SafeOverwrite P a f t.transaction.date := by
          rw [← remembers_bought_iff, ← remembers_congr rfl hproperties]
          constructor
          · intro hall
            obtain ⟨x, hx, hremembers⟩ := hall a hfound
            obtain rfl : a' = x := Option.some.inj (hfound'.symm.trans hx)
            exact hremembers
          · intro hremembers x hx
            obtain rfl : a = x := Option.some.inj (hfound.symm.trans hx)
            exact ⟨a', hfound', hremembers⟩
        show RemembersAt P a.id s (handleEvent P collection env s event) ↔ _
        rw [hsafe]
        constructor
        · intro hsafe t' f' x ho' hx
          obtain rfl : x = a := eq_of_id hb.accountIds (Book.mem_of_getAccount ho'.account) ha hx
          obtain ⟨q, hreaches⟩ := ho.reaches
          obtain ⟨q', hreaches'⟩ := ho'.reaches
          obtain rfl : t = t' :=
            Option.some.inj (hreaches.transaction.symm.trans hreaches'.transaction)
          obtain rfl : f = f' := Option.some.inj (ho.debitAccount.symm.trans ho'.debitAccount)
          exact hsafe
        · exact fun hharmless => hharmless t f a ho rfl
  | calculate goodAccountId env toDate =>
    obtain ⟨hb', hkeptIn⟩ := calculate_kept hdates hb ha hallowed
    obtain ⟨hmem, hremembers⟩ := hkept hb' hkeptIn
    exact ⟨hb', hmem, iff_of_true hremembers trivial⟩
  | reset goodAccountId =>
    obtain ⟨hb', hkeptIn⟩ := reset_kept hb ha hallowed
    obtain ⟨hmem, hremembers⟩ := hkept hb' hkeptIn
    exact ⟨hb', hmem, iff_of_true hremembers trivial⟩
  | edit inventoryTransactions financialBook =>
    have hb' : Distinct ({ s.inventoryBook with transactions := inventoryTransactions } : Book) :=
      distinct_of_accounts hb rfl
    obtain ⟨hmem, hremembers⟩ := @hkept ⟨_, financialBook⟩ hb' (keptIn_of_mem ha)
    exact ⟨hb', hmem, iff_of_true hremembers trivial⟩

theorem states_eq_cons (P : Platform) (collection : Option (List BookInfo)) (s : State)
    (actions : List Action) : ∃ rest, states P collection s actions = s :: rest := by
  cases actions with
  | nil => exact ⟨[], rfl⟩
  | cons action rest => exact ⟨_, rfl⟩

/-- Each state is remembered in the next one exactly if every action is harmless. -/
theorem isChain_remembers_iff (hdates : ReadsDates P) (accountId : String) (actions : List Action)
    {s : State} (hb : Distinct s.inventoryBook)
    (ha : ∃ a ∈ s.inventoryBook.accounts, a.id = accountId)
    (hallowed : Along P collection (Action.Allowed P collection accountId) s actions) :
    (states P collection s actions).IsChain (RemembersAt P accountId) ↔
      Along P collection (Action.Harmless P collection accountId) s actions := by
  induction actions generalizing s with
  | nil => exact iff_of_true (.singleton s) trivial
  | cons action actions ih =>
    obtain ⟨a, ha, rfl⟩ := ha
    obtain ⟨hfirst, hrest⟩ := hallowed
    obtain ⟨hb', ha', hstep⟩ := action.remembers_iff hdates hb ha hfirst
    obtain ⟨rest, hstates⟩ := states_eq_cons P collection (action.apply P collection s) actions
    have ih := ih hb' ha' hrest
    rw [hstates] at ih
    show (s :: states P collection (action.apply P collection s) actions).IsChain _ ↔ _ ∧ _
    rw [hstates, List.isChain_cons_cons, hstep, ih]

theorem RemembersAt.trans {accountId : String} {s s' s'' : State}
    (h : RemembersAt P accountId s s') (h' : RemembersAt P accountId s' s'') :
    RemembersAt P accountId s s'' := by
  intro a ha
  obtain ⟨a', ha', hremembers⟩ := h a ha
  obtain ⟨a'', ha'', hremembers'⟩ := h' a' ha'
  exact ⟨a'', ha'', hremembers.trans hremembers'⟩

end Histories

/-- **Only a reset forgets.** Along a history that completes no reset of an account, the account
    remembers from every state to every later one exactly if no checked purchase overwrites it
    with properties that lack its flag or its date. -/
theorem only_reset_forgets_iff {P : Platform} {collection : Option (List BookInfo)}
    (hdates : ReadsDates P) {s : State} (hb : Distinct s.inventoryBook) {a : Account}
    (ha : a ∈ s.inventoryBook.accounts) {actions : List Action}
    (hallowed : Along P collection (Action.Allowed P collection a.id) s actions) :
    (states P collection s actions).Pairwise (RemembersAt P a.id) ↔
      Along P collection (Action.Harmless P collection a.id) s actions := by
  have htrans : IsTrans State (RemembersAt P a.id) := ⟨fun _ _ _ => RemembersAt.trans⟩
  rw [← List.isChain_iff_pairwise]
  exact isChain_remembers_iff hdates a.id actions hb ⟨a, ha, rfl⟩ hallowed

namespace Sample

/-- The text of a date: a sign and a stroke for each day. -/
def tally : Date → String
  | .ofNat n => String.ofList ('+' :: List.replicate n '1')
  | .negSucc n => String.ofList ('-' :: List.replicate n '1')

def readTally (s : String) : Option Date :=
  match s.toList with
  | '+' :: strokes => some (.ofNat strokes.length)
  | '-' :: strokes => some (.negSucc strokes.length)
  | _ => none

/-- The decimal platform with texts of dates that it reads back. -/
def tallyPlatform : Platform := { decimalPlatform with dateText := tally, dateNumber := readTally }

theorem tallyPlatform_readsDates : ReadsDates tallyPlatform := by
  intro date
  show tally date ≠ "" ∧ readTally (tally date) = some date
  cases date <;> simp [tally, readTally, ← String.toList_inj]

/-- The inventory book with a widgets account of the given properties. -/
def shelf (properties : List (String × String)) : State where
  inventoryBook :=
    { info := inventory
      accounts := [{ id := "a-shelf", name := "Widgets", type := .asset
                     properties := properties.foldl (fun m e => m.set e.1 e.2) ∅ }] }
  financialBook := dollarBook "USD"

/-- The account of the shelf. -/
def shelved (properties : List (String × String)) : Account :=
  { id := "a-shelf", name := "Widgets", type := .asset
    properties := properties.foldl (fun m e => m.set e.1 e.2) ∅ }

end Sample

/-- The check of a purchase takes the flag from the account. -/
theorem purchase_forgets :
    Along Sample.tallyPlatform Sample.books
        (Action.Allowed Sample.tallyPlatform Sample.books "a-shelf")
        (Sample.shelf [(needsRebuildProp, "TRUE")])
        [.handle Sample.eventEnv (Sample.purchaseChecked "USD")] ∧
      ¬(states Sample.tallyPlatform Sample.books (Sample.shelf [(needsRebuildProp, "TRUE")])
        [.handle Sample.eventEnv (Sample.purchaseChecked "USD")]).Pairwise
          (RemembersAt Sample.tallyPlatform "a-shelf") := by
  refine ⟨⟨⟨by decide, by decide, by decide, by decide⟩, trivial⟩, fun h => ?_⟩
  obtain ⟨a', ha', hremembers⟩ := (List.pairwise_cons.1 h).1 _ List.mem_cons_self
    (Sample.shelved [(needsRebuildProp, "TRUE")]) rfl
  have hforgotten : ((handleEvent Sample.tallyPlatform Sample.books Sample.eventEnv
      (Sample.shelf [(needsRebuildProp, "TRUE")])
      (Sample.purchaseChecked "USD")).inventoryBook.getAccount "a-shelf").all
        (fun a => !GoodAccount.needsRebuild a) = true := by
    decide +kernel
  have hflag := hremembers.flag (by decide)
  have ha'' : (handleEvent Sample.tallyPlatform Sample.books Sample.eventEnv
      (Sample.shelf [(needsRebuildProp, "TRUE")])
      (Sample.purchaseChecked "USD")).inventoryBook.getAccount "a-shelf" = some a' := ha'
  rw [ha'', Option.all_some, hflag] at hforgotten
  cases hforgotten

/-- A purchase dated before the calculation date leaves the account as it was, with the flag. -/
theorem only_reset_forgets_iff_sample :
    (states Sample.tallyPlatform Sample.books
      (Sample.shelf [(cogsCalcDateProp, Sample.tally 5)])
      [.handle Sample.eventEnv (Sample.purchaseChecked "USD")]).Pairwise
        (RemembersAt Sample.tallyPlatform "a-shelf") := by
  have hdistinct : Distinct (Sample.shelf [(cogsCalcDateProp, Sample.tally 5)]).inventoryBook :=
    ⟨by decide, by decide⟩
  have hallowed : Along Sample.tallyPlatform Sample.books
      (Action.Allowed Sample.tallyPlatform Sample.books "a-shelf")
      (Sample.shelf [(cogsCalcDateProp, Sample.tally 5)])
      [.handle Sample.eventEnv (Sample.purchaseChecked "USD")] :=
    ⟨⟨by decide, by decide, by decide, by decide⟩, trivial⟩
  refine (only_reset_forgets_iff Sample.tallyPlatform_readsDates hdistinct
    (a := Sample.shelved [(cogsCalcDateProp, Sample.tally 5)]) List.mem_cons_self
    hallowed).2 ⟨?_, trivial⟩
  intro t f a ho hid
  have ha : a = Sample.shelved [(cogsCalcDateProp, Sample.tally 5)] :=
    List.mem_singleton.1 (Book.mem_of_getAccount ho.account)
  obtain ⟨quantity, hreaches⟩ := ho.reaches
  obtain rfl : Sample.purchase "USD" = t := Option.some.inj hreaches.transaction
  subst ha
  exact Or.inl (by decide)

end InventoryBot.System
