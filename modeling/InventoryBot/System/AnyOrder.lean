import InventoryBot.Lib.Delivery
import InventoryBot.System.Deletions
import InventoryBot.System.Views

/-!
# Checks in any order

The platform delivers the events of checked transactions at least once and in no order. What the
webhook makes of them does not depend on that: the accounts that it creates on its way are those
that it would have found, and a transaction is replicated by the first of its events.

* `accountOf`: the account that a name stands for, or will be created as.
* `expected`: the copy of a transaction, without what the platform hands out.
* `checkedBook_cases`: a check stores what is expected, unless it is there.
* `checks_in_any_order`: two deliveries of the same events end with the same copies.
-/

namespace InventoryBot.System

open Lib Menu Events

/-- A transaction without what the platform hands out: its id, its time and the ids of its
    accounts. -/
def content (t : Transaction) : Transaction :=
  { t with
    id := ""
    createdAt := none
    creditAccount := t.creditAccount.map fun r => { r with id := "" }
    debitAccount := t.debitAccount.map fun r => { r with id := "" } }

/-- The type that the webhook creates an account with. -/
def createdType (name : String) : AccountType :=
  if name = goodBuyAccountName then .incoming
  else if name = goodSellAccountName then .outgoing
  else .asset

/-- The account that a key stands for among those of a book: the one that is found, or the one
    that is created where none is. -/
def accountOf (refs : List AccountRef) (key : String) : Account :=
  match refs.find? (·.id == key) <|> refs.find? (·.name == key) with
  | some r => { id := "", name := r.name, type := r.type }
  | none => { id := "", name := key, type := createdType key }

/-- The accounts have the same name and type. -/
def SameKind (a a' : Account) : Prop := a.name = a'.name ∧ a.type = a'.type

section Accounts

variable {refs : List AccountRef} {r : AccountRef} {key : String} {b : Book} {a : Account}

theorem accountOf_found (h : b.getAccount key = some a) :
    SameKind a (accountOf (accountRefs b) key) := by
  have href := getAccount_map_ref b key
  rw [h] at href
  unfold accountOf
  rw [← href]
  exact ⟨rfl, rfl⟩

theorem accountOf_missing (h : b.getAccount key = none) :
    accountOf (accountRefs b) key = { id := "", name := key, type := createdType key } := by
  have href := getAccount_map_ref b key
  rw [h] at href
  unfold accountOf
  rw [← href]
  rfl

/-- Creating an account with the type of its name changes no account that a key stands for. -/
theorem accountOf_append (hid : r.id ≠ key) (htype : r.type = createdType r.name) :
    accountOf (refs ++ [r]) key = accountOf refs key := by
  unfold accountOf
  rw [List.find?_append, List.find?_append]
  have hnone : List.find? (fun x : AccountRef => x.id == key) [r] = none := by simp [hid]
  rw [hnone, Option.or_none]
  cases refs.find? (·.id == key) with
  | some x => rfl
  | none =>
    cases refs.find? (·.name == key) with
    | some x => rfl
    | none =>
      by_cases hname : r.name = key
      · simp [hname, htype]
      · simp [hname]

end Accounts

/-- An account was looked up by a key, and created where it was missing. -/
structure Opens (newId : String) (b b' : Book) (key : String) (a : Account) : Prop where
  grows : Grows newId b b' a
  kind : SameKind a (accountOf (accountRefs b) key)
  others : ∀ key, key ≠ newId → accountOf (accountRefs b') key = accountOf (accountRefs b) key

section Opens

variable {env : EventEnv} {b b' : Book} {a : Account} {key : String}

theorem Opens.found (h : b.getAccount key = some a) (newId : String) : Opens newId b b key a :=
  ⟨⟨rfl, rfl, ref_mem_of_getAccount h, Or.inl rfl⟩, accountOf_found h, fun _ _ => rfl⟩

/-- A created account. -/
theorem Opens.created {newId : String} (hgrows : Grows newId b b' a)
    (hmissing : b.getAccount key = none) (hname : a.name = key) (htype : a.type = createdType key)
    (hrefs : accountRefs b' = accountRefs b ++ [a.ref]) (hid : a.id = newId) :
    Opens newId b b' key a := by
  refine ⟨hgrows, ?_, fun other hother => ?_⟩
  · rw [accountOf_missing hmissing]
    exact ⟨hname, htype⟩
  · have hne : a.ref.id ≠ other := fun he => hother (he.symm.trans hid)
    rw [hrefs]
    exact accountOf_append hne (hname.symm ▸ htype : a.type = createdType a.name)

theorem getOrCreateAccount_opens (env : EventEnv) (b : Book) {name : String} {type : AccountType}
    (htype : createdType name = type) :
    Opens env.otherAccountId b (getOrCreateAccount env b name type).1 name
      (getOrCreateAccount env b name type).2 := by
  have hgrows := getOrCreateAccount_grows env b name type
  unfold getOrCreateAccount at hgrows ⊢
  cases hfound : b.getAccount name with
  | some account => exact .found hfound _
  | none =>
    rw [hfound] at hgrows
    refine .created hgrows hfound rfl htype.symm ?_ rfl
    simp [accountRefs, createAccount, Account.ref]

theorem createOnPurchase_opens (env : EventEnv) (hmissing : b.getAccount a.name = none)
    (htype : createdType a.name = .asset) :
    Opens env.goodAccountId b (createConnectedInventoryAccountOnPurchase env b a).1 a.name
      (createConnectedInventoryAccountOnPurchase env b a).2 := by
  refine .created (createOnPurchase_grows env hmissing) hmissing rfl htype.symm ?_ rfl
  simp [accountRefs, createConnectedInventoryAccountOnPurchase, createAccount, Account.ref,
    (connectGroups_frame a.groups b).2.2]

theorem createOnSale_opens (hmissing : b.getAccount key = none)
    (htype : createdType key = .asset)
    (h : createConnectedInventoryAccountOnSale env b (some key) = .ok (b', a)) :
    Opens env.goodAccountId b b' key a := by
  have hmissing' : (some key).bind b.getAccount = none := hmissing
  have hgrows := createOnSale_grows env hmissing' h
  cases h
  refine .created hgrows hmissing rfl htype.symm ?_ rfl
  simp [accountRefs, createAccount, Account.ref]

end Opens

/-! ## Posting -/

/-- A copy was posted of the transaction `id`, which reads `x`. -/
structure Adds (env : EventEnv) (b b' : Book) (id : String) (x : Transaction) : Prop where
  distinct : Distinct b'
  rows : ∃ c, b'.transactions = b.transactions ++ [c] ∧ content c = x ∧ c.remoteIds = [id]
  others : ∀ key, key ≠ env.goodAccountId → key ≠ env.otherAccountId →
    accountOf (accountRefs b') key = accountOf (accountRefs b) key

/-- A copy reads the same with other accounts of the same names and types. -/
structure ReadsKinds (build : Account → Account → Transaction) (id : String) : Prop where
  refs : ∀ a o, ∀ r ∈ (build a o).refs, r = a.ref ∨ r = o.ref
  remoteIds : ∀ a o, (build a o).remoteIds = [id]
  reads : ∀ {a a' o o' : Account} (key key' : String) (now now' : ℕ), SameKind a a' →
    SameKind o o' →
      content (Book.post key now (build a o)) = content (Book.post key' now' (build a' o'))

section Posting

variable {env : EventEnv} {b b₁ : Book} {good : Account} {key name : String} {quantity : ℚ}
  {goodExcCode : Option String} {t : Transaction}

theorem newSale_readsKinds :
    ReadsKinds (fun a o => newSale quantity a o goodExcCode t) t.id := by
  refine ⟨fun a o r hr => ?_, fun _ _ => rfl, fun _ _ _ _ ha ho => ?_⟩
  · rcases Transaction.mem_refs.1 hr with hr | hr
    · exact Or.inl (Option.some.inj hr).symm
    · exact Or.inr (Option.some.inj hr).symm
  · simp [content, Book.post, newSale, Account.ref, ha.1, ha.2, ho.1, ho.2]

theorem newPurchase_readsKinds :
    ReadsKinds (fun a o => newPurchase quantity a o goodExcCode t) t.id := by
  refine ⟨fun a o r hr => ?_, fun _ _ => rfl, fun _ _ _ _ ha ho => ?_⟩
  · rcases Transaction.mem_refs.1 hr with hr | hr
    · exact Or.inr (Option.some.inj hr).symm
    · exact Or.inl (Option.some.inj hr).symm
  · simp [content, Book.post, newPurchase, Account.ref, ha.1, ha.2, ho.1, ho.2]

theorem newCreditNote_readsKinds :
    ReadsKinds (fun a o => newCreditNote quantity a o goodExcCode t) t.id := by
  refine ⟨fun a o r hr => ?_, fun _ _ => rfl, fun _ _ _ _ ha ho => ?_⟩
  · rcases Transaction.mem_refs.1 hr with hr | hr
    · exact Or.inl (Option.some.inj hr).symm
    · exact Or.inr (Option.some.inj hr).symm
  · simp [content, Book.post, newCreditNote, Account.ref, ha.1, ha.2, ho.1, ho.2]

/-- Looking up the other account and posting the transaction that `build` makes of the two. -/
theorem adds_with_other (P : Platform) {build : Account → Account → Transaction}
    {type : AccountType} (hbuild : ReadsKinds build t.id) (hb : Distinct b)
    (hfresh : EventFresh env b) (hopens : Opens env.goodAccountId b b₁ key good)
    (htype : createdType name = type) (hname : name ≠ env.goodAccountId) :
    let found := getOrCreateAccount env b₁ name type
    Adds env b (postAndCheck P env found.1 good (build good found.2) t).1 t.id
      (content (Book.post "" 0
        (build (accountOf (accountRefs b) key) (accountOf (accountRefs b) name)))) := by
  intro found
  have hother := getOrCreateAccount_opens env b₁ htype
  obtain ⟨hposts, -⟩ := posts_with_other P (build good) name type t hb hfresh hopens.grows
    (hbuild.refs good)
  have hb₁ := hopens.grows.distinct hb hfresh.goodAccountId
  have hb₂ := hother.grows.distinct hb₁
    (hopens.grows.notMem_ids hfresh.otherAccountId hfresh.accounts)
  have hrefs : accountRefs (postAndCheck P env found.1 good (build good found.2) t).1 =
      accountRefs found.1 :=
    (checkLastTxDate_frame P (b := { found.1 with transactions := found.1.transactions ++
      [Book.post env.transactionId env.now (build good found.2)] }) t
      ⟨hb₂.accountIds, hb₂.accountNames⟩ (hother.grows.keep hopens.grows.mem)).2.2
  refine ⟨hposts.distinct, ⟨_, hposts.transactions, ?_, hbuild.remoteIds _ _⟩, ?_⟩
  · exact hbuild.reads _ _ _ _ hopens.kind (hopens.others name hname ▸ hother.kind)
  · intro k hgood hk
    rw [hrefs, hother.others k hk, hopens.others k hgood]

end Posting

/-! ## One check -/

/-- The name that the good of a checked transaction is looked up by. -/
def goodKey (t : Payload) : Option String :=
  if truthy t.transaction.saleInvoice then t.transaction.good
  else if truthy t.transaction.purchaseInvoice then t.debitAccount.map Account.name
  else t.creditAccount.map Account.name

/-- The copy that is made of a checked transaction where there is none, between the accounts that
    the names stand for, without what the platform hands out. -/
def expected (P : Platform) (fb : Book) (refs : List AccountRef) (t : Payload) :
    Option Transaction :=
  let goodExcCode := getGoodExcCodeFromTransaction t fb
  let replicable := t.transaction.posted && tradedIn fb goodExcCode && t.transaction.id != ""
  match t.debitAccount, t.creditAccount, goodKey t, BotService.getQuantity P t.transaction with
  | some _, some _, some key, .ok (some quantity) =>
    let good := accountOf refs key
    let sell := accountOf refs goodSellAccountName
    let buy := accountOf refs goodBuyAccountName
    let copy := fun build : ℚ → Account → Account → Option String → Transaction → Transaction =>
      fun other => content (Book.post "" 0 (build quantity good other goodExcCode t.transaction))
    if !replicable || quantity = 0 then none
    else if truthy t.transaction.saleInvoice then some (copy newSale sell)
    else if truthy t.transaction.purchaseInvoice then some (copy newPurchase buy)
    else if truthy t.transaction.creditNote then some (copy newCreditNote buy)
    else none
  | _, _, _, _ => none

section Check

variable {P : Platform} {env : EventEnv} {fb b b' : Book} {event : Event} {t : Payload}
  {quantity : ℚ} {response : Response} {x : Transaction}

/-- The names that an event uses: not those of new ids, and a good is not named as an account that
    the webhook trades with. -/
structure Names (env : EventEnv) (t : Payload) : Prop where
  good : ∀ key ∈ goodKey t, createdType key = .asset
  buy : goodBuyAccountName ≠ env.goodAccountId
  sell : goodSellAccountName ≠ env.goodAccountId

/-- The inventory book after a check. -/
def checkedBook (P : Platform) (env : EventEnv) (fb b : Book) (event : Event) : Book :=
  match processObject P env fb b event with
  | .ok (b', _) => b'
  | .error _ => b

/-- The branches of a check that reaches them. -/
theorem processObject_of_reaches (h : Reaches P fb b event t quantity) (env : EventEnv)
    {debitAccount creditAccount : Account} (hdebit : t.debitAccount = some debitAccount)
    (hcredit : t.creditAccount = some creditAccount) :
    processObject P env fb b event =
      if truthy t.transaction.saleInvoice then
        sell P env b quantity t (getGoodExcCodeFromTransaction t fb)
      else if truthy t.transaction.purchaseInvoice then
        .ok (buy P env b quantity t debitAccount (getGoodExcCodeFromTransaction t fb))
      else if truthy t.transaction.creditNote then
        .ok (credit P env b quantity t creditAccount (getGoodExcCodeFromTransaction t fb))
      else .ok (b, .silent) := by
  unfold processObject connectedTransactionNotFound
  simp only [h.transaction, h.replicable.posted, h.traded, remoteId_head?_eq_none.2 h.new, hdebit,
    hcredit, h.replicable.id, h.replicable.parses, if_true, if_false]
  exact if_neg h.replicable.nonzero

section Branches

variable {goodExcCode : Option String}

/-- The branch of a sale posts what is expected. -/
theorem sell_adds (P : Platform) (quantity : ℚ) (goodExcCode : Option String) {key : String}
    (hb : Distinct b) (hfresh : EventFresh env b)
    (hgood : t.transaction.good = some key) (htype : createdType key = .asset)
    (hsell : goodSellAccountName ≠ env.goodAccountId) :
    ∃ b' response, sell P env b quantity t goodExcCode = .ok (b', response) ∧
      Adds env b b' t.transaction.id (content (Book.post "" 0 (newSale quantity
        (accountOf (accountRefs b) key) (accountOf (accountRefs b) goodSellAccountName)
        goodExcCode t.transaction))) := by
  unfold sell
  dsimp only
  rw [hgood, Option.bind_some]
  cases hfound : b.getAccount key with
  | some good =>
    have hopens := Opens.found hfound env.goodAccountId
    exact ⟨_, _, rfl, adds_with_other P newSale_readsKinds hb hfresh hopens (by decide) hsell⟩
  | none =>
    have hopens : Opens env.goodAccountId b _ key _ := createOnSale_opens hfound htype rfl
    exact ⟨_, _, rfl, adds_with_other P newSale_readsKinds hb hfresh hopens (by decide) hsell⟩

/-- The branch of a purchase posts what is expected. -/
theorem buy_adds (hb : Distinct b) (hfresh : EventFresh env b) {debitAccount : Account}
    (htype : createdType debitAccount.name = .asset)
    (hbuy : goodBuyAccountName ≠ env.goodAccountId) :
    Adds env b (buy P env b quantity t debitAccount goodExcCode).1 t.transaction.id
      (content (Book.post "" 0 (newPurchase quantity
        (accountOf (accountRefs b) debitAccount.name) (accountOf (accountRefs b) goodBuyAccountName)
        goodExcCode t.transaction))) := by
  unfold buy
  cases hfound : b.getAccount debitAccount.name with
  | none =>
    have hopens := createOnPurchase_opens env hfound htype
    exact adds_with_other P newPurchase_readsKinds hb hfresh hopens (by decide) hbuy
  | some found =>
    obtain ⟨htransactions, hinfo, hrefs, hchecked⟩ := checkInventoryAccount_refs hb hfound
    -- the account object is the synchronised one or the other, and both show the same
    have hgood : (if P.sharesAccounts then (checkInventoryAccount b debitAccount).2.getD found
        else found).ref = found.ref := by
      split
      · cases hc : (checkInventoryAccount b debitAccount).2 with
        | none => rfl
        | some checked => exact hchecked checked hc
      · rfl
    have hkind := accountOf_found hfound
    have hopens : Opens env.goodAccountId b (checkInventoryAccount b debitAccount).1
        debitAccount.name (if P.sharesAccounts then
          (checkInventoryAccount b debitAccount).2.getD found else found) := by
      refine ⟨⟨htransactions, hinfo, ?_, Or.inl hrefs⟩, ?_, fun key _ => by rw [hrefs]⟩
      · rw [hrefs, hgood]
        exact ref_mem_of_getAccount hfound
      · exact ⟨(congrArg AccountRef.name hgood).trans hkind.1,
          (congrArg AccountRef.type hgood).trans hkind.2⟩
    exact adds_with_other P newPurchase_readsKinds hb hfresh hopens (by decide) hbuy

/-- The branch of a credit note posts what is expected. -/
theorem credit_adds (hb : Distinct b) (hfresh : EventFresh env b) {creditAccount : Account}
    (htype : createdType creditAccount.name = .asset)
    (hbuy : goodBuyAccountName ≠ env.goodAccountId) :
    Adds env b (credit P env b quantity t creditAccount goodExcCode).1 t.transaction.id
      (content (Book.post "" 0 (newCreditNote quantity
        (accountOf (accountRefs b) creditAccount.name)
        (accountOf (accountRefs b) goodBuyAccountName) goodExcCode t.transaction))) := by
  unfold credit
  cases hfound : b.getAccount creditAccount.name with
  | none =>
    have hopens := createOnPurchase_opens env hfound htype
    exact adds_with_other P newCreditNote_readsKinds hb hfresh hopens (by decide) hbuy
  | some good =>
    have hopens := Opens.found hfound env.goodAccountId
    exact adds_with_other P newCreditNote_readsKinds hb hfresh hopens (by decide) hbuy

end Branches

/-- A check that reaches the branches posts what is expected, or nothing. -/
theorem Reaches.adds (h : Reaches P fb b event t quantity) (hb : Distinct b)
    (hfresh : EventFresh env b) (hnames : Names env t) :
    (checkedBook P env fb b event = b ∧ expected P fb (accountRefs b) t = none) ∨
      ∃ x, expected P fb (accountRefs b) t = some x ∧
        Adds env b (checkedBook P env fb b event) t.transaction.id x := by
  obtain ⟨debitAccount, hdebit⟩ := Option.ne_none_iff_exists'.1 h.replicable.debitAccount
  obtain ⟨creditAccount, hcredit⟩ := Option.ne_none_iff_exists'.1 h.replicable.creditAccount
  have hreplicable := h.replicable
  unfold checkedBook
  rw [processObject_of_reaches h env hdebit hcredit]
  by_cases hsale : truthy t.transaction.saleInvoice = true
  · have hkey : goodKey t = t.transaction.good := by rw [goodKey, if_pos hsale]
    rw [if_pos hsale]
    cases hgood : t.transaction.good with
    | none =>
      left
      simp [sell, expected, hkey, hgood, createConnectedInventoryAccountOnSale]
    | some key =>
      obtain ⟨b', response, hsell, hadds⟩ := sell_adds P quantity
        (getGoodExcCodeFromTransaction t fb) hb hfresh hgood
        (hnames.good key (hkey.trans hgood)) hnames.sell
      right
      rw [hsell]
      refine ⟨_, ?_, hadds⟩
      simp [expected, hdebit, hcredit, hkey, hgood, hreplicable.parses, hreplicable.posted,
        hreplicable.id, h.traded, hreplicable.nonzero, hsale]
  · rw [if_neg hsale]
    by_cases hpurchase : truthy t.transaction.purchaseInvoice = true
    · have hkey : goodKey t = some debitAccount.name := by
        rw [goodKey, if_neg hsale, if_pos hpurchase, hdebit, Option.map_some]
      right
      rw [if_pos hpurchase]
      refine ⟨_, ?_, buy_adds hb hfresh (hnames.good _ hkey) hnames.buy⟩
      simp [expected, hdebit, hcredit, hkey, hreplicable.parses, hreplicable.posted,
        hreplicable.id, h.traded, hreplicable.nonzero, hsale, hpurchase]
    · have hkey : goodKey t = some creditAccount.name := by
        rw [goodKey, if_neg hsale, if_neg hpurchase, hcredit, Option.map_some]
      rw [if_neg hpurchase]
      by_cases hcreditNote : truthy t.transaction.creditNote = true
      · right
        rw [if_pos hcreditNote]
        refine ⟨_, ?_, credit_adds hb hfresh (hnames.good _ hkey) hnames.buy⟩
        simp [expected, hdebit, hcredit, hkey, hreplicable.parses, hreplicable.posted,
          hreplicable.id, h.traded, hreplicable.nonzero, hsale, hpurchase, hcreditNote]
      · left
        rw [if_neg hcreditNote]
        simp [expected, hdebit, hcredit, hkey, hreplicable.parses, hsale, hpurchase, hcreditNote]

/-- Where a copy is expected and there is none, a check reaches the branches. -/
theorem reaches_of_expected {refs : List AccountRef} (hevent : event.transaction = some t)
    (hnew : ∀ u ∈ b.transactions, t.transaction.id ∉ u.remoteIds)
    (h : expected P fb refs t = some x) : ∃ quantity, Reaches P fb b event t quantity := by
  unfold expected at h
  dsimp only at h
  split at h
  swap
  · cases h
  rename_i debitAccount creditAccount key quantity hdebit hcredit hkey hquantity
  split at h
  · cases h
  rename_i hcond
  simp only [Bool.or_eq_true, Bool.not_eq_true', Bool.and_eq_false_iff, decide_eq_true_eq, not_or,
    bne_eq_false_iff_eq, Bool.not_eq_false] at hcond
  obtain ⟨⟨⟨hposted, htraded⟩, hid⟩, hnonzero⟩ := hcond
  exact ⟨quantity, hevent, ⟨hposted, hid, by simp [hdebit], by simp [hcredit], hquantity,
    hnonzero⟩, htraded, hnew⟩

/-- A check whose branches are not reached changes nothing. -/
theorem checkedBook_of_not_reaches (hevent : event.transaction = some t)
    (h : ¬∃ quantity, Reaches P fb b event t quantity) : checkedBook P env fb b event = b := by
  unfold checkedBook
  cases hhandled : processObject P env fb b event with
  | error e => rfl
  | ok result =>
    obtain ⟨b', response⟩ := result
    rcases processObject_branches hhandled with ⟨rfl, -⟩ | ⟨u, quantity, hreaches, -⟩
    · rfl
    · obtain rfl : u = t := Option.some.inj (hreaches.transaction.symm.trans hevent)
      exact absurd ⟨quantity, hreaches⟩ h

/-- A check adds what is expected, unless it is there. -/
theorem checkedBook_cases (P : Platform) (fb : Book) (hb : Distinct b) (hfresh : EventFresh env b)
    (hevent : event.transaction = some t) (hnames : Names env t) :
    (checkedBook P env fb b event = b ∧ (expected P fb (accountRefs b) t = none ∨
        ∃ u ∈ b.transactions, t.transaction.id ∈ u.remoteIds)) ∨
      ∃ x, expected P fb (accountRefs b) t = some x ∧
        (∀ u ∈ b.transactions, t.transaction.id ∉ u.remoteIds) ∧
        Adds env b (checkedBook P env fb b event) t.transaction.id x := by
  by_cases hreaches : ∃ quantity, Reaches P fb b event t quantity
  · obtain ⟨quantity, hreaches⟩ := hreaches
    rcases hreaches.adds hb hfresh hnames with ⟨hsame, hnone⟩ | ⟨x, hx, hadds⟩
    · exact Or.inl ⟨hsame, Or.inl hnone⟩
    · exact Or.inr ⟨x, hx, hreaches.new, hadds⟩
  · refine Or.inl ⟨checkedBook_of_not_reaches hevent hreaches, ?_⟩
    by_contra hboth
    obtain ⟨hsome, hnew⟩ := not_or.1 hboth
    obtain ⟨x, hx⟩ := Option.ne_none_iff_exists'.1 hsome
    exact hreaches (reaches_of_expected hevent (fun u hu hmem => hnew ⟨u, hu, hmem⟩) hx)

end Check

/-! ## Deliveries -/

/-- The names that the webhook looks accounts up by. -/
def keys (goods : List String) : List String := goodBuyAccountName :: goodSellAccountName :: goods

/-- What is expected depends only on the accounts that the names stand for. -/
theorem expected_congr {P : Platform} {fb : Book} {refs refs' : List AccountRef} {t : Payload}
    {goods : List String} (hgood : ∀ key ∈ goodKey t, key ∈ goods)
    (h : ∀ key ∈ keys goods, accountOf refs' key = accountOf refs key) :
    expected P fb refs' t = expected P fb refs t := by
  have hbuy := h goodBuyAccountName List.mem_cons_self
  have hsell := h goodSellAccountName (List.mem_cons_of_mem _ List.mem_cons_self)
  have hkey : ∀ key, goodKey t = some key → accountOf refs' key = accountOf refs key :=
    fun key hkey => h key (List.mem_cons_of_mem _ (List.mem_cons_of_mem _ (hgood key hkey)))
  unfold expected
  dsimp only
  rw [hbuy, hsell]
  split
  · rename_i debitAccount creditAccount key quantity hdebit hcredit hgoodKey hquantity
    rw [hkey key hgoodKey]
  · rfl

/-- The webhook handles checks of transactions of the financial book, one after another. The ids
    of new accounts are not names that accounts are looked up by. -/
inductive Checks (P : Platform) (collection : Option (List BookInfo)) (goods : List String)
    (s : State) : List Payload → State → Prop
  | start : Checks P collection goods s [] s
  | next {payloads : List Payload} {s' : State} {env : EventEnv} {event : Event} {t : Payload}
      (h : Checks P collection goods s payloads s')
      (hbook : Events.BotService.isInventoryBook event.book = false)
      (htype : event.type = .checked) (hevent : event.transaction = some t)
      (hgood : ∀ key ∈ goodKey t, key ∈ goods) (hfresh : EventFresh env s'.inventoryBook)
      (hids : ∀ key ∈ keys goods, key ≠ env.goodAccountId ∧ key ≠ env.otherAccountId) :
      Checks P collection goods s (payloads ++ [t]) (handleEvent P collection env s' event)

/-- A transaction of the book has the id among its remote ids. -/
def Taken (b : Book) (id : String) : Prop := ∃ u ∈ b.transactions, id ∈ u.remoteIds

/-- What a row shows of the copy that it is. -/
def shownCopy (c : Transaction) : Transaction × List String := (content c, c.remoteIds)

/-- The rows after some checks: those before, and one for each copy that was stored. -/
structure Stores (P : Platform) (goods : List String) (s s' : State) (payloads : List Payload)
    (stored : List (String × Transaction)) : Prop where
  distinct : Distinct s'.inventoryBook
  financial : s'.financialBook = s.financialBook
  accounts : ∀ key ∈ keys goods,
    accountOf (accountRefs s'.inventoryBook) key = accountOf (accountRefs s.inventoryBook) key
  delivers : Delivers (fun t : Payload => t.transaction.id)
    (expected P s.financialBook (accountRefs s.inventoryBook)) (Taken s.inventoryBook) payloads
    stored
  rows : s'.inventoryBook.transactions.map shownCopy =
    s.inventoryBook.transactions.map shownCopy ++ stored.map fun y => (y.2, [y.1])

section Deliveries

variable {P : Platform} {collection : Option (List BookInfo)} {goods : List String}
  {s s' : State} {payloads : List Payload} {stored : List (String × Transaction)}

theorem taken_iff {b : Book} {id : String} :
    Taken b id ↔ ∃ y ∈ b.transactions.map shownCopy, id ∈ y.2 := by
  simp [Taken, shownCopy]

theorem Stores.taken (h : Stores P goods s s' payloads stored) (id : String) :
    Taken s'.inventoryBook id ↔ Taken s.inventoryBook id ∨ id ∈ stored.map Prod.fst := by
  rw [taken_iff, taken_iff, h.rows]
  constructor
  · rintro ⟨y, hy, hid⟩
    rcases List.mem_append.1 hy with hy | hy
    · exact Or.inl ⟨y, hy, hid⟩
    · obtain ⟨z, hz, rfl⟩ := List.mem_map.1 hy
      exact Or.inr (List.mem_map.2 ⟨z, hz, (List.mem_singleton.1 hid).symm⟩)
  · rintro (⟨y, hy, hid⟩ | hid)
    · exact ⟨y, List.mem_append_left _ hy, hid⟩
    · obtain ⟨z, hz, rfl⟩ := List.mem_map.1 hid
      exact ⟨_, List.mem_append_right _ (List.mem_map_of_mem hz), List.mem_cons_self⟩

theorem handleEvent_eq_checkedBook {env : EventEnv} {event : Event}
    (hbook : Events.BotService.isInventoryBook event.book = false) (htype : event.type = .checked)
    (hcollection : Events.BotService.getInventoryBook collection ≠ none) :
    handleEvent P collection env s event =
      { s with inventoryBook := checkedBook P env s.financialBook s.inventoryBook event } := by
  rw [handleEvent_checked_financial hbook htype hcollection]
  unfold checkedBook
  cases processObject P env s.financialBook s.inventoryBook event <;> rfl

/-- One more check stores what is expected of it, unless it is there. -/
theorem Stores.next {env : EventEnv} {event : Event} {t : Payload}
    (h : Stores P goods s s' payloads stored)
    (hcollection : Events.BotService.getInventoryBook collection ≠ none)
    (hgoods : ∀ good ∈ goods, createdType good = .asset)
    (hbook : Events.BotService.isInventoryBook event.book = false) (htype : event.type = .checked)
    (hevent : event.transaction = some t) (hgood : ∀ key ∈ goodKey t, key ∈ goods)
    (hfresh : EventFresh env s'.inventoryBook)
    (hids : ∀ key ∈ keys goods, key ≠ env.goodAccountId ∧ key ≠ env.otherAccountId) :
    ∃ stored, Stores P goods s (handleEvent P collection env s' event) (payloads ++ [t]) stored := by
  have hnames : Names env t :=
    ⟨fun key hkey => hgoods key (hgood key hkey), (hids _ List.mem_cons_self).1,
      (hids _ (List.mem_cons_of_mem _ List.mem_cons_self)).1⟩
  have hexpected : expected P s.financialBook (accountRefs s'.inventoryBook) t =
      expected P s.financialBook (accountRefs s.inventoryBook) t :=
    expected_congr hgood h.accounts
  rw [handleEvent_eq_checkedBook hbook htype hcollection, h.financial]
  rcases checkedBook_cases P s.financialBook h.distinct hfresh hevent hnames with
    ⟨hsame, hwhy⟩ | ⟨x, hx, hnew, hadds⟩
  · rw [hexpected] at hwhy
    refine ⟨stored, ?_⟩
    rw [hsame]
    refine ⟨h.distinct, rfl, h.accounts, h.delivers.snoc ?_, h.rows⟩
    rcases hwhy with hnone | hknown
    · exact .empty hnone
    · exact .known ((h.taken _).1 hknown)
  · rw [hexpected] at hx
    obtain ⟨c, htransactions, hcontent, hremote⟩ := hadds.rows
    have hnot : ¬Taken s'.inventoryBook t.transaction.id := fun ⟨u, hu, hid⟩ => hnew u hu hid
    rw [h.taken, not_or] at hnot
    refine ⟨stored ++ [(t.transaction.id, x)], hadds.distinct, rfl, fun key hkey => ?_,
      h.delivers.snoc (.added hnot.1 hnot.2 hx), ?_⟩
    · obtain ⟨hgoodId, hotherId⟩ := hids key hkey
      exact (hadds.others key hgoodId hotherId).trans (h.accounts key hkey)
    · rw [htransactions, List.map_append, h.rows, List.map_append, List.append_assoc]
      simp [shownCopy, hcontent, hremote]

theorem Checks.stores (h : Checks P collection goods s payloads s')
    (hs : Distinct s.inventoryBook)
    (hcollection : Events.BotService.getInventoryBook collection ≠ none)
    (hgoods : ∀ good ∈ goods, createdType good = .asset) :
    ∃ stored, Stores P goods s s' payloads stored := by
  induction h with
  | start => exact ⟨[], hs, rfl, fun _ _ => rfl, .nil, by simp⟩
  | next h hbook htype hevent hgood hfresh hids ih =>
    obtain ⟨stored, hstores⟩ := ih
    exact hstores.next hcollection hgoods hbook htype hevent hgood hfresh hids

/-- Two deliveries of the same checks, in any order and any number of times, end with the same
    copies. -/
theorem checks_in_any_order {payloads' : List Payload} {s₁ s₂ : State}
    (hs : Distinct s.inventoryBook)
    (hcollection : Events.BotService.getInventoryBook collection ≠ none)
    (hgoods : ∀ good ∈ goods, createdType good = .asset)
    (h₁ : Checks P collection goods s payloads s₁)
    (h₂ : Checks P collection goods s payloads' s₂)
    (hsame : ∀ t, t ∈ payloads ↔ t ∈ payloads')
    (hunedited : ∀ t ∈ payloads, ∀ t' ∈ payloads, t.transaction.id = t'.transaction.id → t = t') :
    (s₁.inventoryBook.transactions.map content).Perm
      (s₂.inventoryBook.transactions.map content) := by
  obtain ⟨stored₁, hstores₁⟩ := h₁.stores hs hcollection hgoods
  obtain ⟨stored₂, hstores₂⟩ := h₂.stores hs hcollection hgoods
  have hstored := hstores₁.delivers.perm hstores₂.delivers hsame fun t ht t' ht' hid =>
    congrArg _ (hunedited t ht t' ht' hid)
  have hrows : (s₁.inventoryBook.transactions.map shownCopy).Perm
      (s₂.inventoryBook.transactions.map shownCopy) := by
    rw [hstores₁.rows, hstores₂.rows]
    exact (hstored.map _).append_left _
  have hcontents := hrows.map Prod.fst
  rwa [List.map_map, List.map_map] at hcontents

end Deliveries

/-! ## A purchase and a sale -/

namespace Sample

/-- The books after the given checks in the dollar book. -/
def afterChecks (l : List (EventEnv × Payload)) : State :=
  l.foldl (fun s check => handleEvent decimalPlatform books check.1 s
    { type := .checked, book := dollars, transaction := some check.2 })
    ⟨emptyBook, dollarBook "USD"⟩

def lastEnv : EventEnv := { laterEnv with transactionId := "i-3" }

theorem checks_snoc {l : List (EventEnv × Payload)} {payloads : List Payload}
    (h : Checks decimalPlatform books ["Widgets"] ⟨emptyBook, dollarBook "USD"⟩ payloads
      (afterChecks l)) {env : EventEnv} {t : Payload} (hgood : goodKey t = some "Widgets")
    (hfresh : EventFresh env (afterChecks l).inventoryBook)
    (hids : ∀ key ∈ keys ["Widgets"], key ≠ env.goodAccountId ∧ key ≠ env.otherAccountId) :
    Checks decimalPlatform books ["Widgets"] ⟨emptyBook, dollarBook "USD"⟩ (payloads ++ [t])
      (afterChecks (l ++ [(env, t)])) := by
  rw [afterChecks, List.foldl_append]
  show Checks decimalPlatform books ["Widgets"] ⟨emptyBook, dollarBook "USD"⟩ (payloads ++ [t])
    (handleEvent decimalPlatform books env (afterChecks l)
      { type := .checked, book := dollars, transaction := some t })
  have hbook : Events.BotService.isInventoryBook dollars = false := by decide
  refine .next h hbook rfl rfl (fun key hkey => ?_) hfresh hids
  obtain rfl : key = "Widgets" := Option.some.inj (hkey.symm.trans hgood)
  exact List.mem_cons_self

end Sample

/-- The purchase and the sale, and the sale before the purchase and once more after it. -/
theorem checks_in_any_order_sample :
    ((Sample.afterChecks [(Sample.eventEnv, Sample.purchase "USD"),
        (Sample.saleEnv, Sample.sale "4")]).inventoryBook.transactions.map content).Perm
      ((Sample.afterChecks [(Sample.eventEnv, Sample.sale "4"),
        (Sample.saleEnv, Sample.purchase "USD"), (Sample.lastEnv, Sample.sale "4")
        ]).inventoryBook.transactions.map content) := by
  have hstart : EventFresh Sample.eventEnv Sample.emptyBook :=
    ⟨by decide, by decide, by decide, by decide⟩
  have hpurchase : goodKey (Sample.purchase "USD") = some "Widgets" := by decide +kernel
  have hsale : goodKey (Sample.sale "4") = some "Widgets" := by decide +kernel
  have hids : ∀ key ∈ keys ["Widgets"],
      key ≠ Sample.eventEnv.goodAccountId ∧ key ≠ Sample.eventEnv.otherAccountId := by
    decide +kernel
  have hids' : ∀ key ∈ keys ["Widgets"],
      key ≠ Sample.saleEnv.goodAccountId ∧ key ≠ Sample.saleEnv.otherAccountId := by
    decide +kernel
  have hids'' : ∀ key ∈ keys ["Widgets"],
      key ≠ Sample.lastEnv.goodAccountId ∧ key ≠ Sample.lastEnv.otherAccountId := by
    decide +kernel
  have h₁ := Sample.checks_snoc (Sample.checks_snoc (l := []) .start hpurchase hstart hids)
    hsale ⟨by decide +kernel, by decide +kernel, by decide +kernel, by decide +kernel⟩ hids'
  have h₂ := Sample.checks_snoc (Sample.checks_snoc (Sample.checks_snoc (l := [])
    .start hsale hstart hids) hpurchase
      ⟨by decide +kernel, by decide +kernel, by decide +kernel, by decide +kernel⟩ hids')
    hsale ⟨by decide +kernel, by decide +kernel, by decide +kernel, by decide +kernel⟩ hids''
  refine checks_in_any_order Sample.emptyBook_complete.toDistinct (by decide) (by decide +kernel)
    h₁ h₂ (by simp [or_comm]) ?_
  simp [Sample.purchase, Sample.sale]

end InventoryBot.System
