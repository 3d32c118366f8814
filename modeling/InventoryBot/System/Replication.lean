import InventoryBot.Events.EventHandlerTransactionChecked
import InventoryBot.System.Books

/-!
# What a checked financial transaction becomes

The webhook replicates a checked transaction of a financial book at most once: a later check finds
the copy.

* `Copy`: the inventory transaction that the webhook posts for a financial one.
* `processObject_cases`: handling a checked transaction posts one copy or nothing.
* `processObject_complete`: it keeps the inventory book complete.
-/

namespace InventoryBot.System

open Lib Menu Events

/-- The copy that the webhook posts of a financial transaction with a quantity, and its answer. -/
inductive Copy (env : EventEnv) (quantity : ℚ) (goodExcCode : Option String) (t : Transaction) :
    Response → Transaction → Prop
  | sale (good other : Account) (flagged : Bool) (hkind : truthy t.saleInvoice = true) :
      Copy env quantity goodExcCode t
        (.sell (Book.post env.transactionId env.now (newSale quantity good other goodExcCode t))
          flagged)
        (Book.post env.transactionId env.now (newSale quantity good other goodExcCode t))
  | purchase (good other : Account) (flagged : Bool) (hsale : truthy t.saleInvoice = false)
      (hkind : truthy t.purchaseInvoice = true) :
      Copy env quantity goodExcCode t
        (.buy (Book.post env.transactionId env.now (newPurchase quantity good other goodExcCode t))
          flagged)
        (Book.post env.transactionId env.now (newPurchase quantity good other goodExcCode t))
  | creditNote (good other : Account) (flagged : Bool) (hsale : truthy t.saleInvoice = false)
      (hpurchase : truthy t.purchaseInvoice = false) (hkind : truthy t.creditNote = true) :
      Copy env quantity goodExcCode t
        (.credit (Book.post env.transactionId env.now
          (newCreditNote quantity good other goodExcCode t)) flagged)
        (Book.post env.transactionId env.now (newCreditNote quantity good other goodExcCode t))

/-- The ids that the outside hands out for an event are new. -/
structure EventFresh (env : EventEnv) (b : Book) : Prop where
  transactionId : env.transactionId ∉ "" :: b.transactions.map Transaction.id
  accounts : env.goodAccountId ≠ env.otherAccountId
  goodAccountId : env.goodAccountId ∉ (accountRefs b).map AccountRef.id
  otherAccountId : env.otherAccountId ∉ (accountRefs b).map AccountRef.id

/-! ## Accounts -/

/-- The accounts of the inventory book after an account was looked up that is created under a new
    id where it is missing. -/
structure Grows (newId : String) (b b' : Book) (a : Account) : Prop where
  transactions : b'.transactions = b.transactions
  info : b'.info = b.info
  mem : a.ref ∈ accountRefs b'
  refs : accountRefs b' = accountRefs b ∨
    (accountRefs b' = accountRefs b ++ [a.ref] ∧ a.id = newId ∧
      a.name ∉ (accountRefs b).map AccountRef.name)

/-- The accounts of a book have different ids and names. -/
structure Distinct (b : Book) : Prop where
  accountIds : ((accountRefs b).map AccountRef.id).Nodup
  accountNames : ((accountRefs b).map AccountRef.name).Nodup

theorem nodup_map_append_singleton {α β : Type*} {f : α → β} {l : List α} {a : α}
    (hl : (l.map f).Nodup) (ha : f a ∉ l.map f) : ((l ++ [a]).map f).Nodup := by
  rw [List.map_append, List.map_singleton]
  refine List.nodup_append.2 ⟨hl, List.nodup_singleton _, ?_⟩
  rintro x hx y hy rfl
  exact ha (List.mem_singleton.1 hy ▸ hx)

theorem Grows.distinct {newId : String} {b b' : Book} {a : Account} (h : Grows newId b b' a)
    (hb : Distinct b) (hnew : newId ∉ (accountRefs b).map AccountRef.id) : Distinct b' := by
  rcases h.refs with hsame | ⟨hrefs, hid, hname⟩
  · exact ⟨hsame ▸ hb.accountIds, hsame ▸ hb.accountNames⟩
  · refine ⟨?_, ?_⟩
    · rw [hrefs]
      exact nodup_map_append_singleton hb.accountIds (hid ▸ hnew : a.id ∉ _)
    · rw [hrefs]
      exact nodup_map_append_singleton hb.accountNames hname

theorem Grows.keep {newId : String} {b b' : Book} {a : Account} (h : Grows newId b b' a)
    {r : AccountRef} (hr : r ∈ accountRefs b) : r ∈ accountRefs b' := by
  rcases h.refs with hsame | ⟨hrefs, -, -⟩
  · rwa [hsame]
  · rw [hrefs]
    exact List.mem_append_left _ hr

theorem Grows.notMem_ids {newId id : String} {b b' : Book} {a : Account} (h : Grows newId b b' a)
    (hid : id ∉ (accountRefs b).map AccountRef.id) (hne : newId ≠ id) :
    id ∉ (accountRefs b').map AccountRef.id := by
  rcases h.refs with hsame | ⟨hrefs, ha, -⟩
  · rwa [hsame]
  · rw [hrefs, List.map_append, List.mem_append, not_or]
    refine ⟨hid, fun hmem => hne ?_⟩
    exact ha.symm.trans (List.mem_singleton.1 hmem).symm

theorem getOrCreateAccount_grows (env : EventEnv) (b : Book) (name : String) (type : AccountType) :
    Grows env.otherAccountId b (getOrCreateAccount env b name type).1
      (getOrCreateAccount env b name type).2 := by
  unfold getOrCreateAccount
  cases hfound : b.getAccount name with
  | some account => exact ⟨rfl, rfl, ref_mem_of_getAccount hfound, Or.inl rfl⟩
  | none =>
    have hrefs : accountRefs (createAccount b
        { id := env.otherAccountId, name := name, type := type }) =
        accountRefs b ++ [⟨env.otherAccountId, name, type⟩] := by
      simp [accountRefs, createAccount, Account.ref]
    refine ⟨rfl, rfl, ?_, Or.inr ⟨hrefs, rfl, name_notMem_of_getAccount hfound⟩⟩
    rw [hrefs]
    exact List.mem_append_right _ List.mem_cons_self

theorem connectGroups_frame (groups : List Group) (b : Book) :
    (connectGroups groups b).1.transactions = b.transactions ∧
      (connectGroups groups b).1.info = b.info ∧
      (connectGroups groups b).1.accounts = b.accounts := by
  induction groups generalizing b with
  | nil => exact ⟨rfl, rfl, rfl⟩
  | cons group rest ih =>
    rw [connectGroups]
    split
    · exact ih b
    · exact ih _

theorem createOnPurchase_grows (env : EventEnv) {b : Book} {a : Account}
    (hmissing : b.getAccount a.name = none) :
    Grows env.goodAccountId b (createConnectedInventoryAccountOnPurchase env b a).1
      (createConnectedInventoryAccountOnPurchase env b a).2 := by
  obtain ⟨htransactions, hinfo, haccounts⟩ := connectGroups_frame a.groups b
  have hrefs : accountRefs (createConnectedInventoryAccountOnPurchase env b a).1 =
      accountRefs b ++ [⟨env.goodAccountId, a.name, .asset⟩] := by
    simp [accountRefs, createConnectedInventoryAccountOnPurchase, createAccount, Account.ref,
      haccounts]
  refine ⟨htransactions, hinfo, ?_, Or.inr ⟨hrefs, rfl, name_notMem_of_getAccount hmissing⟩⟩
  rw [hrefs]
  exact List.mem_append_right _ List.mem_cons_self

theorem createOnSale_grows (env : EventEnv) {b b' : Book} {good : Option String} {a : Account}
    (hmissing : good.bind b.getAccount = none)
    (h : createConnectedInventoryAccountOnSale env b good = .ok (b', a)) :
    Grows env.goodAccountId b b' a := by
  cases good with
  | none => cases h
  | some name =>
    cases h
    have hrefs : accountRefs (createAccount b
        { id := env.goodAccountId, name := name, type := .asset }) =
        accountRefs b ++ [⟨env.goodAccountId, name, .asset⟩] := by
      simp [accountRefs, createAccount, Account.ref]
    refine ⟨rfl, rfl, ?_, Or.inr ⟨hrefs, rfl, name_notMem_of_getAccount hmissing⟩⟩
    rw [hrefs]
    exact List.mem_append_right _ List.mem_cons_self

/-- Synchronising the account of a good keeps its id, name and type. -/
theorem checkInventoryAccount_refs {b : Book} (hb : Distinct b) {a found : Account}
    (hfound : b.getAccount a.name = some found) :
    (checkInventoryAccount b a).1.transactions = b.transactions ∧
      (checkInventoryAccount b a).1.info = b.info ∧
      accountRefs (checkInventoryAccount b a).1 = accountRefs b ∧
      ∀ checked, (checkInventoryAccount b a).2 = some checked → checked.ref = found.ref := by
  obtain ⟨htransactions, hinfo, haccounts⟩ := connectGroups_frame a.groups b
  have hrefs : accountRefs (connectGroups a.groups b).1 = accountRefs b := by
    unfold accountRefs
    rw [haccounts]
  unfold checkInventoryAccount
  rw [hfound]
  refine ⟨htransactions, hinfo, ?_, ?_⟩
  · refine (accountRefs_updateAccount (hrefs ▸ hb.accountIds) ?_).trans hrefs
    rw [hrefs]
    exact (ref_mem_of_getAccount hfound : found.ref ∈ accountRefs b)
  · rintro checked ⟨⟩
    rfl

/-! ## Posting -/

/-- What posting a copy does to the inventory book. -/
structure PostsRow (b b' : Book) (c : Transaction) : Prop where
  transactions : b'.transactions = b.transactions ++ [c]
  info : b'.info = b.info
  distinct : Distinct b'
  kept : ∀ r ∈ accountRefs b, r ∈ accountRefs b'
  refs : ∀ r ∈ c.refs, r ∈ accountRefs b'

theorem checkLastTxDate_frame (P : Platform) {b : Book} {a : Account} (t : Transaction)
    (hb : Distinct b) (ha : a.ref ∈ accountRefs b) :
    (checkLastTxDate P b a t).1.transactions = b.transactions ∧
      (checkLastTxDate P b a t).1.info = b.info ∧
      accountRefs (checkLastTxDate P b a t).1 = accountRefs b := by
  unfold checkLastTxDate
  split
  · exact ⟨rfl, rfl, accountRefs_updateAccount hb.accountIds ha⟩
  · exact ⟨rfl, rfl, rfl⟩

/-- Posting a transaction of two accounts of the book, and the check after it. -/
theorem postAndCheck_posts (P : Platform) (env : EventEnv) {b : Book} {a : Account}
    {new : Transaction} (t : Transaction) (hb : Distinct b) (ha : a.ref ∈ accountRefs b)
    (hrefs : ∀ r ∈ new.refs, r ∈ accountRefs b) :
    PostsRow b (postAndCheck P env b a new t).1 (Book.post env.transactionId env.now new) ∧
      (postAndCheck P env b a new t).2.1 = Book.post env.transactionId env.now new := by
  obtain ⟨htransactions, hinfo, haccounts⟩ := checkLastTxDate_frame P
    (b := { b with transactions := b.transactions ++ [Book.post env.transactionId env.now new] })
    t ⟨hb.accountIds, hb.accountNames⟩ ha
  refine ⟨⟨htransactions, hinfo, ⟨haccounts ▸ hb.accountIds, haccounts ▸ hb.accountNames⟩, ?_, ?_⟩,
    rfl⟩
  · exact fun r hr => haccounts ▸ hr
  · exact fun r hr => haccounts ▸ hrefs r hr

/-- Looking up the two accounts of a copy and posting it. -/
theorem PostsRow.after {b b₁ b₂ b' : Book} {c : Transaction} {id id' : String} {a a' : Account}
    (h : PostsRow b₂ b' c) (hgood : Grows id b b₁ a) (hother : Grows id' b₁ b₂ a') :
    PostsRow b b' c where
  transactions := by rw [h.transactions, hother.transactions, hgood.transactions]
  info := by rw [h.info, hother.info, hgood.info]
  distinct := h.distinct
  kept := fun r hr => h.kept r (hother.keep (hgood.keep hr))
  refs := h.refs

section Branches

variable {P : Platform} {env : EventEnv} {b b' : Book} {quantity : ℚ} {t : Payload}
  {goodExcCode : Option String} {response : Response}

/-- Looking up the other account and posting the transaction `build` makes with it. -/
theorem posts_with_other (P : Platform) {b₁ : Book} {good : Account}
    (build : Account → Transaction) (name : String) (type : AccountType) (tx : Transaction)
    (hb : Distinct b)
    (hfresh : EventFresh env b) (hgrows : Grows env.goodAccountId b b₁ good)
    (hbuild : ∀ other, ∀ r ∈ (build other).refs, r = good.ref ∨ r = other.ref) :
    let found := getOrCreateAccount env b₁ name type
    let posted := postAndCheck P env found.1 good (build found.2) tx
    PostsRow b posted.1 (Book.post env.transactionId env.now (build found.2)) ∧
      posted.2.1 = Book.post env.transactionId env.now (build found.2) := by
  intro found posted
  have hother := getOrCreateAccount_grows env b₁ name type
  have hb₁ := hgrows.distinct hb hfresh.goodAccountId
  have hb₂ := hother.distinct hb₁ (hgrows.notMem_ids hfresh.otherAccountId hfresh.accounts)
  have hrefs : ∀ r ∈ (build found.2).refs, r ∈ accountRefs found.1 := by
    intro r hr
    rcases hbuild found.2 r hr with rfl | rfl
    · exact hother.keep hgrows.mem
    · exact hother.mem
  obtain ⟨hposts, hposted⟩ := postAndCheck_posts P env tx hb₂ (hother.keep hgrows.mem) hrefs
  exact ⟨hposts.after hgrows hother, hposted⟩

/-- The branch of a sale posts a copy. -/
theorem sell_posts (hb : Distinct b) (hfresh : EventFresh env b)
    (hkind : truthy t.transaction.saleInvoice = true)
    (h : sell P env b quantity t goodExcCode = .ok (b', response)) :
    ∃ c, Copy env quantity goodExcCode t.transaction response c ∧ PostsRow b b' c := by
  have hpost : ∀ b₁ good, Grows env.goodAccountId b b₁ good →
      (let found := getOrCreateAccount env b₁ goodSellAccountName .outgoing
        let posted := postAndCheck P env found.1 good
          (newSale quantity good found.2 goodExcCode t.transaction) t.transaction
        (posted.1, Response.sell posted.2.1 posted.2.2)) = (b', response) →
      ∃ c, Copy env quantity goodExcCode t.transaction response c ∧ PostsRow b b' c := by
    intro b₁ good hgrows hresult
    obtain ⟨hposts, hposted⟩ := posts_with_other P
      (fun other => newSale quantity good other goodExcCode t.transaction) goodSellAccountName
      .outgoing t.transaction hb hfresh hgrows (by
        intro other r hr
        rcases Transaction.mem_refs.1 hr with hr | hr
        · exact Or.inl (Option.some.inj hr).symm
        · exact Or.inr (Option.some.inj hr).symm)
    cases hresult
    exact ⟨_, hposted ▸ .sale _ _ _ hkind, hposts⟩
  unfold sell at h
  dsimp only at h
  cases hfound : t.transaction.good.bind b.getAccount with
  | some good =>
    rw [hfound] at h
    obtain ⟨name, -, hgood⟩ := Option.bind_eq_some_iff.1 hfound
    exact hpost b good ⟨rfl, rfl, ref_mem_of_getAccount hgood, Or.inl rfl⟩ (Except.ok.inj h)
  | none =>
    rw [hfound] at h
    obtain ⟨⟨b₁, good⟩, hgood, h⟩ := bind_eq_ok.1 h
    exact hpost b₁ good (createOnSale_grows env hfound hgood) (Except.ok.inj h)

/-- The branch of a purchase posts a copy. -/
theorem buy_posts (hb : Distinct b) (hfresh : EventFresh env b) {debitAccount : Account}
    (hsale : truthy t.transaction.saleInvoice = false)
    (hkind : truthy t.transaction.purchaseInvoice = true)
    (h : buy P env b quantity t debitAccount goodExcCode = (b', response)) :
    ∃ c, Copy env quantity goodExcCode t.transaction response c ∧ PostsRow b b' c := by
  have hpost : ∀ b₁ good, Grows env.goodAccountId b b₁ good →
      (let found := getOrCreateAccount env b₁ goodBuyAccountName .incoming
        let posted := postAndCheck P env found.1 good
          (newPurchase quantity good found.2 goodExcCode t.transaction) t.transaction
        (posted.1, Response.buy posted.2.1 posted.2.2)) = (b', response) →
      ∃ c, Copy env quantity goodExcCode t.transaction response c ∧ PostsRow b b' c := by
    intro b₁ good hgrows hresult
    obtain ⟨hposts, hposted⟩ := posts_with_other P
      (fun other => newPurchase quantity good other goodExcCode t.transaction) goodBuyAccountName
      .incoming t.transaction hb hfresh hgrows (by
        intro other r hr
        rcases Transaction.mem_refs.1 hr with hr | hr
        · exact Or.inr (Option.some.inj hr).symm
        · exact Or.inl (Option.some.inj hr).symm)
    cases hresult
    exact ⟨_, hposted ▸ .purchase _ _ _ hsale hkind, hposts⟩
  unfold buy at h
  cases hfound : b.getAccount debitAccount.name with
  | none =>
    rw [hfound] at h
    exact hpost _ _ (createOnPurchase_grows env hfound) h
  | some found =>
    rw [hfound] at h
    obtain ⟨htransactions, hinfo, hrefs, hchecked⟩ := checkInventoryAccount_refs hb hfound
    have hmem := ref_mem_of_getAccount hfound
    have hgood : (if P.sharesAccounts then (checkInventoryAccount b debitAccount).2.getD found
        else found).ref ∈ accountRefs b := by
      split
      · cases hc : (checkInventoryAccount b debitAccount).2 with
        | none => exact hmem
        | some checked => exact hchecked checked hc ▸ hmem
      · exact hmem
    exact hpost _ _ ⟨htransactions, hinfo, hrefs.symm ▸ hgood, Or.inl hrefs⟩ h

/-- The branch of a credit note posts a copy. -/
theorem credit_posts (hb : Distinct b) (hfresh : EventFresh env b) {creditAccount : Account}
    (hsale : truthy t.transaction.saleInvoice = false)
    (hpurchase : truthy t.transaction.purchaseInvoice = false)
    (hkind : truthy t.transaction.creditNote = true)
    (h : credit P env b quantity t creditAccount goodExcCode = (b', response)) :
    ∃ c, Copy env quantity goodExcCode t.transaction response c ∧ PostsRow b b' c := by
  have hpost : ∀ b₁ good, Grows env.goodAccountId b b₁ good →
      (let found := getOrCreateAccount env b₁ goodBuyAccountName .incoming
        let posted := postAndCheck P env found.1 good
          (newCreditNote quantity good found.2 goodExcCode t.transaction) t.transaction
        (posted.1, Response.credit posted.2.1 posted.2.2)) = (b', response) →
      ∃ c, Copy env quantity goodExcCode t.transaction response c ∧ PostsRow b b' c := by
    intro b₁ good hgrows hresult
    obtain ⟨hposts, hposted⟩ := posts_with_other P
      (fun other => newCreditNote quantity good other goodExcCode t.transaction)
      goodBuyAccountName .incoming t.transaction hb hfresh hgrows (by
        intro other r hr
        rcases Transaction.mem_refs.1 hr with hr | hr
        · exact Or.inl (Option.some.inj hr).symm
        · exact Or.inr (Option.some.inj hr).symm)
    cases hresult
    exact ⟨_, hposted ▸ .creditNote _ _ _ hsale hpurchase hkind, hposts⟩
  unfold credit at h
  cases hfound : b.getAccount creditAccount.name with
  | none =>
    rw [hfound] at h
    exact hpost _ _ (createOnPurchase_grows env hfound) h
  | some good =>
    rw [hfound] at h
    exact hpost b good ⟨rfl, rfl, ref_mem_of_getAccount hfound, Or.inl rfl⟩ h

end Branches

/-! ## `processObject` -/

/-- A financial transaction that the webhook replicates: posted, with an id and both accounts,
    with a quantity other than zero, of one of the three kinds. -/
structure Replicable (P : Platform) (t : Payload) (quantity : ℚ) : Prop where
  posted : t.transaction.posted = true
  id : t.transaction.id ≠ ""
  debitAccount : t.debitAccount ≠ none
  creditAccount : t.creditAccount ≠ none
  parses : BotService.getQuantity P t.transaction = .ok (some quantity)
  nonzero : quantity ≠ 0

/-- The answer says that a copy was posted. -/
def postsCopy : Response → Bool
  | .sell .. | .buy .. | .credit .. => true
  | _ => false

/-- Handling a checked transaction has posted one copy `c` of `t`. -/
structure Replication (P : Platform) (env : EventEnv) (fb b b' : Book) (t : Payload)
    (response : Response) (quantity : ℚ) (c : Transaction) : Prop where
  replicable : Replicable P t quantity
  traded : tradedIn fb (getGoodExcCodeFromTransaction t fb) = true
  new : ∀ u ∈ b.transactions, t.transaction.id ∉ u.remoteIds
  copy : Copy env quantity (getGoodExcCodeFromTransaction t fb) t.transaction response c
  posts : PostsRow b b' c

theorem remoteId_head?_eq_none {b : Book} {id : String} :
    (b.getTransactions (.remoteId id)).head? = none ↔ ∀ u ∈ b.transactions, id ∉ u.remoteIds := by
  rw [List.head?_eq_none_iff, Book.getTransactions, List.filter_eq_nil_iff]
  simp [Query.selects]

/-- A checked transaction that reaches one of the three branches of `connectedTransactionNotFound`:
    its good is traded in the book, and the inventory book has no copy of it. -/
structure Reaches (P : Platform) (fb b : Book) (event : Event) (t : Payload) (quantity : ℚ) :
    Prop where
  transaction : event.transaction = some t
  replicable : Replicable P t quantity
  traded : tradedIn fb (getGoodExcCodeFromTransaction t fb) = true
  new : ∀ u ∈ b.transactions, t.transaction.id ∉ u.remoteIds

/-- The branch that a transaction takes, and what it returns. -/
inductive Branch (P : Platform) (env : EventEnv) (b : Book) (t : Payload) (quantity : ℚ)
    (goodExcCode : Option String) (b' : Book) (response : Response) : Prop
  | sale (hkind : truthy t.transaction.saleInvoice = true)
      (h : sell P env b quantity t goodExcCode = .ok (b', response)) :
      Branch P env b t quantity goodExcCode b' response
  | purchase (hsale : truthy t.transaction.saleInvoice = false)
      (hkind : truthy t.transaction.purchaseInvoice = true) {debitAccount : Account}
      (hdebit : t.debitAccount = some debitAccount)
      (h : buy P env b quantity t debitAccount goodExcCode = (b', response)) :
      Branch P env b t quantity goodExcCode b' response
  | creditNote (hsale : truthy t.transaction.saleInvoice = false)
      (hpurchase : truthy t.transaction.purchaseInvoice = false)
      (hkind : truthy t.transaction.creditNote = true) {creditAccount : Account}
      (h : credit P env b quantity t creditAccount goodExcCode = (b', response)) :
      Branch P env b t quantity goodExcCode b' response

/-- Handling a checked transaction takes one of the branches, or changes nothing. -/
theorem processObject_branches {P : Platform} {env : EventEnv} {fb b b' : Book} {event : Event}
    {response : Response} (h : processObject P env fb b event = .ok (b', response)) :
    (b' = b ∧ postsCopy response = false) ∨
      ∃ t quantity, Reaches P fb b event t quantity ∧
        Branch P env b t quantity (getGoodExcCodeFromTransaction t fb) b' response := by
  have hnothing : ∀ {r : Response}, postsCopy r = false →
      (Except.ok (b, r) : Except Exception _) = .ok (b', response) →
      (b' = b ∧ postsCopy response = false) ∨
        ∃ t quantity, Reaches P fb b event t quantity ∧
          Branch P env b t quantity (getGoodExcCodeFromTransaction t fb) b' response := by
    rintro r hr ⟨⟩
    exact Or.inl ⟨rfl, hr⟩
  unfold processObject at h
  split at h
  · exact hnothing rfl h
  · rename_i t ht
    split at h
    swap
    · exact hnothing rfl h
    rename_i hposted
    dsimp only at h
    split at h
    swap
    · exact hnothing rfl h
    rename_i htraded
    split at h
    · exact hnothing rfl h
    rename_i hnew
    have hnew := remoteId_head?_eq_none.1 hnew
    unfold connectedTransactionNotFound at h
    split at h
    swap
    · exact hnothing rfl h
    rename_i debitAccount creditAccount hdebit hcredit
    split at h
    · exact hnothing rfl h
    rename_i hid
    obtain ⟨found, hquantity, h⟩ := bind_eq_ok.1 h
    cases found with
    | none => exact hnothing rfl h
    | some quantity =>
      dsimp only at h
      split at h
      · exact hnothing rfl h
      rename_i hnonzero
      have hreaches : Reaches P fb b event t quantity :=
        ⟨ht, ⟨hposted, hid, by simp [hdebit], by simp [hcredit], hquantity, hnonzero⟩, htraded,
          hnew⟩
      split at h
      · rename_i hsale
        exact Or.inr ⟨t, quantity, hreaches, .sale hsale h⟩
      rename_i hsale
      split at h
      · rename_i hpurchase
        exact Or.inr ⟨t, quantity, hreaches,
          .purchase (by simpa using hsale) hpurchase hdebit (Except.ok.inj h)⟩
      rename_i hpurchase
      split at h
      · rename_i hkind
        exact Or.inr ⟨t, quantity, hreaches,
          .creditNote (by simpa using hsale) (by simpa using hpurchase) hkind (Except.ok.inj h)⟩
      · exact hnothing rfl h

/-- Handling a checked transaction posts one copy of it, or changes nothing. -/
theorem processObject_cases {P : Platform} {env : EventEnv} {fb b b' : Book} {event : Event}
    {response : Response} (hb : Distinct b) (hfresh : EventFresh env b)
    (h : processObject P env fb b event = .ok (b', response)) :
    (b' = b ∧ postsCopy response = false) ∨
      ∃ t quantity c, event.transaction = some t ∧
        Replication P env fb b b' t response quantity c := by
  rcases processObject_branches h with hnothing | ⟨t, quantity, hreaches, hbranch⟩
  · exact Or.inl hnothing
  · have hposted : ∃ c, Copy env quantity (getGoodExcCodeFromTransaction t fb) t.transaction
        response c ∧ PostsRow b b' c := by
      cases hbranch with
      | sale hkind h => exact sell_posts hb hfresh hkind h
      | purchase hsale hkind _ h => exact buy_posts hb hfresh hsale hkind h
      | creditNote hsale hpurchase hkind h => exact credit_posts hb hfresh hsale hpurchase hkind h
    obtain ⟨c, hcopy, hposts⟩ := hposted
    exact Or.inr ⟨t, quantity, c, hreaches.transaction, hreaches.replicable, hreaches.traded,
      hreaches.new, hcopy, hposts⟩

/-- A purchase that reaches its branch is handled by `buy`. -/
theorem processObject_purchase {P : Platform} {env : EventEnv} {fb b : Book} {event : Event}
    {t : Payload} {quantity : ℚ} (h : Reaches P fb b event t quantity)
    (hsale : truthy t.transaction.saleInvoice = false)
    (hkind : truthy t.transaction.purchaseInvoice = true) {debitAccount : Account}
    (hdebit : t.debitAccount = some debitAccount) :
    processObject P env fb b event =
      .ok (buy P env b quantity t debitAccount (getGoodExcCodeFromTransaction t fb)) := by
  obtain ⟨creditAccount, hcredit⟩ := Option.ne_none_iff_exists'.1 h.replicable.creditAccount
  unfold processObject connectedTransactionNotFound
  simp only [h.transaction, h.replicable.posted, h.traded, remoteId_head?_eq_none.2 h.new, hdebit,
    hcredit, h.replicable.id, h.replicable.parses, hsale, hkind, if_true, if_false,
    Bool.false_eq_true]
  exact if_neg h.replicable.nonzero

theorem Complete.toDistinct {b : Book} (h : Complete b) : Distinct b :=
  ⟨h.accountIds, h.accountNames⟩

/-- Posting a copy keeps the book complete. -/
theorem PostsRow.complete {b b' : Book} {c : Transaction} (hb : Complete b)
    (hid : c.id ∉ b.transactions.map Transaction.id) (h : PostsRow b b' c) : Complete b' := by
  refine ⟨?_, h.distinct.accountIds, h.distinct.accountNames, ?_⟩
  · rw [h.transactions]
    exact nodup_map_append_singleton hb.ids hid
  · intro t ht r hr
    rw [h.transactions, List.mem_append, List.mem_singleton] at ht
    rcases ht with ht | rfl
    · exact h.kept r (hb.refs t ht r hr)
    · exact h.refs r hr

section Copy

variable {env : EventEnv} {quantity : ℚ} {goodExcCode : Option String} {t : Transaction}
  {response : Response} {c : Transaction}

/-- What every copy takes from its financial transaction. -/
structure CopyData (env : EventEnv) (quantity : ℚ) (t c : Transaction) : Prop where
  id : c.id = env.transactionId
  remoteIds : c.remoteIds = [t.id]
  amount : c.amount = quantity
  date : c.date = t.date
  order : c.order = t.order
  checked : c.checked = false
  parentId : c.parentId = none
  posted : c.posted = true

theorem Copy.data (h : Copy env quantity goodExcCode t response c) : CopyData env quantity t c := by
  cases h <;> exact ⟨rfl, rfl, rfl, rfl, rfl, rfl, rfl, rfl⟩

end Copy

/-- Handling a checked transaction keeps the inventory book complete. -/
theorem processObject_complete {P : Platform} {env : EventEnv} {fb b b' : Book} {event : Event}
    {response : Response} (hb : Complete b) (hfresh : EventFresh env b)
    (h : processObject P env fb b event = .ok (b', response)) : Complete b' := by
  rcases processObject_cases hb.toDistinct hfresh h with
    ⟨rfl, -⟩ | ⟨t, quantity, c, -, hreplication⟩
  · exact hb
  · refine hreplication.posts.complete hb ?_
    rw [hreplication.copy.data.id]
    exact fun hmem => hfresh.transactionId (List.mem_cons_of_mem _ hmem)

end InventoryBot.System
