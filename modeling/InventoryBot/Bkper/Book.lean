import InventoryBot.Bkper.Platform
import InventoryBot.Lib.OrderedMap
import InventoryBot.Lib.Rows

/-!
# Books, accounts and transactions

The records of the Bkper client library that the bot reads and writes. A book holds
its live transactions: trashing removes one. The properties of a transaction that the
bot uses are fields of `Transaction` under their keys (`constants.ts`); the ones the bot
writes itself hold the value it serialises, the ones a user writes hold their text.
The free-form property map of an account stays a map.

* `Book.getTransactions`: the listing of a query.
* `Book.batchCreateTransactions`, `Book.batchUpdateTransactions`,
  `Book.batchTrashTransactions`: the batch calls of the two processors.
-/

namespace InventoryBot

open Lib

/-- `BkperApp.AccountType`. -/
inductive AccountType where
  | asset
  | liability
  | incoming
  | outgoing
  deriving DecidableEq

/-- What a transaction shows of one of its two accounts. -/
structure AccountRef where
  id : String
  name : String
  type : AccountType
  deriving DecidableEq

/-- A group of accounts. -/
structure Group where
  name : String
  parent : Option String := none
  hidden : Bool := false
  properties : OrderedMap String String := ∅

/-- An account of a book. -/
structure Account where
  id : String
  name : String
  type : AccountType
  archived : Bool := false
  properties : OrderedMap String String := ∅
  groups : List Group := []

/-- The view of an account that its transactions carry. -/
def Account.ref (a : Account) : AccountRef := ⟨a.id, a.name, a.type⟩

/-- An entry of the `purchase_log` of a sale (`Types.ts`, lines 1–6). -/
structure PurchaseLogEntry where
  id : String
  qt : ℚ
  uc : ℚ
  rt : String
  deriving DecidableEq

/-- The `liquidation_log` of a purchase or a split (`Types.ts`, lines 8–14). -/
structure LiquidationLogEntry where
  id : String
  dt : Date
  qt : ℚ
  uc : ℚ
  rt : String
  deriving DecidableEq

/-- A transaction with the properties the bot uses. -/
structure Transaction where
  id : String
  posted : Bool := true
  checked : Bool := false
  locked : Bool := false
  date : Date
  createdAt : Option ℕ := none
  amount : ℚ
  creditAccount : Option AccountRef
  debitAccount : Option AccountRef
  description : String := ""
  remoteIds : List String := []
  agentId : Option String := none
  /-- `additional_costs` -/
  additionalCosts : Option ℚ := none
  /-- `credit_note`: the number of a credit note, or the record a calculation leaves -/
  creditNote : Option String := none
  /-- `exc_code` -/
  excCode : Option String := none
  /-- `good` -/
  good : Option String := none
  /-- `good_purchase_cost` -/
  goodPurchaseCost : Option ℚ := none
  /-- `liquidation_log` -/
  liquidationLog : Option LiquidationLogEntry := none
  /-- `order` -/
  order : Option String := none
  /-- `original_quantity` -/
  originalQuantity : Option ℚ := none
  /-- `parent_id` -/
  parentId : Option String := none
  /-- `purchase_code` -/
  purchaseCode : Option String := none
  /-- `purchase_invoice` -/
  purchaseInvoice : Option String := none
  /-- `purchase_log` -/
  purchaseLog : Option (List PurchaseLogEntry) := none
  /-- `quantity` -/
  quantity : Option String := none
  /-- `quantity_sold` -/
  quantitySold : Option ℚ := none
  /-- `sale_amount` -/
  saleAmount : Option ℚ := none
  /-- `sale_invoice` -/
  saleInvoice : Option String := none
  /-- `total_cost` -/
  totalCost : Option ℚ := none
  deriving DecidableEq

/-- Truthiness of a text property: present and not the empty string. -/
def truthy (s : Option String) : Bool := s.any (· != "")

/-- What the collection shows of one of its books. -/
structure BookInfo where
  id : String
  name : String
  /-- `exc_code` -/
  excCode : Option String := none
  /-- `exchange_code`, the older key -/
  exchangeCode : Option String := none
  /-- `inventory_book` -/
  inventoryBook : Option String := none
  fractionDigits : ℕ

/-- A book with its live transactions, in the order its listings yield them. -/
structure Book where
  info : BookInfo
  accounts : List Account := []
  groups : List Group := []
  transactions : List Transaction := []

/-- A transaction query. -/
inductive Query where
  /-- `account:'name' after:date before:date` -/
  | account (name : String) (afterDate beforeDate : Option Date)
  /-- `remoteId:id` -/
  | remoteId (id : String)
  /-- the bare id of a transaction -/
  | id (id : String)

/-- The transaction credits or debits the account of that name. -/
def Transaction.moves (t : Transaction) (name : String) : Bool :=
  t.creditAccount.any (·.name == name) || t.debitAccount.any (·.name == name)

/-- The accounts that a transaction shows. -/
def Transaction.refs (t : Transaction) : List AccountRef :=
  t.creditAccount.toList ++ t.debitAccount.toList

theorem Transaction.mem_refs {t : Transaction} {r : AccountRef} :
    r ∈ t.refs ↔ t.creditAccount = some r ∨ t.debitAccount = some r := by
  simp [refs]

/-- The query engine: `after:` includes its date, `before:` excludes it. -/
def Query.selects : Query → Transaction → Bool
  | .account name afterDate beforeDate, t =>
    t.moves name && afterDate.all (· ≤ t.date) && beforeDate.all (t.date < ·)
  | .remoteId r, t => t.remoteIds.contains r
  | .id i, t => t.id == i

namespace Book

/-- `Book.getTransactions`. The listing is the whole book in the order of creation, as the iterator
    of the menu yields it; of `listTransactions(...).getItems()`, which the webhook reads, this is
    assumed too: no page ends before the transactions that are looked for. -/
def getTransactions (b : Book) (q : Query) : List Transaction := b.transactions.filter q.selects

/-- `Book.getAccount`, by id or by name. -/
def getAccount (b : Book) (idOrName : String) : Option Account :=
  (b.accounts.find? (·.id == idOrName)) <|> (b.accounts.find? (·.name == idOrName))

theorem mem_of_getAccount {b : Book} {idOrName : String} {a : Account}
    (h : b.getAccount idOrName = some a) : a ∈ b.accounts := by
  rcases (Option.orElse_eq_some _ _ _).1 h with h | ⟨-, h⟩ <;> exact List.mem_of_find?_eq_some h

/-- `Account.update`: the stored account of that id becomes the given one. -/
def updateAccount (b : Book) (a : Account) : Book :=
  { b with accounts := b.accounts.map fun x => if x.id = a.id then a else x }

/-- A transaction as it is posted: with an id, for the agent that calls. -/
def post (id : String) (now : ℕ) (t : Transaction) : Transaction :=
  { t with id := id, posted := true, createdAt := some now, agentId := some "inventory-bot" }

/-- The transactions of a batch as they are posted. -/
def postAll (newId : ℕ → String) (now : ℕ) (new : List Transaction) : List Transaction :=
  new.mapIdx fun k => post (newId k) now

/-- `Book.batchCreateTransactions`: posts the transactions with new ids. -/
def batchCreateTransactions (b : Book) (newId : ℕ → String) (now : ℕ)
    (new : List Transaction) : Book :=
  { b with transactions := b.transactions ++ postAll newId now new }

/-- The version of `t` among `queued`, or `t` itself. -/
def updated (queued : List Transaction) (t : Transaction) : Transaction :=
  (queued.find? (·.id == t.id)).getD t

/-- `Book.batchUpdateTransactions`: every stored transaction of a given id becomes the given
    one. -/
def batchUpdateTransactions (b : Book) (queued : List Transaction) : Book :=
  { b with transactions := b.transactions.map (updated queued) }

/-- `Book.batchTrashTransactions`. -/
def batchTrashTransactions (b : Book) (queued : List Transaction) : Book :=
  { b with transactions := b.transactions.filter fun t => !queued.any (·.id == t.id) }

/-! ## Created transactions -/

/-- The ids that a batch hands out: they differ, and none of them is taken. -/
structure FreshIds (newId : ℕ → String) (taken : List String) : Prop where
  injective : Function.Injective newId
  new : ∀ k, newId k ∉ taken

/-- A supply of ids. -/
def unaryId (c : Char) (k : ℕ) : String := String.ofList (List.replicate (k + 1) c)

/-- The ids of the supply differ from texts with another character. -/
theorem freshIds_unaryId {c : Char} {taken : List String}
    (h : ∀ s ∈ taken, s.toList = [] ∨ s.toList.any (· != c) = true) :
    FreshIds (unaryId c) taken where
  injective := by
    intro i j hij
    have hlist : List.replicate (i + 1) c = List.replicate (j + 1) c := by
      simpa [unaryId] using congrArg String.toList hij
    have hlength := congrArg List.length hlist
    simpa using hlength
  new := by
    intro k hk
    have hchars : (unaryId c k).toList = List.replicate (k + 1) c := by simp [unaryId]
    rcases h _ hk with hempty | hother
    · rw [hchars] at hempty
      simp at hempty
    · rw [hchars] at hother
      obtain ⟨x, hx, hne⟩ := List.any_eq_true.1 hother
      exact absurd (List.eq_of_mem_replicate hx) (by simpa using hne)

@[simp] theorem postAll_nil (newId : ℕ → String) (now : ℕ) : postAll newId now [] = [] := rfl

theorem postAll_cons (newId : ℕ → String) (now : ℕ) (t : Transaction) (l : List Transaction) :
    postAll newId now (t :: l) =
      post (newId 0) now t :: postAll (fun k => newId (k + 1)) now l :=
  List.mapIdx_cons

/-- What posting does not change about a transaction can be read before posting. -/
theorem map_postAll {β : Type} {f : Transaction → β} (newId : ℕ → String) (now : ℕ)
    (l : List Transaction) (hf : ∀ id t, f (post id now t) = f t) :
    (postAll newId now l).map f = l.map f := by
  induction l generalizing newId with
  | nil => rfl
  | cons t l ih => rw [postAll_cons, List.map_cons, List.map_cons, hf, ih]

theorem map_id_postAll (newId : ℕ → String) (now : ℕ) (l : List Transaction) :
    (postAll newId now l).map Transaction.id = (List.range l.length).map newId := by
  induction l generalizing newId with
  | nil => rfl
  | cons t l ih =>
    rw [postAll_cons, List.map_cons, ih, List.length_cons, List.range_succ_eq_map, List.map_cons,
      List.map_map]
    rfl

theorem mem_postAll {newId : ℕ → String} {now : ℕ} {l : List Transaction} {t : Transaction}
    (h : t ∈ postAll newId now l) : ∃ k, ∃ u ∈ l, t = post (newId k) now u := by
  obtain ⟨k, hk, rfl⟩ := List.mem_mapIdx.1 h
  exact ⟨k, _, List.getElem_mem hk, rfl⟩

/-- The ids stay different when a batch with fresh ids is posted. -/
theorem nodup_append_postAll {newId : ℕ → String} {now : ℕ} {store l : List Transaction}
    (hstore : (store.map Transaction.id).Nodup)
    (hfresh : FreshIds newId (store.map Transaction.id)) :
    ((store ++ postAll newId now l).map Transaction.id).Nodup := by
  rw [List.map_append, map_id_postAll]
  refine List.nodup_append.2 ⟨hstore, List.nodup_range.map hfresh.injective, ?_⟩
  rintro i hi _ hj rfl
  obtain ⟨k, -, rfl⟩ := List.mem_map.1 hj
  exact hfresh.new k hi

/-! ## Batches queued in a map keyed by id -/

/-- The queued transactions sit under their ids. -/
def KeyedById (m : OrderedMap String Transaction) : Prop := ∀ k t, m.get k = some t → t.id = k

theorem keyedById_empty : KeyedById ∅ := by
  intro k t h
  cases h

theorem KeyedById.set {m : OrderedMap String Transaction} (h : KeyedById m) (t : Transaction) :
    KeyedById (m.set t.id t) := by
  intro k u hu
  rw [OrderedMap.get_set] at hu
  split_ifs at hu with hk
  · cases hu
    exact hk.symm
  · exact h k u hu

theorem updated_values {m : OrderedMap String Transaction} (h : KeyedById m) (t : Transaction) :
    updated m.values t = (m.get t.id).getD t := by
  unfold updated
  cases hf : m.values.find? (·.id == t.id) with
  | none =>
    have hg : m.get t.id = none := by
      cases hg : m.get t.id with
      | none => rfl
      | some u =>
        have := List.find?_eq_none.1 hf u (OrderedMap.mem_values_of_get hg)
        simp [h _ _ hg] at this
    rw [hg]
  | some u =>
    obtain ⟨k, hk⟩ := OrderedMap.mem_values_iff.1 (List.mem_of_find?_eq_some hf)
    have hid : u.id = t.id := by simpa using List.find?_some hf
    rw [← hid, h k u hk, hk]

theorem updated_values_id {m : OrderedMap String Transaction} (h : KeyedById m) (t : Transaction) :
    (updated m.values t).id = t.id := by
  rw [updated_values h]
  cases hg : m.get t.id with
  | none => rfl
  | some u => exact h _ _ hg

/-- A queued id is the id of a queued transaction. -/
theorem any_id_values {m : OrderedMap String Transaction} (h : KeyedById m) (k : String) :
    m.values.any (·.id == k) = true ↔ k ∈ m.keys := by
  rw [List.any_eq_true]
  constructor
  · rintro ⟨t, ht, hk⟩
    obtain ⟨j, hj⟩ := OrderedMap.mem_values_iff.1 ht
    have hid : t.id = k := by simpa using hk
    exact hid ▸ h j t hj ▸ OrderedMap.mem_keys_of_get hj
  · intro hk
    cases hg : m.get k with
    | none => exact absurd hk (OrderedMap.get_eq_none.1 hg)
    | some t => exact ⟨t, OrderedMap.mem_values_of_get hg, by simp [h k t hg]⟩

/-- Queueing `t` overwrites, in what the update is going to store, the row with its id. -/
theorem map_updated_set {m : OrderedMap String Transaction} (h : KeyedById m) (t : Transaction)
    (l : List Transaction) :
    l.map (updated (m.set t.id t).values) =
      replaceRow Transaction.id t (l.map (updated m.values)) := by
  unfold replaceRow
  rw [List.map_map]
  apply List.map_congr_left
  intro x _
  rw [Function.comp_apply, updated_values_id h, updated_values (h.set t), updated_values h,
    OrderedMap.get_set]
  by_cases hx : x.id = t.id <;> simp [hx]

end Book

/-- The two books a good account lives in: the inventory book of the collection, and the
    financial book that the exchange code of the account resolves to. There is one financial book
    in a state: the book whose events the webhook handles is assumed to be the one that it looks
    up for an account. `Menu.Books` has all of them. -/
structure State where
  inventoryBook : Book
  financialBook : Book

end InventoryBot
