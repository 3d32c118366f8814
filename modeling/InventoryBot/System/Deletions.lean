import InventoryBot.System.Histories
import InventoryBot.System.Mirror

/-!
# What a deletion leaves

* `deleteOnInventoryBook_state`: the books after the copy of a financial transaction was trashed,
  with its splits and the cost of sales transaction linked to it.
* `Kept`, `Reached`: a replicated transaction in the states that follow.
-/

namespace InventoryBot.System

open Lib Menu Events

/-! ## Flags -/

/-- The account with an id is flagged for rebuild. -/
def flagged (b : Book) (accountId : String) : Bool :=
  (b.getAccount accountId).any GoodAccount.needsRebuild

/-- The accounts after one of them was updated. -/
theorem getAccount_updateAccount_id {b : Book}
    (hids : ((accountRefs b).map AccountRef.id).Nodup) {a x : Account}
    (ha : a.ref ∈ accountRefs b) (hx : x ∈ b.accounts) :
    (b.updateAccount a).getAccount x.id = some (if x.id = a.id then a else x) := by
  have hids' : ((accountRefs (b.updateAccount a)).map AccountRef.id).Nodup := by
    rwa [accountRefs_updateAccount hids ha]
  have hmem : (if x.id = a.id then a else x) ∈ (b.updateAccount a).accounts :=
    List.mem_map.2 ⟨x, hx, rfl⟩
  have hid : (if x.id = a.id then a else x).id = x.id := by
    split
    · rename_i he
      exact he.symm
    · rfl
  have hfound := getAccount_id hids' hmem
  rwa [hid] at hfound

theorem needsRebuild_setNeedsRebuild (a : Account) :
    GoodAccount.needsRebuild (Events.BotService.setNeedsRebuild a) = true := by
  simp [GoodAccount.needsRebuild, Events.BotService.setNeedsRebuild]

/-- Flagging an account flags it and no other. -/
theorem flagged_setNeedsRebuild {b : Book} (hids : ((accountRefs b).map AccountRef.id).Nodup)
    {a x : Account} (ha : a ∈ b.accounts) (hx : x ∈ b.accounts) :
    flagged (b.updateAccount (Events.BotService.setNeedsRebuild a)) x.id =
      (decide (x.id = a.id) || flagged b x.id) := by
  have href : (Events.BotService.setNeedsRebuild a).ref ∈ accountRefs b :=
    show a.ref ∈ accountRefs b from List.mem_map_of_mem ha
  unfold flagged
  rw [getAccount_updateAccount_id hids href hx, getAccount_id hids hx]
  by_cases hid : x.id = a.id
  · have hid' : x.id = (Events.BotService.setNeedsRebuild a).id := hid
    rw [if_pos hid', Option.any_some, needsRebuild_setNeedsRebuild, decide_eq_true hid,
      Bool.true_or]
  · have hid' : ¬x.id = (Events.BotService.setNeedsRebuild a).id := hid
    rw [if_neg hid', decide_eq_false hid, Bool.false_or]

/-- The account that a transaction shows. -/
theorem Complete.account_of_ref {b : Book} (h : Complete b) {t : Transaction} {r : AccountRef}
    (ht : t ∈ b.transactions) (hr : r ∈ t.refs) :
    ∃ a ∈ b.accounts, a.ref = r ∧ b.getAccount r.id = some a := by
  obtain ⟨a, ha, rfl⟩ := List.mem_map.1 (h.refs t ht r hr)
  exact ⟨a, ha, rfl, getAccount_id h.accountIds ha⟩

/-! ## Trashing -/

theorem foldl_uncheckAndTrash (l : List Transaction) (b : Book) :
    l.foldl Events.BotService.uncheckAndTrash b = b.batchTrashTransactions l := by
  induction l generalizing b with
  | nil => simp [Book.batchTrashTransactions]
  | cons t l ih =>
    rw [List.foldl_cons, ih]
    simp [Events.BotService.uncheckAndTrash, Book.batchTrashTransactions, List.filter_filter,
      Bool.and_comm]

/-- The rows of a book without the transaction `r` and the splits that its deletion finds. -/
def withoutCopy (r : Transaction) (l : List Transaction) : List Transaction :=
  l.filter fun u => u.id != r.id &&
    !(r.originalQuantity.isSome && u.moves ((r.debitAccount.map AccountRef.name).getD "undefined") &&
      u.parentId == some r.id)

/-- The transactions of a book without the first one that is linked to an id. -/
def withoutLinked (id : String) (l : List Transaction) : List Transaction :=
  match l.find? (·.remoteIds.contains id) with
  | some f => l.filter (·.id != f.id)
  | none => l

section Deletions

open InterceptorOrderProcessorDelete InterceptorOrderProcessorDeleteFinancial

variable {P : Platform} {collection : Option (List BookInfo)} {s : State} {id : String}

/-- The splits of a purchase are trashed with it. -/
theorem cascadeDeleteInventoryTransactions_rows {b : Book} (r : Transaction)
    (hids : (b.transactions.map Transaction.id).Nodup) :
    (cascadeDeleteInventoryTransactions (Events.BotService.uncheckAndTrash b r) r.id
        r.originalQuantity (r.debitAccount.map AccountRef.name)).1 =
      { b with transactions := withoutCopy r b.transactions } := by
  have hrows : (Events.BotService.uncheckAndTrash b r) =
      { b with transactions := b.transactions.filter (·.id != r.id) } := by
    simp only [Events.BotService.uncheckAndTrash, Book.batchTrashTransactions, List.any_cons,
      List.any_nil, Bool.or_false]
    congr 2
    funext t
    rw [bne, Bool.beq_comm]
  rw [hrows, cascadeDeleteInventoryTransactions]
  cases hq : r.originalQuantity with
  | none => simp [withoutCopy, hq]
  | some q =>
    simp only [Option.isSome_some, if_true, foldl_uncheckAndTrash, Book.batchTrashTransactions]
    congr 1
    unfold withoutCopy
    rw [List.filter_filter]
    refine List.filter_congr fun u hu => ?_
    rw [hq, Option.isSome_some, Bool.true_and, Bool.and_comm]
    by_cases hroot : u.id = r.id
    · simp [hroot]
    have hlisted : (((({ b with transactions := b.transactions.filter (·.id != r.id) } :
        Book).getTransactions (.account ((r.debitAccount.map AccountRef.name).getD "undefined")
          none none)).filter (·.parentId == some r.id)).any (·.id == u.id)) =
        (u.moves ((r.debitAccount.map AccountRef.name).getD "undefined") &&
          u.parentId == some r.id) := by
      rw [Bool.eq_iff_iff, List.any_eq_true, Bool.and_eq_true]
      constructor
      · rintro ⟨v, hv, hid⟩
        rw [List.mem_filter, Book.getTransactions, List.mem_filter, List.mem_filter] at hv
        obtain ⟨⟨⟨hv, -⟩, hselected⟩, hparent⟩ := hv
        obtain rfl : v = u := List.inj_on_of_nodup_map hids hv hu (by simpa using hid)
        exact ⟨by simpa [Query.selects] using hselected, hparent⟩
      · rintro ⟨hmoves, hparent⟩
        refine ⟨u, ?_, by simp⟩
        rw [List.mem_filter, Book.getTransactions, List.mem_filter, List.mem_filter]
        exact ⟨⟨⟨hu, by simpa using hroot⟩, by simpa [Query.selects] using hmoves⟩, hparent⟩
    rw [hlisted]

theorem cascadeDeleteFinancialTransactions_rows (fb : Book) (id : String) :
    (cascadeDeleteFinancialTransactions fb id).1 =
      { fb with transactions := withoutLinked id fb.transactions } := by
  unfold cascadeDeleteFinancialTransactions withoutLinked Book.getTransactions
  rw [List.head?_filter]
  have hselects : Query.selects (.remoteId id) = fun t => t.remoteIds.contains id := rfl
  rw [hselects]
  cases fb.transactions.find? fun t => t.remoteIds.contains id with
  | none => rfl
  | some f =>
    simp only [Events.BotService.uncheckAndTrash, Book.batchTrashTransactions, List.any_cons,
      List.any_nil, Bool.or_false]
    congr 2
    funext t
    rw [bne, Bool.beq_comm]

/-- The books after a deletion on the inventory book: nothing changes where the id has no copy. -/
theorem deleteOnInventoryBook_none
    (hnone : s.inventoryBook.transactions.find? (·.remoteIds.contains id) = none) :
    deleteOnInventoryBook collection s id = (s, []) := by
  unfold deleteOnInventoryBook
  split
  · rfl
  · have hdeleted : deleteTransactionByRemoteId s.inventoryBook id = (s.inventoryBook, none) := by
      unfold deleteTransactionByRemoteId
      split
      · rfl
      · have hhead : (s.inventoryBook.getTransactions (.remoteId id)).head? = none := by
          rw [Book.getTransactions, List.head?_filter]
          exact hnone
        rw [hhead]
    rw [hdeleted]

/-- The first copy of the id is trashed, with its splits and what is linked to it. -/
theorem deleteOnInventoryBook_state {r : Transaction}
    (hids : (s.inventoryBook.transactions.map Transaction.id).Nodup)
    (hcollection : Events.BotService.getInventoryBook collection ≠ none) (hid : id ≠ "")
    (hr : s.inventoryBook.transactions.find? (·.remoteIds.contains id) = some r) :
    ∃ responses, deleteOnInventoryBook collection s id =
      (⟨{ s.inventoryBook with transactions := withoutCopy r s.inventoryBook.transactions },
        { s.financialBook with transactions := withoutLinked r.id s.financialBook.transactions }⟩,
        r :: responses) := by
  obtain ⟨info, hinfo⟩ := Option.ne_none_iff_exists'.1 hcollection
  have hdeleted : deleteTransactionByRemoteId s.inventoryBook id =
      (Events.BotService.uncheckAndTrash s.inventoryBook r, some r) := by
    have hhead : (s.inventoryBook.getTransactions (.remoteId id)).head? = some r := by
      rw [Book.getTransactions, List.head?_filter]
      exact hr
    unfold deleteTransactionByRemoteId
    rw [if_neg hid, hhead]
  unfold deleteOnInventoryBook
  rw [hinfo, hdeleted]
  exact ⟨_, by rw [← cascadeDeleteInventoryTransactions_rows r hids,
    ← cascadeDeleteFinancialTransactions_rows]⟩

end Deletions

/-! ## A small history

The purchase of ten widgets is replicated and then a sale of four, dated a day before it, and the
cost of sales is calculated. -/

namespace Sample

def revenue : Account := { id := "f-revenue", name := "Revenue", type := .incoming }

def customer : Account := { id := "f-customer", name := "Customer", type := .asset }

/-- A checked sale of widgets. -/
def sale (quantity : String) : Payload where
  transaction :=
    { id := "t-2", checked := true, date := 2, amount := 80, creditAccount := some revenue.ref
      debitAccount := some customer.ref, good := some "Widgets", quantity := some quantity
      saleInvoice := some "S1" }
  creditAccount := some revenue
  debitAccount := some customer

/-- The books of the collection. -/
def books : Option (List BookInfo) := some [inventory, dollars]

def saleEnv : EventEnv :=
  { now := 6, transactionId := "i-2", goodAccountId := "a-more", otherAccountId := "a-sell" }

def runEnv : RunEnv where
  today := 9
  now := 7
  uuid := Book.unaryId 'u'
  inventoryId := Book.unaryId 'n'
  financialId := Book.unaryId 'f'
  cogsAccountId := "f-cogs"

/-- The inventory book after the purchase. -/
def purchased : Book := bookAfter (handled eventEnv emptyBook (purchase "USD"))

/-- The inventory book after the sale. -/
def sold (quantity : String) : Book := bookAfter (handled saleEnv purchased (sale quantity))

/-- The dollar book with the purchase, the sale and some more transactions. -/
def dollarState (quantity : String) (more : List Transaction) : State where
  inventoryBook := sold quantity
  financialBook :=
    { dollarBook "USD" with
      transactions := (purchase "USD").transaction :: (sale quantity).transaction :: more }

/-- The books after the calculation. -/
def calculated (quantity : String) (more : List Transaction) : State :=
  (CostOfSalesService.calculateCostOfSalesForAccount decimalPlatform books runEnv
    (dollarState quantity more) "a-widgets" (some 9)).1

theorem calculated_steps (quantity : String) (more : List Transaction)
    (hfresh : EventFresh saleEnv purchased)
    (hsale : (handled saleEnv purchased (sale quantity)).isOk = true)
    (hrun : runEnv.Fresh (dollarState quantity more)) :
    Relation.ReflTransGen (SystemStep decimalPlatform books)
      ⟨purchased, dollarBook "USD"⟩ (calculated quantity more) := by
  obtain ⟨response, hhandled⟩ := eq_bookAfter _ hsale
  have h₁ : SystemStep decimalPlatform books ⟨purchased, dollarBook "USD"⟩
      ⟨sold quantity, dollarBook "USD"⟩ := .check hfresh hhandled
  have h₂ : SystemStep decimalPlatform books ⟨sold quantity, dollarBook "USD"⟩
      (dollarState quantity more) := .financial
  have h₃ : SystemStep decimalPlatform books (dollarState quantity more)
      (calculated quantity more) := .calculate (.run runEnv (some 9) hrun)
  exact .tail (.tail (.single h₁) h₂) h₃

/-- The purchase of the sample is replicated, and then its cost of sales is calculated. -/
theorem calculated_reached (quantity : String) (more : List Transaction)
    (hfresh : EventFresh saleEnv purchased)
    (hsale : (handled saleEnv purchased (sale quantity)).isOk = true)
    (hrun : runEnv.Fresh (dollarState quantity more)) :
    ∃ c, c.id = "i-1" ∧
      Reached decimalPlatform books (purchase "USD") c (calculated quantity more) := by
  have hstart : EventFresh eventEnv emptyBook := ⟨by decide, by decide, by decide, by decide⟩
  obtain ⟨ib, c, flag, hbought⟩ := eq_of_bought (handled eventEnv emptyBook (purchase "USD"))
    (by decide +kernel)
  have hib : ib = purchased := by rw [purchased, hbought, bookAfter]
  refine ⟨c, ?_, .replicated emptyBook_complete hstart (by simp [emptyBook]) rfl hbought rfl
    (hib ▸ calculated_steps quantity more hfresh hsale hrun)⟩
  obtain ⟨q, hreplication⟩ := replication_of_copyOf emptyBook_complete.toDistinct hstart rfl
    hbought rfl
  exact hreplication.copy.data.id

end Sample

end InventoryBot.System
