import InventoryBot.Events.EventHandlerTransactionChecked

/-!
# The books of a collection

The menu and the webhook each look up the books of a collection.

* `inventory_books_agree_iff`: when both find the inventory book.
* `financial_book_resolves_iff`: when the menu finds the financial book whose transactions the
  webhook has replicated for a good account.
-/

namespace InventoryBot.System

open Lib Menu Events

/-! ## The inventory book -/

/-- The collection has one book with the property `inventory_book`. -/
def OneInventoryBook (books : List BookInfo) (b : BookInfo) : Prop :=
  books.filter Events.BotService.isInventoryBook = [b]

theorem OneInventoryBook.find {books : List BookInfo} {b : BookInfo} (h : OneInventoryBook books b) :
    books.find? Events.BotService.isInventoryBook = some b := by
  rw [← List.head?_filter, h]
  rfl

/-- **The inventory book.** The menu and the webhook agree on the one book with the property
    `inventory_book` exactly if no book that stands before it has zero fraction digits. -/
theorem inventory_books_agree_iff {books : List BookInfo} {b : BookInfo}
    (h : OneInventoryBook books b) :
    (Menu.BotService.getInventoryBook (some books) = some b ∧
        Events.BotService.getInventoryBook (some books) = some b) ↔
      ∀ x ∈ books.takeWhile (fun x => !Events.BotService.isInventoryBook x),
        x.fractionDigits ≠ 0 := by
  have hmenu : Menu.BotService.getInventoryBook (some books) = some b ↔
      ∀ x ∈ books.takeWhile (fun x => !Events.BotService.isInventoryBook x),
        (x.fractionDigits == 0) = false := find?_or_eq_iff h.find
  constructor
  · rintro ⟨hagree, -⟩ x hx
    simpa using hmenu.1 hagree x hx
  · intro hdigits
    exact ⟨hmenu.2 fun x hx => by simpa using hdigits x hx, h.find⟩

namespace Sample

/-- A book of a currency without fraction digits. -/
def yen : BookInfo := { id := "b-yen", name := "Yen", excCode := some "JPY", fractionDigits := 0 }

/-- The inventory book. -/
def inventory : BookInfo :=
  { id := "b-inventory", name := "Inventory", inventoryBook := some "true", fractionDigits := 2 }

/-- A book of a currency with cents. -/
def dollars : BookInfo :=
  { id := "b-dollars", name := "Dollars", excCode := some "USD", fractionDigits := 2 }

end Sample

/-- A yen book before the inventory book is what the menu takes for the inventory book. -/
theorem inventory_books_yen_first :
    OneInventoryBook [Sample.yen, Sample.inventory] Sample.inventory ∧
      ¬(Menu.BotService.getInventoryBook (some [Sample.yen, Sample.inventory]) =
          some Sample.inventory ∧
        Events.BotService.getInventoryBook (some [Sample.yen, Sample.inventory]) =
          some Sample.inventory) := by
  have hone : OneInventoryBook [Sample.yen, Sample.inventory] Sample.inventory := by
    simp [OneInventoryBook, List.filter_cons, Events.BotService.isInventoryBook, truthy, Sample.yen,
      Sample.inventory]
  refine ⟨hone, fun h => ?_⟩
  have hid := congrArg (Option.map BookInfo.id) h.1
  exact absurd hid (by decide)

/-- With the dollars first both find the inventory book. -/
theorem inventory_books_agree_iff_sample :
    Menu.BotService.getInventoryBook (some [Sample.dollars, Sample.inventory, Sample.yen]) =
        some Sample.inventory ∧
      Events.BotService.getInventoryBook (some [Sample.dollars, Sample.inventory, Sample.yen]) =
        some Sample.inventory := by
  have hone : OneInventoryBook [Sample.dollars, Sample.inventory, Sample.yen] Sample.inventory := by
    simp [OneInventoryBook, List.filter_cons, Events.BotService.isInventoryBook, truthy,
      Sample.dollars, Sample.yen, Sample.inventory]
  exact (inventory_books_agree_iff hone).2 (by decide)

/-! ## The financial book of a good -/

/-- The financial account of the good that a replicated transaction trades: the one that a sale
    names, the one that a purchase debits, the one that a credit note credits. -/
inductive GoodOf (financialBook : Book) (t : Payload) : Response → Account → Prop
  | sell {good : String} {a : Account} {tx : Transaction} {flagged : Bool}
      (hgood : t.transaction.good = some good) (ha : financialBook.getAccount good = some a) :
      GoodOf financialBook t (.sell tx flagged) a
  | buy {a : Account} {tx : Transaction} {flagged : Bool} (ha : t.debitAccount = some a) :
      GoodOf financialBook t (.buy tx flagged) a
  | credit {a : Account} {tx : Transaction} {flagged : Bool} (ha : t.creditAccount = some a) :
      GoodOf financialBook t (.credit tx flagged) a

/-- The inventory account carries the groups of the financial account. -/
structure CarriesGroups (financialAccount inventoryAccount : Account) : Prop where
  type : inventoryAccount.type = financialAccount.type
  groups : inventoryAccount.groups.map (fun g => g.properties.get excCodeProp) =
    financialAccount.groups.map (fun g => g.properties.get excCodeProp)

theorem findSome?_groups (l : List Group) (f : Option String → Option String) :
    l.findSome? (fun g => f (g.properties.get excCodeProp)) =
      (l.map fun g => g.properties.get excCodeProp).findSome? f := by
  rw [List.findSome?_map]
  rfl

/-- Accounts with the same groups have the same exchange code. -/
theorem CarriesGroups.getExchangeCode {a a' : Account} (h : CarriesGroups a a') :
    Menu.BotService.getExchangeCode a' = Menu.BotService.getExchangeCode a := by
  unfold Menu.BotService.getExchangeCode
  rw [h.type, findSome?_groups a'.groups fun code => code.filter fun s => jsTrim s != "",
    findSome?_groups a.groups fun code => code.filter fun s => jsTrim s != "", h.groups]

/-- An exchange code is not blank. -/
theorem getExchangeCode_ne {a : Account} {code : String}
    (h : Menu.BotService.getExchangeCode a = some code) : code ≠ "" := by
  rintro rfl
  unfold Menu.BotService.getExchangeCode at h
  split at h
  · cases h
  · obtain ⟨g, -, hg⟩ := List.exists_of_findSome?_eq_some h
    obtain ⟨-, hblank⟩ := Option.filter_eq_some_iff.1 hg
    exact absurd hblank (by decide)

/-- The book has the exchange code of the good, letter by letter. -/
def SameCode (book : BookInfo) (good : Account) : Prop :=
  ∃ code, Menu.BotService.getExchangeCode good = some code ∧
    Menu.BotService.getExcCode book = some code

/-- The book has the exchange code of the good and fraction digits, and is the first of the
    collection that does. -/
def TradesFirst (books : List BookInfo) (book : BookInfo) (good : Account) : Prop :=
  SameCode book good ∧ book.fractionDigits ≠ 0 ∧
    ∃ before after, books = before ++ book :: after ∧
      ∀ b ∈ before, b.fractionDigits = 0 ∨ ¬SameCode b good

/-- The menu resolves the code of a good to the first book that trades under it. -/
theorem getFinancialBook_eq_some {books : List BookInfo} {book : BookInfo} {good : Account} :
    Menu.BotService.getFinancialBook (some books) (Menu.BotService.getExchangeCode good) =
      some book ↔ TradesFirst books book good := by
  unfold TradesFirst SameCode
  cases hcode : Menu.BotService.getExchangeCode good with
  | none => simp [Menu.BotService.getFinancialBook]
  | some code =>
    have hsame : ∀ b : BookInfo, (∃ c, some code = some c ∧ Menu.BotService.getExcCode b = some c) ↔
        Menu.BotService.getExcCode b = some code := by simp
    simp only [Menu.BotService.getFinancialBook, hsame, List.find?_eq_some_iff_append,
      Bool.and_eq_true, bne_iff_ne, beq_iff_eq, Bool.not_eq_true', Bool.and_eq_false_iff,
      bne_eq_false_iff_eq, beq_eq_false_iff_ne, ne_eq]
    grind

/-- A replicated transaction was accepted by the test of the exchange codes. -/
theorem tradedIn_of_replicated {P : Platform} {env : EventEnv} {financialBook ib ib' : Book}
    {event : Event} {t : Payload} {response : Response} {good : Account}
    (ht : event.transaction = some t)
    (haccepted : processObject P env financialBook ib event = .ok (ib', response))
    (hgood : GoodOf financialBook t response good) :
    tradedIn financialBook (getGoodExcCodeFromTransaction t financialBook) = true := by
  have hsilent : response ≠ .silent := by
    rintro rfl
    cases hgood
  unfold processObject at haccepted
  rw [ht] at haccepted
  dsimp only at haccepted
  split at haccepted
  · split at haccepted
    · assumption
    · cases haccepted
      exact absurd rfl hsilent
  · cases haccepted
    exact absurd rfl hsilent

/-- **The book that the goods came from.** For a transaction that the webhook accepts and
    replicates, the menu resolves the exchange code of the good to the book of the transaction
    exactly if this book has the code of the good letter by letter, has fraction digits, and is
    the first of the collection with both. Where the webhook has compared the code of the good
    itself, the two codes are the same exactly if both are given and that of the good has no
    blanks around it. -/
theorem financial_book_resolves_iff {P : Platform} {env : EventEnv} {financialBook ib ib' : Book}
    {event : Event} {t : Payload} {response : Response} {good inventoryGood : Account}
    {books : List BookInfo} (ht : event.transaction = some t)
    (haccepted : processObject P env financialBook ib event = .ok (ib', response))
    (hgood : GoodOf financialBook t response good)
    (hgroups : CarriesGroups good inventoryGood) :
    (Menu.BotService.getFinancialBook (some books)
        (Menu.BotService.getExchangeCode inventoryGood) = some financialBook.info ↔
      TradesFirst books financialBook.info good) ∧
    (getGoodExcCodeFromTransaction t financialBook = Menu.BotService.getExchangeCode good →
      (SameCode financialBook.info good ↔
        truthy (Menu.BotService.getExcCode financialBook.info) = true ∧
          ∃ code, Menu.BotService.getExchangeCode good = some code ∧ jsTrim code = code)) := by
  refine ⟨by rw [hgroups.getExchangeCode, getFinancialBook_eq_some], fun hcompared => ?_⟩
  have htraded := tradedIn_of_replicated ht haccepted hgood
  rw [hcompared] at htraded
  constructor
  · rintro ⟨code, hcode, hbook⟩
    have hne := getExchangeCode_ne hcode
    simp only [tradedIn, hcode, hbook] at htraded
    refine ⟨by simpa [hbook, truthy] using hne, code, hcode, ?_⟩
    simpa [hne, matchGoodExchange] using htraded
  · rintro ⟨hgiven, code, hcode, htrim⟩
    have hne := getExchangeCode_ne hcode
    cases hbook : Menu.BotService.getExcCode financialBook.info with
    | none => simp [hbook, truthy] at hgiven
    | some bookCode =>
      have hbookne : bookCode ≠ "" := by simpa [hbook, truthy] using hgiven
      simp only [tradedIn, hcode, hbook] at htraded
      have hmatch : jsTrim code = bookCode := by simpa [hne, hbookne, matchGoodExchange] using htraded
      exact ⟨code, hcode, by rw [hbook, ← hmatch, htrim]⟩


namespace Sample

/-- A good account in a group with the given exchange code. -/
def widgets (code : String) : Account :=
  { id := "f-widgets", name := "Widgets", type := .asset
    groups := [{ name := "Goods", properties := OrderedMap.ofList (fun _ => excCodeProp) [code] }] }

/-- A supplier of the financial book. -/
def supplier : Account := { id := "f-supplier", name := "Supplier", type := .liability }

/-- The dollar book with the good. -/
def dollarBook (code : String) : Book := { info := dollars, accounts := [widgets code, supplier] }

/-- A checked purchase of ten widgets for a hundred. -/
def purchase (code : String) : Payload :=
  { transaction :=
      { id := "t-1", checked := true, date := 3, amount := 100, creditAccount := some supplier.ref
        debitAccount := some (widgets code).ref, quantity := some "10", purchaseInvoice := some "P1"
        purchaseCode := some "P1" }
    creditAccount := some supplier
    debitAccount := some (widgets code) }

/-- The event of that purchase. -/
def purchaseChecked (code : String) : Event :=
  { type := .checked, book := dollars, transaction := some (purchase code) }

/-- An inventory book without accounts. -/
def emptyBook : Book := { info := inventory }

/-- What the outside decides for an event. -/
def eventEnv : EventEnv :=
  { now := 5, transactionId := "i-1", goodAccountId := "a-widgets", otherAccountId := "a-buy" }

/-- The answer is that a purchase was posted. -/
def bought : Except Exception (Book × Response) → Bool
  | .ok (_, .buy _ _) => true
  | _ => false

theorem eq_of_bought (x : Except Exception (Book × Response)) (h : bought x = true) :
    ∃ ib' tx flagged, x = .ok (ib', .buy tx flagged) := by
  unfold bought at h
  split at h
  · exact ⟨_, _, _, rfl⟩
  · cases h

end Sample

/-- The webhook accepts the padded code of a good, the menu finds no book for it. -/
theorem financial_book_padded_code :
    (∃ ib' response, processObject decimalPlatform Sample.eventEnv (Sample.dollarBook " USD ")
        Sample.emptyBook (Sample.purchaseChecked " USD ") = .ok (ib', response) ∧
      GoodOf (Sample.dollarBook " USD ") (Sample.purchase " USD ") response
        (Sample.widgets " USD ")) ∧
    Menu.BotService.getFinancialBook (some [Sample.inventory, Sample.dollars])
      (Menu.BotService.getExchangeCode (Sample.widgets " USD ")) ≠ some Sample.dollars := by
  refine ⟨?_, fun h => ?_⟩
  · obtain ⟨ib', tx, flagged, hbought⟩ := Sample.eq_of_bought
      (processObject decimalPlatform Sample.eventEnv (Sample.dollarBook " USD ")
        Sample.emptyBook (Sample.purchaseChecked " USD ")) (by decide +kernel)
    exact ⟨ib', _, hbought, .buy rfl⟩
  · have hid := congrArg (Option.map BookInfo.id) h
    exact absurd hid (by decide +kernel)

/-- With the code `USD` the menu finds the dollar book. -/
theorem financial_book_resolves_iff_sample :
    Menu.BotService.getFinancialBook (some [Sample.inventory, Sample.dollars])
      (Menu.BotService.getExchangeCode (Sample.widgets "USD")) = some Sample.dollars := by
  obtain ⟨ib', tx, flagged, hbought⟩ := Sample.eq_of_bought
    (processObject decimalPlatform Sample.eventEnv (Sample.dollarBook "USD")
      Sample.emptyBook (Sample.purchaseChecked "USD")) (by decide +kernel)
  have hcode : Menu.BotService.getExchangeCode (Sample.widgets "USD") = some "USD" := by
    decide +kernel
  have hfirst : TradesFirst [Sample.inventory, Sample.dollars] Sample.dollars
      (Sample.widgets "USD") := by
    refine ⟨⟨"USD", hcode, rfl⟩, by decide, [Sample.inventory], [], rfl, fun b hb => ?_⟩
    obtain rfl := List.mem_singleton.1 hb
    exact Or.inr fun ⟨_, _, h⟩ => by cases h
  have hgood : GoodOf (Sample.dollarBook "USD") (Sample.purchase "USD") (.buy tx flagged)
      (Sample.widgets "USD") := .buy rfl
  exact (financial_book_resolves_iff rfl hbought hgood ⟨rfl, rfl⟩).1.2 hfirst

end InventoryBot.System
