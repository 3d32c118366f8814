import InventoryBot.System.Mirror

/-!
# The gate of the exchange code

A checked transaction is replicated if the exchange code of its good is that of the book. The
webhook takes the code from the account that the `good` property names, else from the debit
account.

* `replicates_eq`: when a checked transaction is replicated.
* `gated_by_good_iff`: when the code is that of the good account, and when the supplier or
  customer has no say in the replication.
-/

namespace InventoryBot.System

open Lib Menu Events

/-! ## The two accounts of a transaction -/

/-- The account that the `good` property names in the financial book. -/
def namedGood (fb : Book) (t : Payload) : Option Account :=
  t.transaction.good.bind fb.getAccount

/-- The good account that a financial transaction moves. -/
def goodAccountOf (kind : Kind) (fb : Book) (t : Payload) : Option Account :=
  match kind with
  | .sale => namedGood fb t
  | .purchase => t.debitAccount
  | .creditNote => t.creditAccount

/-- The exchange code of an account that may be missing. -/
def codeOf (account : Option Account) : Option String :=
  account.bind Menu.BotService.getExchangeCode

/-- The transaction with another supplier or customer. -/
def withCounter (kind : Kind) (t : Payload) (a : Account) : Payload :=
  match kind with
  | .purchase =>
    { t with
      transaction := { t.transaction with creditAccount := some a.ref }, creditAccount := some a }
  | .sale | .creditNote =>
    { t with
      transaction := { t.transaction with debitAccount := some a.ref }, debitAccount := some a }

theorem getGoodExcCode_eq (t : Payload) (fb : Book) :
    getGoodExcCodeFromTransaction t fb = codeOf (namedGood fb t <|> t.debitAccount) := by
  unfold getGoodExcCodeFromTransaction codeOf namedGood
  cases t.transaction.good.bind fb.getAccount <;> rfl

/-! ## Replication -/

theorem Copy.excCode {env : EventEnv} {quantity : ℚ} {goodExcCode : Option String}
    {t c : Transaction} {response : Response} (h : Copy env quantity goodExcCode t response c) :
    c.excCode = goodExcCode := by
  cases h <;> rfl

/-- A check of the transaction in the financial book makes the webhook post a copy. -/
def replicates (P : Platform) (env : EventEnv) (fb b : Book) (t : Payload) : Bool :=
  match processObject P env fb b { type := .checked, book := fb.info, transaction := some t } with
  | .ok (_, response) => postsCopy response
  | .error _ => false

section Gate

variable {P : Platform} {env : EventEnv} {fb b : Book} {t : Payload} {quantity : ℚ} {kind : Kind}

/-- A sale of an unnamed good cannot be replicated: its account has no name. -/
def copyable (kind : Kind) (t : Payload) : Bool := kind != .sale || t.transaction.good.isSome

/-- A transaction passes the gate once. -/
theorem replicates_eq (h : Replicable P t quantity) (hkind : kindOf t.transaction = some kind) :
    replicates P env fb b t =
      (tradedIn fb (getGoodExcCodeFromTransaction t fb) &&
        ((b.getTransactions (.remoteId t.transaction.id)).head?.isNone && copyable kind t)) := by
  obtain ⟨debitAccount, hdebit⟩ := Option.ne_none_iff_exists'.1 h.debitAccount
  obtain ⟨creditAccount, hcredit⟩ := Option.ne_none_iff_exists'.1 h.creditAccount
  unfold replicates processObject
  simp only [h.posted, if_true]
  cases tradedIn fb (getGoodExcCodeFromTransaction t fb) with
  | false => rfl
  | true =>
    cases (b.getTransactions (.remoteId t.transaction.id)).head? with
    | some copy => rfl
    | none =>
      have hloop : connectedTransactionNotFound P env b t (getGoodExcCodeFromTransaction t fb) =
          if truthy t.transaction.saleInvoice then
            sell P env b quantity t (getGoodExcCodeFromTransaction t fb)
          else if truthy t.transaction.purchaseInvoice then
            .ok (buy P env b quantity t debitAccount (getGoodExcCodeFromTransaction t fb))
          else if truthy t.transaction.creditNote then
            .ok (credit P env b quantity t creditAccount (getGoodExcCodeFromTransaction t fb))
          else .ok (b, .silent) := by
        unfold connectedTransactionNotFound
        simp only [hdebit, hcredit, h.id, h.parses, if_false]
        exact if_neg h.nonzero
      simp only [hloop, if_true, Option.isNone_none, Bool.true_and]
      unfold kindOf at hkind
      split at hkind
      · rename_i hsale
        cases hkind
        rw [if_pos hsale]
        show (match sell P env b quantity t _ with
          | .ok (_, response) => postsCopy response
          | .error _ => false) = t.transaction.good.isSome
        unfold sell createConnectedInventoryAccountOnSale
        cases hgood : t.transaction.good with
        | none => rfl
        | some name =>
          simp only [Option.bind_some]
          cases b.getAccount name <;> rfl
      · rename_i hsale
        rw [if_neg hsale]
        split at hkind
        · rename_i hpurchase
          cases hkind
          rw [if_pos hpurchase]
          rfl
        · rename_i hpurchase
          rw [if_neg hpurchase]
          split at hkind
          · rename_i hnote
            cases hkind
            rw [if_pos hnote]
            rfl
          · cases hkind

theorem tradedIn_of_noCode {code : Option String}
    (h : truthy (Menu.BotService.getExcCode fb.info) = false) : tradedIn fb code = true := by
  unfold tradedIn
  cases code with
  | none => rfl
  | some code =>
    cases hbook : Menu.BotService.getExcCode fb.info with
    | none => rfl
    | some excCode =>
      rw [hbook] at h
      have hempty : excCode = "" := by simpa [truthy] using h
      simp [hempty]

/-- A supplier or customer of the given exchange code. -/
def counterOf (code : String) : Account where
  id := ""
  name := ""
  type := .liability
  groups := [{ name := "", properties := OrderedMap.ofList (fun _ => excCodeProp) [code] }]

/-- The groups of an account can open the gate of a book with a code, and can close it. -/
theorem exists_counter (h : truthy (Menu.BotService.getExcCode fb.info) = true) (opened : Bool) :
    ∃ a, tradedIn fb (Menu.BotService.getExchangeCode a) = opened := by
  cases opened with
  | true => exact ⟨{ id := "", name := "", type := .liability }, rfl⟩
  | false =>
    obtain ⟨excCode, hbook, hne⟩ : ∃ excCode,
        Menu.BotService.getExcCode fb.info = some excCode ∧ excCode ≠ "" := by
      cases hbook : Menu.BotService.getExcCode fb.info with
      | none => simp [hbook, truthy] at h
      | some excCode => exact ⟨excCode, rfl, by simpa [hbook, truthy] using h⟩
    have hA : Menu.BotService.getExchangeCode (counterOf "A") = some "A" := by decide
    have hB : Menu.BotService.getExchangeCode (counterOf "B") = some "B" := by decide
    by_cases hA' : excCode = "A"
    · refine ⟨counterOf "B", ?_⟩
      have htrim : jsTrim "B" = "B" := by decide
      simp [hB, tradedIn, hbook, hA', matchGoodExchange, htrim]
    · refine ⟨counterOf "A", ?_⟩
      have htrim : jsTrim "A" = "A" := by decide
      simp [hA, tradedIn, hbook, hne, matchGoodExchange, htrim, Ne.symm hA']

theorem replicable_withCounter (h : Replicable P t quantity) (kind : Kind) (a : Account) :
    Replicable P (withCounter kind t a) quantity := by
  cases kind with
  | purchase => exact ⟨h.posted, h.id, h.debitAccount, by simp [withCounter], h.parses, h.nonzero⟩
  | _ => exact ⟨h.posted, h.id, by simp [withCounter], h.creditAccount, h.parses, h.nonzero⟩

/-- The exchange code, in the comparison and on the copy, and the replication depend on the good
    only. -/
structure GatedByGood (P : Platform) (fb : Book) (kind : Kind) (t : Payload) : Prop where
  code : getGoodExcCodeFromTransaction t fb = codeOf (goodAccountOf kind fb t)
  stored : ∀ {env b b' response quantity c}, Replication P env fb b b' t response quantity c →
    c.excCode = codeOf (goodAccountOf kind fb t)
  counter : ∀ env b a, replicates P env fb b (withCounter kind t a) = replicates P env fb b t

/-- The good of the transaction is found: by name, or on the debit side where its code is the same
    and no other account of that side is held against the book. -/
def FindsGood (fb : Book) (kind : Kind) (t : Payload) : Prop :=
  match kind with
  | .purchase => ∀ a, namedGood fb t = some a →
      Menu.BotService.getExchangeCode a = codeOf t.debitAccount
  | .sale => namedGood fb t ≠ none ∨ (codeOf t.debitAccount = none ∧
      (t.transaction.good = none ∨ truthy (Menu.BotService.getExcCode fb.info) = false))
  | .creditNote => (∃ a, namedGood fb t = some a ∧
        Menu.BotService.getExchangeCode a = codeOf t.creditAccount) ∨
      (namedGood fb t = none ∧ codeOf t.debitAccount = codeOf t.creditAccount ∧
        truthy (Menu.BotService.getExcCode fb.info) = false)

theorem namedGood_withCounter (kind : Kind) (fb : Book) (t : Payload) (a : Account) :
    namedGood fb (withCounter kind t a) = namedGood fb t := by
  cases kind <;> rfl

theorem kindOf_withCounter (kind : Kind) (t : Payload) (a : Account) :
    kindOf (withCounter kind t a).transaction = kindOf t.transaction := by
  cases kind <;> rfl

variable (fb) in
/-- The supplier or customer has no say, unless the webhook falls back on it. -/
theorem counter_iff (h : Replicable P t quantity) (hkind : kindOf t.transaction = some kind) :
    (∀ env b a, replicates P env fb b (withCounter kind t a) = replicates P env fb b t) ↔
      kind = .purchase ∨ namedGood fb t ≠ none ∨ copyable kind t = false ∨
        truthy (Menu.BotService.getExcCode fb.info) = false := by
  have heq : ∀ env b a, replicates P env fb b (withCounter kind t a) =
      (tradedIn fb (codeOf (namedGood fb t <|> (withCounter kind t a).debitAccount)) &&
        ((b.getTransactions (.remoteId t.transaction.id)).head?.isNone && copyable kind t)) := by
    intro env b a
    rw [replicates_eq (replicable_withCounter h kind a) ((kindOf_withCounter kind t a).trans hkind),
      getGoodExcCode_eq, namedGood_withCounter]
    cases kind <;> rfl
  constructor
  · intro hsame
    by_contra hnot
    simp only [not_or, not_not, Bool.not_eq_false] at hnot
    obtain ⟨hpurchase, hnamed, hcopyable, hcode⟩ := hnot
    obtain ⟨a, ha⟩ := exists_counter hcode (!tradedIn fb (getGoodExcCodeFromTransaction t fb))
    have hdebit : (withCounter kind t a).debitAccount = some a := by
      cases kind with
      | purchase => exact absurd rfl hpurchase
      | _ => rfl
    -- an inventory book without a copy
    have hflipped := hsame { now := 0, transactionId := "", goodAccountId := "", otherAccountId := "" }
      { info := fb.info } a
    rw [heq, replicates_eq h hkind, hnamed, hcopyable, hdebit] at hflipped
    have htraded : tradedIn fb (codeOf (some a)) =
        tradedIn fb (getGoodExcCodeFromTransaction t fb) := by
      simpa [Book.getTransactions] using hflipped
    rw [show codeOf (some a) = Menu.BotService.getExchangeCode a from rfl, ha] at htraded
    simp at htraded
  · intro hgood env b a
    rw [heq, replicates_eq h hkind, getGoodExcCode_eq]
    rcases hgood with rfl | hnamed | hcopyable | hcode
    · rfl
    · obtain ⟨named, hnamed⟩ := Option.ne_none_iff_exists'.1 hnamed
      rw [hnamed]
      rfl
    · rw [hcopyable, Bool.and_false, Bool.and_false, Bool.and_false]
    · rw [tradedIn_of_noCode hcode, tradedIn_of_noCode hcode]

/-- The exchange code and the replication depend on the good only, exactly if the webhook finds
    the good. -/
theorem gated_by_good_iff (h : Replicable P t quantity)
    (hkind : kindOf t.transaction = some kind) :
    GatedByGood P fb kind t ↔ FindsGood fb kind t := by
  have hcounter := counter_iff fb h hkind
  have hsplit : GatedByGood P fb kind t ↔
      codeOf (namedGood fb t <|> t.debitAccount) = codeOf (goodAccountOf kind fb t) ∧
        (kind = .purchase ∨ namedGood fb t ≠ none ∨ copyable kind t = false ∨
          truthy (Menu.BotService.getExcCode fb.info) = false) := by
    rw [← getGoodExcCode_eq, ← hcounter]
    refine ⟨fun h => ⟨h.code, h.counter⟩, fun h => ⟨h.1, fun hreplication => ?_, h.2⟩⟩
    exact hreplication.copy.excCode.trans h.1
  rw [hsplit]
  cases kind <;> cases hnamed : namedGood fb t <;>
    simp [FindsGood, goodAccountOf, hnamed, codeOf, copyable]

end Gate

namespace Sample

/-- A checked credit note of two widgets. -/
def refund : Payload where
  transaction :=
    { id := "t-6", checked := true, date := 4, amount := 20
      creditAccount := some (widgets "USD").ref, debitAccount := some supplier.ref
      quantity := some "2", creditNote := some "N3", purchaseCode := some "P1" }
  creditAccount := some (widgets "USD")
  debitAccount := some supplier

theorem refund_replicable : Replicable decimalPlatform refund 2 :=
  ⟨rfl, by decide, by simp [refund], by simp [refund], by decide +kernel, by norm_num⟩

theorem purchase_replicable : Replicable decimalPlatform (purchase "USD") 10 :=
  ⟨rfl, by decide, by simp [purchase], by simp [purchase], by decide +kernel, by norm_num⟩

end Sample

/-- A credit note of widgets in the dollar book is replicated for one supplier, and skipped for a
    supplier with another exchange code. -/
theorem refund_gated_by_supplier :
    (∃ t quantity, Replicable decimalPlatform t quantity ∧
      kindOf t.transaction = some .creditNote ∧
      codeOf (goodAccountOf .creditNote (Sample.dollarBook "USD") t) = some "USD" ∧
      ¬GatedByGood decimalPlatform (Sample.dollarBook "USD") .creditNote t) ∧
    replicates decimalPlatform Sample.eventEnv (Sample.dollarBook "USD") Sample.emptyBook
      Sample.refund = true ∧
    replicates decimalPlatform Sample.eventEnv (Sample.dollarBook "USD") Sample.emptyBook
      (withCounter .creditNote Sample.refund (counterOf "EUR")) = false := by
  refine ⟨⟨withCounter .creditNote Sample.refund (counterOf "EUR"), 2,
    replicable_withCounter Sample.refund_replicable _ _, by decide, by decide, fun h => ?_⟩,
    by decide +kernel, by decide +kernel⟩
  exact absurd h.code (by decide)

/-- A purchase of widgets does not depend on its supplier. -/
theorem gated_by_good_iff_sample :
    GatedByGood decimalPlatform (Sample.dollarBook "USD") .purchase (Sample.purchase "USD") :=
  (gated_by_good_iff Sample.purchase_replicable (by decide)).2 fun _ ha => by cases ha

end InventoryBot.System
