import InventoryBot.System.Views

/-!
# Transactions that arrive during a calculation

A sale or purchase is replicated while the cost of sales of its good is calculated.

* `Noticed`: the account is flagged if the calculation has missed the transaction.
* `arrival_noticed_iff`: in which order of their calls the two notice the transaction.
* `arrival_overtaken`: an order in which they do not.
-/

namespace InventoryBot.System

open Lib Menu Events CostOfSalesService

/-- The account tells of the new transaction: it is flagged if the transaction is dated on or before
    the calculation date and was not listed, and a flag of the handler is kept. -/
def Noticed (P : Platform) (e : Encounter) (c : Config) : Prop :=
  ∀ tx needsRebuild, c.handler = .finished tx needsRebuild →
    ∃ a, c.state.inventoryBook.getAccount e.goodAccountId = some a ∧
      (Events.BotService.calculated P a tx.date = true →
        tx.id ∉ (c.run.listing.getD []).map Transaction.id → GoodAccount.needsRebuild a = true) ∧
      (needsRebuild = true → GoodAccount.needsRebuild a = true)

/-- If the object that the handler compares with shows a date on or after the transaction, the
    check comes after the end of the calculation or the calculation writes no date. Otherwise the
    date that is left is before the transaction, or the calculation has listed it, or the
    properties of the financial account carry a flag. -/
def Timely (P : Platform) (e : Encounter) (good : Account) (c : Config) : Prop :=
  let date := e.financialTransaction.transaction.date
  if Events.BotService.calculated P (handlerView P e good c.order (c.run.moved P)) date then
    c.run.moved P = none ∨ c.order.checked = some 6
  else Events.BotService.calculated P (leftBy P e good c.order (c.run.moved P)) date = true →
    (c.run.listing.isSome ∧ c.order.beforeListing ∧ date ≤ e.toDate) ∨
      GoodAccount.needsRebuild (leftBy P e good c.order (c.run.moved P)) = true

/-- What a configuration in which both have ended tells of the new transaction. -/
theorem Inv.noticed_iff {P : Platform} {e : Encounter} {s : State} {good : Account} {c : Config}
    (h : Inv P e s good c) (hmeets : Meets e s.inventoryBook good)
    {tx : Transaction} {flagged : Bool} (hhandler : c.handler = .finished tx flagged) :
    Noticed P e c ↔ Timely P e good c := by
  obtain ⟨a, ha, -, hproperties⟩ := h.account hmeets
  obtain ⟨hid, hdate, -⟩ := h.new tx (by rw [hhandler]; rfl)
  have hflag := h.flag tx flagged hhandler
  have hneeds := needsRebuild_congr hproperties
  have hcalculated := calculated_congr P hproperties tx.date
  have hlisted : tx.id ∈ (c.run.listing.getD []).map Transaction.id ↔
      c.run.listing.isSome ∧ c.order.beforeListing ∧
        e.financialTransaction.transaction.date ≤ e.toDate := by
    cases hlisting : c.run.listing with
    | none => simp
    | some transactions =>
      rw [Option.getD_some, hid, (h.listed transactions hlisting).2]
      simp
  have hnoticed : Noticed P e c ↔
      (Events.BotService.calculated P (standing P e good c) tx.date = true →
        tx.id ∉ (c.run.listing.getD []).map Transaction.id →
          GoodAccount.needsRebuild (standing P e good c) = true) ∧
      (flagged = true → GoodAccount.needsRebuild (standing P e good c) = true) := by
    rw [← hneeds, ← hcalculated]
    constructor
    · intro hall
      obtain ⟨x, hx, hboth⟩ := hall tx flagged hhandler
      obtain rfl : a = x := Option.some.inj (ha.symm.trans hx)
      exact hboth
    · intro hboth tx' flagged' hhandler'
      obtain ⟨rfl, rfl⟩ := HandlerAt.finished.inj (hhandler.symm.trans hhandler')
      exact ⟨a, ha, hboth⟩
  rw [← hdate] at hlisted
  rw [hnoticed, Timely, ← hflag, ← hdate]
  cases flagged with
  | true =>
    rw [if_pos rfl, and_iff_right_of_imp fun hkept _ _ => hkept rfl]
    simp only [true_imp_iff]
    by_cases hlost : (c.run.moved P).isSome ∧ c.order.checked ≠ some 6
    · have hleft : standing P e good c = leftBy P e good c.order (c.run.moved P) := by
        unfold standing
        rw [hhandler]
        exact if_pos hlost
      obtain ⟨date, hmoved⟩ := Option.isSome_iff_exists.1 hlost.1
      have hsynced : c.order.synced ≠ some 6 := fun hsix => hlost.2 (h.late tx true hhandler hsix)
      rw [hleft, hmoved]
      have hunflagged : GoodAccount.needsRebuild (leftBy P e good c.order (some date)) = false := by
        rw [← h.current hlost.1]
        unfold leftBy
        dsimp only
        rw [if_neg hsynced]
        simp [GoodAccount.needsRebuild, GoodAccount.setCOGSCalculationDate, OrderedMap.get_set,
          needsRebuildProp, cogsCalcDateProp]
      rw [hunflagged]
      simp [hlost.2]
    · have hkept : standing P e good c = Events.BotService.setNeedsRebuild
          (handlerView P e good c.order (c.run.moved P)) := by
        unfold standing
        rw [hhandler]
        exact if_neg hlost
      rw [hkept, needsRebuild_setNeedsRebuild]
      refine iff_of_true rfl ?_
      by_contra hneither
      rw [not_or] at hneither
      exact hlost ⟨Option.isSome_iff_ne_none.2 hneither.1, hneither.2⟩
  | false =>
    have hleft : standing P e good c = leftBy P e good c.order (c.run.moved P) :=
      standing_eq_leftBy fun tx' hf => by rw [hhandler] at hf; cases hf
    rw [if_neg Bool.false_ne_true, hleft, ← hlisted]
    constructor
    · rintro ⟨hall, -⟩ hlast
      by_cases hin : tx.id ∈ (c.run.listing.getD []).map Transaction.id
      · exact Or.inl hin
      · exact Or.inr (hall hlast hin)
    · intro hall
      exact ⟨fun hlast hout => (hall hlast).resolve_left hout, fun hf => by cases hf⟩

instance (order : Order) : Decidable order.beforeListing :=
  inferInstanceAs (Decidable (_ ∨ _))

/-- **A transaction that arrives during a calculation is noticed** in every interleaving exactly if
    the calls come in a timely order. -/
theorem arrival_noticed_iff {P : Platform} {e : Encounter} {s : State} {good : Account}
    (hmeets : Meets e s.inventoryBook good) (schedule : List Party) {tx : Transaction}
    {flagged : Bool}
    (hhandler : (interleave P e schedule { state := s }).handler = .finished tx flagged) :
    Noticed P e (interleave P e schedule { state := s }) ↔
      Timely P e good (interleave P e schedule { state := s }) :=
  ((inv_start hmeets).interleave hmeets schedule).noticed_iff hmeets hhandler

namespace Sample

/-- The account of the widgets after their purchase and a sale. -/
def stocked : Account :=
  { id := "a-widgets", name := "Widgets", type := .asset
    groups := (widgets "USD").groups }

/-- A sale of one widget, dated before the others, that is checked while the cost of sales is
    calculated. -/
def lateSale : Encounter where
  collection := books
  runEnv := runEnv
  goodAccountId := "a-widgets"
  toDate := 9
  eventEnv :=
    { now := 8, transactionId := "i-3", goodAccountId := "a-more", otherAccountId := "a-third" }
  quantity := 1
  goodExcCode := some "USD"
  financialTransaction :=
    { sale "1" with
      transaction :=
        { (sale "1").transaction with id := "t-3", date := 1, saleInvoice := some "S2" } }
  arrival := .sale

/-- The handler reads the account and posts after the calculation has listed, and the calculation
    writes its date afterwards. -/
def overtaken : List Party :=
  [.run, .run, .handler, .handler, .handler, .handler, .run, .run, .run, .run]

/-- The handler is done before the calculation lists. -/
def ahead : List Party :=
  [.handler, .handler, .handler, .handler, .run, .run, .run, .run, .run, .run]

theorem lateSale_meets : Meets lateSale (dollarState "4" []).inventoryBook stocked := by
  have hfound : (dollarState "4" []).inventoryBook.getAccount "Widgets" = some stocked := by rfl
  exact ⟨⟨by decide +kernel, by decide +kernel, by decide +kernel, by decide +kernel⟩,
    ⟨by decide +kernel, by decide, by decide +kernel, by decide +kernel⟩,
    Book.mem_of_getAccount hfound, rfl, hfound⟩

/-- The handler has posted a transaction. -/
def hasFinished : HandlerAt → Bool
  | .finished _ _ => true
  | _ => false

theorem eq_of_hasFinished (handler : HandlerAt) (h : hasFinished handler = true) :
    ∃ tx flagged, handler = .finished tx flagged := by
  unfold hasFinished at h
  split at h
  · exact ⟨_, _, rfl⟩
  · cases h

end Sample

/-- The sale that comes after the listing is dated before the calculation date, and the account is
    not flagged for it. -/
theorem arrival_overtaken :
    Meets Sample.lateSale (Sample.dollarState "4" []).inventoryBook Sample.stocked ∧
      ¬Noticed decimalPlatform Sample.lateSale
        (interleave decimalPlatform Sample.lateSale Sample.overtaken
          { state := Sample.dollarState "4" [] }) := by
  refine ⟨Sample.lateSale_meets, fun h => ?_⟩
  have hmissed : ((interleave decimalPlatform Sample.lateSale Sample.overtaken
      { state := Sample.dollarState "4" [] }).state.inventoryBook.getAccount "a-widgets").all
      (fun a => (interleave decimalPlatform Sample.lateSale Sample.overtaken
        { state := Sample.dollarState "4" [] }).handler.new.all fun tx =>
          Events.BotService.calculated decimalPlatform a tx.date &&
            !(((interleave decimalPlatform Sample.lateSale Sample.overtaken
              { state := Sample.dollarState "4" [] }).run.listing.getD []).map
                Transaction.id).contains tx.id && !GoodAccount.needsRebuild a) = true := by
    decide +kernel
  obtain ⟨tx, flagged, hhandler⟩ := Sample.eq_of_hasFinished
    (interleave decimalPlatform Sample.lateSale Sample.overtaken
      { state := Sample.dollarState "4" [] }).handler (by decide +kernel)
  obtain ⟨a, ha, hnoticed, -⟩ := h tx flagged hhandler
  rw [show Sample.lateSale.goodAccountId = "a-widgets" from rfl] at ha
  rw [ha, hhandler] at hmissed
  simp only [HandlerAt.new, Option.all_some, Bool.and_eq_true, Bool.not_eq_true',
    List.contains_eq_mem, decide_eq_false_iff_not] at hmissed
  obtain ⟨⟨hcalculated, hout⟩, hunflagged⟩ := hmissed
  rw [hnoticed hcalculated hout] at hunflagged
  cases hunflagged

/-- A sale that is posted before the calculation lists is noticed. -/
theorem arrival_noticed_iff_sample :
    Noticed decimalPlatform Sample.lateSale
      (interleave decimalPlatform Sample.lateSale Sample.ahead
        { state := Sample.dollarState "4" [] }) := by
  obtain ⟨tx, flagged, hhandler⟩ := Sample.eq_of_hasFinished
    (interleave decimalPlatform Sample.lateSale Sample.ahead
      { state := Sample.dollarState "4" [] }).handler (by decide +kernel)
  refine (arrival_noticed_iff Sample.lateSale_meets Sample.ahead hhandler).2 ?_
  unfold Timely
  decide +kernel

end InventoryBot.System
