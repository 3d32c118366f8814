import InventoryBot.Events.EventHandlerTransactionChecked
import InventoryBot.Menu.Runs

/-!
# A reset undoes every history of calculations

Whatever calculations and resets did to an account, and wherever they were stopped between two
batches, what the account was before any calculation can be read off its transactions: `base`.
A completed reset brings it back.

* `Written.baseOf`, `baseOf_resetRow`: no rewriting and no reset of a transaction changes it.
* `RunStep.history`: no run changes it, stopped or completed.
* `reset_restores_base`: over any sequence of runs, and what a completed reset leaves.
-/

namespace InventoryBot.Menu

open Lib CostOfSalesService

/-! ## The account before any calculation -/

/-- A transaction of the account as it was before any calculation. -/
def baseRow (t : Transaction) : Transaction :=
  if t.originalQuantity.isSome then
    { t with
      checked := false
      amount := t.originalQuantity.getD t.amount
      totalCost := t.goodPurchaseCost
      liquidationLog := none
      additionalCosts := none
      creditNote := none }
  else if BotService.isSale t then
    { t with checked := false, purchaseLog := none, totalCost := none }
  else { t with checked := false }

theorem baseRow_of_quantity {t : Transaction} {quantity : ℚ}
    (h : t.originalQuantity = some quantity) :
    baseRow t = { t with
      checked := false, amount := quantity, totalCost := t.goodPurchaseCost, liquidationLog := none,
      additionalCosts := none, creditNote := none } := by
  simp [baseRow, h]

theorem baseRow_of_sale {t : Transaction} (hquantity : t.originalQuantity = none)
    (hsale : BotService.isSale t) :
    baseRow t = { t with checked := false, purchaseLog := none, totalCost := none } := by
  simp [baseRow, hquantity, hsale]

theorem baseRow_of_other {t : Transaction} (hquantity : t.originalQuantity = none)
    (hsale : ¬BotService.isSale t) : baseRow t = { t with checked := false } := by
  simp [baseRow, hquantity, hsale]

/-- What a transaction contributes to the account before any calculation: nothing where it was
    split off. -/
def baseOf (account : String) (t : Transaction) : Option Transaction :=
  if t.moves account && t.parentId.isNone then some (baseRow t) else none

/-- The account before any calculation. -/
def base (account : String) (l : List Transaction) : List Transaction :=
  l.filterMap (baseOf account)

/-- The transactions of the account. -/
def accountRows (account : String) (l : List Transaction) : List Transaction :=
  l.filter (·.moves account)

/-- The forms that the transactions of an account take in its history. -/
inductive RowForm (t : Transaction) : Prop
  | purchase {quantity cost : ℚ} (hkind : BotService.isPurchase t) (hparent : t.parentId = none)
      (hlog : t.purchaseLog = none) (hquantity : t.originalQuantity = some quantity)
      (hcost : t.goodPurchaseCost = some cost)
  | sale (hkind : BotService.isSale t) (hparent : t.parentId = none)
      (hquantity : t.originalQuantity = none)
      (hlog : (t.checked = true ∧ t.purchaseLog.isSome) ∨
        (t.checked = false ∧ t.purchaseLog = none ∧ t.totalCost = none))
  | creditNote (hkind : BotService.isCreditNote t) (hparent : t.parentId = none)
      (hquantity : t.originalQuantity = none) (hlog : t.purchaseLog = none)
      (hnumber : truthy t.creditNote)
  | split (hkind : BotService.isPurchase t) (hparent : truthy t.parentId)
      (hquantity : t.originalQuantity = none) (hlog : t.purchaseLog = none)

/-- A transaction of the account: the bot posted it, under an id, in one of the forms. -/
structure AccountRow (t : Transaction) : Prop where
  agent : t.agentId = some "inventory-bot"
  id : t.id ≠ ""
  form : RowForm t

section Written

variable {P : Platform} {p t : Transaction}

/-- The forms of a purchase. -/
theorem RowForm.of_purchase (h : RowForm p) (hone : OneSided p) (hkind : BotService.isPurchase p) :
    p.purchaseLog = none ∧ ((p.parentId = none ∧ ∃ quantity cost, p.originalQuantity = some quantity ∧
      p.goodPurchaseCost = some cost) ∨ (truthy p.parentId ∧ p.originalQuantity = none)) := by
  cases h with
  | @purchase quantity cost _ hparent hlog hquantity hcost =>
    exact ⟨hlog, Or.inl ⟨hparent, quantity, cost, hquantity, hcost⟩⟩
  | sale hsale => exact absurd hsale (hone.not_sale hkind)
  | creditNote hnote => exact absurd hnote (hone.not_creditNote hkind)
  | split _ hparent hquantity hlog => exact ⟨hlog, Or.inr ⟨hparent, hquantity⟩⟩

/-- A purchase that keeps its identity and has no purchase log keeps its form. -/
theorem RowForm.purchase_of (hp : p.purchaseLog = none ∧ ((p.parentId = none ∧ ∃ quantity cost,
      p.originalQuantity = some quantity ∧ p.goodPurchaseCost = some cost) ∨
      (truthy p.parentId ∧ p.originalQuantity = none)))
    (hkind : BotService.isPurchase p) : RowForm p := by
  obtain ⟨hlog, ⟨hparent, quantity, cost, hquantity, hcost⟩ | ⟨hparent, hquantity⟩⟩ := hp
  · exact .purchase hkind hparent hlog hquantity hcost
  · exact .split hkind hparent hquantity hlog

/-- The form of a sale. -/
theorem RowForm.of_sale (h : RowForm p) (hone : OneSided p) (hkind : BotService.isSale p) :
    p.parentId = none ∧ p.originalQuantity = none ∧ ((p.checked = true ∧ p.purchaseLog.isSome) ∨
        (p.checked = false ∧ p.purchaseLog = none ∧ p.totalCost = none)) := by
  cases h with
  | purchase hpurchase => exact absurd hkind (hone.not_sale hpurchase)
  | sale _ hparent hquantity hlog => exact ⟨hparent, hquantity, hlog⟩
  | creditNote hnote => exact absurd hnote (not_creditNote_of_sale hkind)
  | split hpurchase => exact absurd hkind (hone.not_sale hpurchase)

/-- The form of a credit note. -/
theorem RowForm.of_creditNote (h : RowForm p) (hone : OneSided p)
    (hkind : BotService.isCreditNote p) : p.parentId = none ∧ p.originalQuantity = none ∧
      p.purchaseLog = none ∧ truthy p.creditNote := by
  cases h with
  | purchase hpurchase => exact absurd hkind (hone.not_creditNote hpurchase)
  | sale hsale => exact absurd hkind (not_creditNote_of_sale hsale)
  | creditNote _ hparent hquantity hlog hnumber => exact ⟨hparent, hquantity, hlog, hnumber⟩
  | split hpurchase => exact absurd hkind (hone.not_creditNote hpurchase)

/-- Rewriting keeps the form of a transaction. -/
theorem RowForm.written (h : RowForm p) (hone : OneSided p) (hw : Written P p t) : RowForm t := by
  cases hw with
  | credited hkind => exact .purchase_of (h.of_purchase hone hkind) hkind
  | taken hkind => exact .purchase_of (h.of_purchase hone hkind) hkind
  | reduced hkind => exact .purchase_of (h.of_purchase hone hkind) hkind
  | applied hkind =>
    obtain ⟨hparent, hquantity, hlog, hnumber⟩ := h.of_creditNote hone hkind
    exact .creditNote hkind hparent hquantity hlog hnumber
  | @settled cost entries hkind =>
    obtain ⟨hparent, hquantity, -⟩ := h.of_sale hone hkind
    rcases settleSale_cases cost entries p with he | he
    · rwa [he]
    · rw [he]
      exact .sale hkind hparent hquantity (Or.inl ⟨rfl, rfl⟩)

theorem AccountRow.written (h : AccountRow p) (hone : OneSided p) (hw : Written P p t) :
    AccountRow t where
  agent := hw.sameIdentity.agentId.trans h.agent
  id := hw.sameIdentity.id ▸ h.id
  form := h.form.written hone hw

/-- Rewriting a transaction does not change what it was before any calculation. -/
theorem Written.baseOf (hw : Written P p t) (h : RowForm p) (hone : OneSided p) (account : String) :
    baseOf account t = Menu.baseOf account p := by
  have hsame := hw.sameIdentity
  unfold Menu.baseOf
  rw [hsame.moves, hsame.parentId]
  split
  · rename_i hroot
    have hparent : p.parentId = none := by
      rw [Bool.and_eq_true, Option.isNone_iff_eq_none] at hroot
      exact hroot.2
    have hpurchase : BotService.isPurchase p → ∃ quantity, p.originalQuantity = some quantity := by
      intro hkind
      rcases (h.of_purchase hone hkind).2 with ⟨-, quantity, cost, hquantity, -⟩ | ⟨hsplit, -⟩
      · exact ⟨quantity, hquantity⟩
      · rw [hparent] at hsplit
        cases hsplit
    congr 1
    cases hw with
    | @credited note hkind =>
      obtain ⟨quantity, hquantity⟩ := hpurchase hkind
      rw [baseRow_of_quantity hquantity, baseRow_of_quantity (t := Menu.credited P note p) hquantity]
      rfl
    | @taken sale quantity cost amounts hkind =>
      obtain ⟨original, hquantity⟩ := hpurchase hkind
      rw [baseRow_of_quantity hquantity,
        baseRow_of_quantity (t := Menu.taken P sale p quantity cost amounts) hquantity]
      rfl
    | @reduced sold quantity cost amounts hkind =>
      obtain ⟨original, hquantity⟩ := hpurchase hkind
      rw [baseRow_of_quantity hquantity,
        baseRow_of_quantity (t := Menu.reduced P p sold quantity cost amounts) hquantity]
      rfl
    | applied hkind =>
      obtain ⟨-, hquantity, -⟩ := h.of_creditNote hone hkind
      have hsale : ¬BotService.isSale p := fun hs => not_creditNote_of_sale hs hkind
      rw [baseRow_of_other hquantity hsale,
        baseRow_of_other (t := Menu.applied p) hquantity hsale]
      rfl
    | @settled cost entries hkind =>
      obtain ⟨-, hquantity, -⟩ := h.of_sale hone hkind
      rw [baseRow_of_sale hquantity hkind, baseRow_of_sale (hsame.originalQuantity.trans hquantity)
        (hsame.isSale.trans hkind)]
      rcases settleSale_cases cost entries p with he | he <;> rw [he]
  · rfl

end Written

/-! ## Resetting one transaction -/

section Reset

variable {P : Platform} {account : String} {t : Transaction}

theorem unchecked_eq (h : t.checked = false) : { t with checked := false } = t := by
  cases t
  cases h
  rfl

theorem uncalculated_eq (h : t.checked = false) (hlog : t.purchaseLog = none)
    (hcost : t.totalCost = none) :
    { t with checked := false, purchaseLog := none, totalCost := none } = t := by
  cases t
  cases h
  cases hlog
  cases hcost
  rfl

/-- The update of a reset makes of a transaction what it was before any calculation. -/
theorem resetRow_eq_baseRow (h : AccountRow t) (hparent : t.parentId = none)
    (hmoves : t.moves account) : resetRow P account t = baseRow t := by
  unfold resetRow
  rw [if_pos hmoves]
  unfold resetUpdate
  rw [if_pos h.agent]
  cases h.form with
  | @purchase quantity cost hkind _ hlog hquantity hcost =>
    have hreset : resetPurchase P { t with checked := false } = .ok { t with
        checked := false, amount := quantity, totalCost := some cost, liquidationLog := none,
        additionalCosts := none, creditNote := none } := by
      unfold resetPurchase
      dsimp only
      rw [hcost, hquantity]
      rfl
    rw [baseRow_of_quantity hquantity, if_neg (by simp [hlog]), if_pos (by simp [hquantity]),
      hreset, hcost]
    rfl
  | sale hkind _ hquantity hlog =>
    rw [baseRow_of_sale hquantity hkind]
    rcases hlog with ⟨-, hlog⟩ | ⟨hunchecked, hlog, hcost⟩
    · rw [if_pos hlog]
      rfl
    · rw [if_neg (by simp [hlog]), if_neg (by simp [hquantity]), uncalculated_eq hunchecked hlog hcost,
        unchecked_eq hunchecked]
      cases truthy t.creditNote <;> rfl
  | creditNote hkind _ hquantity hlog hnumber =>
    have hsale : ¬BotService.isSale t := fun hs => not_creditNote_of_sale hs hkind
    rw [baseRow_of_other hquantity hsale, if_neg (by simp [hlog]), if_neg (by simp [hquantity]),
      if_pos hnumber]
    rfl
  | split _ hsplit =>
    rw [hparent] at hsplit
    cases hsplit

/-- A reset keeps the form of a transaction. -/
theorem AccountRow.reset (h : AccountRow t) (hmoves : t.moves account) :
    AccountRow (resetRow P account t) := by
  have hsame := resetRow_sameIdentity P account t
  refine ⟨hsame.agentId.trans h.agent, hsame.id ▸ h.id, ?_⟩
  cases h.form with
  | @purchase quantity cost hkind hparent hlog hquantity hcost =>
    rw [resetRow_eq_baseRow h hparent hmoves, baseRow_of_quantity hquantity]
    exact .purchase hkind hparent hlog hquantity hcost
  | sale hkind hparent hquantity hlog =>
    rw [resetRow_eq_baseRow h hparent hmoves, baseRow_of_sale hquantity hkind]
    exact .sale hkind hparent hquantity (Or.inr ⟨rfl, rfl, rfl⟩)
  | creditNote hkind hparent hquantity hlog hnumber =>
    have hsale : ¬BotService.isSale t := fun hs => not_creditNote_of_sale hs hkind
    rw [resetRow_eq_baseRow h hparent hmoves, baseRow_of_other hquantity hsale]
    exact .creditNote hkind hparent hquantity hlog hnumber
  | split hkind hparent hquantity hlog =>
    refine .split (hsame.isPurchase.trans hkind) (hsame.parentId.symm ▸ hparent)
      (hsame.originalQuantity.trans hquantity) ?_
    rcases resetRow_cases P account t with hrow | ⟨-, hrow⟩
    · rw [hrow, hlog]
    · rcases resetUpdate_cases hrow with ⟨-, he⟩ | ⟨-, _, _, -, -, he⟩ | ⟨-, -, -, he⟩
      · rw [he]
      · rw [he]
        exact hlog
      · rw [he]
        exact hlog

/-- What a transaction was before any calculation is so for what it was then. -/
theorem baseRow_baseRow (h : RowForm t) (hparent : t.parentId = none) :
    baseRow (baseRow t) = baseRow t := by
  cases h with
  | @purchase quantity cost hkind _ hlog hquantity hcost =>
    rw [baseRow_of_quantity hquantity]
    exact baseRow_of_quantity hquantity
  | sale hkind _ hquantity hlog =>
    rw [baseRow_of_sale hquantity hkind]
    exact baseRow_of_sale hquantity hkind
  | creditNote hkind _ hquantity hlog hnumber =>
    have hsale : ¬BotService.isSale t := fun hs => not_creditNote_of_sale hs hkind
    rw [baseRow_of_other hquantity hsale]
    exact baseRow_of_other hquantity hsale
  | split _ hsplit =>
    rw [hparent] at hsplit
    cases hsplit

/-- A reset does not change what a transaction was before any calculation. -/
theorem baseOf_resetRow (h : t.moves account → AccountRow t) :
    baseOf account (resetRow P account t) = baseOf account t := by
  have hsame := resetRow_sameIdentity P account t
  unfold baseOf
  rw [hsame.moves, hsame.parentId]
  split
  · rename_i hroot
    rw [Bool.and_eq_true, Option.isNone_iff_eq_none] at hroot
    have hrow := h hroot.1
    rw [resetRow_eq_baseRow hrow hroot.2 hroot.1, baseRow_baseRow hrow.form hroot.2]
  · rfl

/-- A reset trashes what was split off, and nothing else of the account. -/
theorem resetTrash_eq (h : AccountRow t) : resetTrash t = !t.parentId.isNone := by
  unfold resetTrash
  rw [h.agent]
  cases h.form with
  | purchase _ hparent hlog => simp [hparent, truthy]
  | sale _ hparent => simp [hparent, truthy]
  | creditNote _ hparent => simp [hparent, truthy]
  | split _ hparent _ hlog =>
    cases hp : t.parentId with
    | none =>
      rw [hp] at hparent
      cases hparent
    | some parent =>
      rw [hp] at hparent
      simp [hlog, hparent]

end Reset

/-! ## Runs that may stop between two batches -/

/-- The exchange code of the account resolves to a financial book of the collection. -/
def resolves (collection : Option (List BookInfo)) (a : Account) : Bool :=
  (BotService.getFinancialBook collection (BotService.getExchangeCode a)).isSome

theorem SameAccount.resolves {a a' : Account} (h : SameAccount a a')
    (collection : Option (List BookInfo)) : resolves collection a' = resolves collection a := by
  unfold Menu.resolves BotService.getExchangeCode
  rw [h.type, h.groups]

section Runs

variable {P : Platform} {collection : Option (List BookInfo)} {env : RunEnv} {s s' : State}
  {goodAccountId : String} {goodAccount : Account} {d : Desk} {before : Date}

theorem openAccount_resolves {fb : Book}
    (h : openAccount collection s goodAccountId = .ok (goodAccount, some fb)) :
    resolves collection goodAccount = true := by
  unfold openAccount at h
  split at h
  · cases h
  · simp only [Except.ok.injEq, Prod.mk.injEq] at h
    obtain ⟨rfl, h⟩ := h
    obtain ⟨info, hinfo, -⟩ := Option.map_eq_some_iff.1 h
    rw [resolves, hinfo]
    rfl

theorem openAccount_of_resolves {a : Account}
    (ha : s.inventoryBook.getAccount goodAccountId = some a)
    (hresolves : resolves collection a = true) :
    openAccount collection s goodAccountId = .ok (a, some s.financialBook) := by
  obtain ⟨info, hinfo⟩ := Option.isSome_iff_exists.1 hresolves
  unfold openAccount
  simp only [ha, hinfo, Option.map_some]

/-- The inventory book after a calculation that fired its first batches. -/
structure PartlyFires (P : Platform) (collection : Option (List BookInfo)) (env : RunEnv)
    (s : State) (goodAccountId : String) (before : Date) (goodAccount : Account) (d : Desk)
    (s' : State) : Prop where
  account : s.inventoryBook.getAccount goodAccountId = some goodAccount
  notIncoming : goodAccount.type ≠ .incoming
  notOutgoing : goodAccount.type ≠ .outgoing
  resolves : resolves collection goodAccount = true
  moves : Moves P env (costOfSalesBook env s) s.inventoryBook.info.fractionDigits
    goodAccount.name before (fun _ => True) (Desk.start s.inventoryBook.transactions) d
  inventory : s'.inventoryBook.transactions =
      s.inventoryBook.transactions ++ Book.postAll env.inventoryId env.now d.created ∨
    s'.inventoryBook.transactions = d.stored ++ Book.postAll env.inventoryId env.now d.created
  accounts : AccountsKept s.inventoryBook s'.inventoryBook
  found : ∃ a, s'.inventoryBook.getAccount goodAccountId = some a ∧ SameAccount goodAccount a

theorem planCalculation_resolves {toDate : Option Date} {sales : List Transaction}
    {processor : CalculateCostOfSalesProcessor}
    (h : planCalculation P collection env s goodAccountId toDate =
      .ok (.fire goodAccount sales processor)) : resolves collection goodAccount = true := by
  unfold planCalculation at h
  obtain ⟨⟨a, book⟩, hopen, h⟩ := bind_eq_ok.1 h
  simp only at h
  split at h
  · cases h
  · split at h
    · cases h
    · split at h
      · cases h
      · split at h
        · cases h
        · obtain ⟨rfl, -⟩ := planListing_fire h
          exact openAccount_resolves hopen

/-- The first batches of a calculation write what its desk shows. -/
theorem partlyFires_of_fire {toDate : Option Date} {goodAccount : Account}
    {sales : List Transaction} {processor : CalculateCostOfSalesProcessor}
    (hwf : WellFormed s.inventoryBook) (hfresh : env.Fresh s)
    (hplan : planCalculation P collection env s goodAccountId toDate =
      .ok (.fire goodAccount sales processor)) :
    ∃ d, Coherent env s.inventoryBook.transactions (creditNoteNumbers s.inventoryBook) processor d ∧
      ∀ calls, PartlyFires P collection env s goodAccountId
        (BotService.getBeforeDateIsoString (toDate.getD env.today)) goodAccount d
        (processor.fireBatchOperations env (calls + 1) (withCostOfSalesAccount env s)) := by
  obtain ⟨hpassed, d, hmoves, -, hcoherent⟩ := planCalculation_moves (fun _ => True) hwf hfresh
    hplan fun _ _ _ => Or.inl fun _ => trivial
  have hone := fireBatchOperations_one (s := s) hcoherent
  have htwo := fireBatchOperations_two hcoherent hfresh.inventoryIds
  have hfires : ∀ s' : State, (s'.inventoryBook.transactions =
        s.inventoryBook.transactions ++ Book.postAll env.inventoryId env.now d.created ∨
      s'.inventoryBook.transactions =
        d.stored ++ Book.postAll env.inventoryId env.now d.created) →
      s'.inventoryBook.accounts = s.inventoryBook.accounts →
      PartlyFires P collection env s goodAccountId
        (BotService.getBeforeDateIsoString (toDate.getD env.today)) goodAccount d s' := by
    intro s' hinventory haccounts
    refine ⟨hpassed.account, hpassed.notIncoming, hpassed.notOutgoing,
      planCalculation_resolves hplan, hmoves, hinventory,
      fun a ha => ⟨a, haccounts ▸ ha, .refl a⟩, goodAccount, ?_, .refl _⟩
    have haccount := hpassed.account
    unfold Book.getAccount at haccount ⊢
    rw [haccounts]
    exact haccount
  refine ⟨d, hcoherent, fun calls => ?_⟩
  match calls with
  | 0 => exact hfires _ (Or.inl hone) rfl
  | 1 => exact hfires _ (Or.inr htwo) rfl
  | _ + 2 => exact hfires _ (Or.inr htwo) rfl

/-- A calculation, stopped or completed, changes nothing but the account of the cost of goods sold,
    is a reset, or fires batches. -/
theorem interruptedCalculation_cases (collection : Option (List BookInfo)) (goodAccountId : String)
    (calls : ℕ) (toDate : Option Date)
    (hwf : WellFormed s.inventoryBook) (hfresh : env.Fresh s) :
    interruptedCalculation P collection env calls s goodAccountId toDate = s ∨
      interruptedCalculation P collection env calls s goodAccountId toDate =
        withCostOfSalesAccount env s ∨
      interruptedCalculation P collection env calls s goodAccountId toDate =
        interruptedReset P collection calls s goodAccountId ∨
      ∃ before goodAccount d, PartlyFires P collection env s goodAccountId before goodAccount d
        (interruptedCalculation P collection env calls s goodAccountId toDate) := by
  have hbooks := booksAfterPlan_cases P collection env s goodAccountId toDate
  unfold interruptedCalculation
  cases hplan : planCalculation P collection env s goodAccountId toDate with
  | error e => exact hbooks.imp id Or.inl
  | ok plan =>
    cases plan with
    | stop summary => exact hbooks.imp id Or.inl
    | reset => exact Or.inr (Or.inr (Or.inl rfl))
    | fire goodAccount sales processor =>
      obtain ⟨d, -, hfires⟩ := partlyFires_of_fire hwf hfresh hplan
      dsimp only
      rw [booksAfterPlan_fire hplan]
      cases calls with
      | zero => exact Or.inr (Or.inl rfl)
      | succ calls => exact Or.inr (Or.inr (Or.inr ⟨_, _, d, hfires calls⟩))

/-- A completed calculation changes nothing but that account, is a reset, or fires all batches. -/
theorem completedCalculation_cases (collection : Option (List BookInfo)) (goodAccountId : String)
    (toDate : Option Date) (hwf : WellFormed s.inventoryBook)
    (hfresh : env.Fresh s) :
    (calculateCostOfSalesForAccount P collection env s goodAccountId toDate).1 = s ∨
      (calculateCostOfSalesForAccount P collection env s goodAccountId toDate).1 =
        withCostOfSalesAccount env s ∨
      (calculateCostOfSalesForAccount P collection env s goodAccountId toDate).1 =
        (resetCostOfSalesForAccount P collection s goodAccountId).1 ∨
      ∃ before goodAccount d, PartlyFires P collection env s goodAccountId before goodAccount d
        (calculateCostOfSalesForAccount P collection env s goodAccountId toDate).1 := by
  rcases calculate_cases P collection env s goodAccountId toDate with
    hsame | hsame | ⟨-, hreset⟩ | ⟨goodAccount, sales, processor, hplan, -⟩
  · exact Or.inl hsame
  · exact Or.inr (Or.inl hsame)
  · exact Or.inr (Or.inr (Or.inl hreset))
  · obtain ⟨d, hfires⟩ := calculation_fires (fun _ => True) hwf hfresh hplan
      fun _ _ _ => Or.inl fun _ => trivial
    obtain ⟨a, ha, hsame, -⟩ := hfires.account
    exact Or.inr (Or.inr (Or.inr ⟨_, goodAccount, d, hfires.passed.account, hfires.passed.notIncoming,
      hfires.passed.notOutgoing, planCalculation_resolves hplan, hfires.moves,
      Or.inr hfires.inventory, hfires.accounts, a, ha, hsame⟩))

/-- A transaction after some batches was stored before, or is written over one that was, or was
    split off one. -/
theorem PartlyFires.mem_cases
    (h : PartlyFires P collection env s goodAccountId before goodAccount d s') {t : Transaction}
    (ht : t ∈ s'.inventoryBook.transactions) : t ∈ s.inventoryBook.transactions ∨ t ∈ d.stored ∨
      ∃ k, ∃ u ∈ d.created, t = Book.post (env.inventoryId k) env.now u ∧
        ∃ p ∈ s.inventoryBook.transactions, IsSplit p u ∧ BotService.isPurchase p := by
  have hposted : t ∈ Book.postAll env.inventoryId env.now d.created →
      ∃ k, ∃ u ∈ d.created, t = Book.post (env.inventoryId k) env.now u ∧
        ∃ p ∈ s.inventoryBook.transactions, IsSplit p u ∧ BotService.isPurchase p := by
    intro ht
    obtain ⟨k, u, hu, rfl⟩ := Book.mem_postAll ht
    exact ⟨k, u, hu, rfl, created_split h.moves hu⟩
  rcases h.inventory with heq | heq <;> rw [heq, List.mem_append] at ht
  · exact ht.imp_right fun ht => Or.inr (hposted ht)
  · exact Or.inr (ht.imp_right hposted)

/-- The books stay well formed. -/
theorem PartlyFires.wellFormed (hwf : WellFormed s.inventoryBook) (hfresh : env.Fresh s)
    (h : PartlyFires P collection env s goodAccountId before goodAccount d s') :
    WellFormed s'.inventoryBook := by
  have hids : d.stored.map Transaction.id = s.inventoryBook.transactions.map Transaction.id :=
    h.moves.ids
  have hnodup : ∀ store : List Transaction,
      store.map Transaction.id = s.inventoryBook.transactions.map Transaction.id →
      ((store ++ Book.postAll env.inventoryId env.now d.created).map Transaction.id).Nodup := by
    intro store hstore
    refine Book.nodup_append_postAll (hstore ▸ hwf.ids) ⟨hfresh.inventoryIds.injective, ?_⟩
    intro k hk
    exact hfresh.inventoryIds.new k (List.mem_cons_of_mem _ (hstore ▸ hk))
  refine ⟨?_, ?_⟩
  · rcases h.inventory with heq | heq <;> rw [heq]
    · exact hnodup _ rfl
    · exact hnodup _ hids
  · intro t ht r hr a' ha' hname
    have hdesk := h.moves.forall_rows (Q := RefsKnown s.inventoryBook.accounts)
      (fun p t hw hp => hp.congr hw.sameIdentity.creditAccount hw.sameIdentity.debitAccount)
      (fun p t hs hp => hp.congr hs.isSplit.creditAccount hs.isSplit.debitAccount)
      (fun t ht => ht.elim (fun ht r hr => hwf.refs t ht r hr) (by simp [Desk.start]))
    have hknown : RefsKnown s.inventoryBook.accounts t := by
      rcases h.mem_cases ht with ht | ht | ⟨k, u, hu, rfl, -⟩
      · exact fun r hr => hwf.refs t ht r hr
      · exact hdesk t (Or.inl ht)
      · exact (hdesk u (Or.inr hu)).congr rfl rfl
    obtain ⟨a, ha, hsame⟩ := h.accounts a' ha'
    rw [hsame.type]
    exact hknown r hr a ha (hname.trans hsame.name)

/-- What a calculation keeps about the rows of the account while it goes on. -/
theorem moves_rows {fb : Book} {digits : ℕ} {account : String} {closes : ℚ → Prop}
    {store : List Transaction}
    (hids : (store.map Transaction.id).Nodup)
    (hrows : ∀ t ∈ store, t.moves account → AccountRow t ∧ OneSided t)
    (h : Moves P env fb digits account before closes (Desk.start store) d) :
    (∀ t ∈ d.stored, t.moves account → AccountRow t ∧ OneSided t) ∧
      d.stored.map (baseOf account) = store.map (baseOf account) := by
  have hkeeps := h.preserves (I := fun e => (e.stored.map Transaction.id).Nodup ∧
    (∀ t ∈ e.stored, t.moves account → AccountRow t ∧ OneSided t) ∧
    e.stored.map (baseOf account) = store.map (baseOf account)) ?_ ⟨hids, hrows, rfl⟩
  · exact hkeeps.2
  · rintro e e' hmove ⟨hids, hrows, hbase⟩
    refine ⟨hmove.ids ▸ hids, ?_, ?_⟩
    · intro t ht hmoves
      rcases hmove.stored_cases ht with ht | ⟨p, hp, hw⟩
      · exact hrows t ht hmoves
      · obtain ⟨hrow, hone⟩ := hrows p hp (hw.sameIdentity.moves account ▸ hmoves)
        exact ⟨hrow.written hone hw, hone.congr hw.sameIdentity⟩
    · rw [← hbase]
      refine hmove.map_stored hids fun p hp hmoves t hw => ?_
      obtain ⟨hrow, hone⟩ := hrows p hp hmoves
      exact hw.baseOf hrow.form hone account

/-- What was split off is of the form of a split. -/
theorem AccountRow.split {p u : Transaction} {k : ℕ} (hfresh : env.Fresh s) (hp : AccountRow p)
    (hsplit : IsSplit p u) (hkind : BotService.isPurchase p) :
    AccountRow (Book.post (env.inventoryId k) env.now u) where
  agent := rfl
  id := fun hid => hfresh.inventoryIds.new k (hid ▸ List.mem_cons_self)
  form := by
    refine .split (isPurchase_post _ _ hsplit hkind) ?_ hsplit.originalQuantity hsplit.purchaseLog
    show truthy u.parentId = true
    rw [hsplit.parentId]
    simpa [truthy] using hp.id

theorem base_append (account : String) (l l' : List Transaction) :
    base account (l ++ l') = base account l ++ base account l' := List.filterMap_append

/-- What is split off does not count before any calculation. -/
theorem base_postAll {newId : ℕ → String} {now : ℕ} {account : String} {l : List Transaction}
    (h : ∀ t ∈ l, t.parentId ≠ none) : base account (Book.postAll newId now l) = [] := by
  refine List.filterMap_eq_nil_iff.2 fun t ht => ?_
  obtain ⟨k, u, hu, rfl⟩ := Book.mem_postAll ht
  have hparent : (Book.post (newId k) now u).parentId.isNone = false := by
    show u.parentId.isNone = false
    simpa using Option.ne_none_iff_isSome.1 (h u hu)
  rw [baseOf, hparent]
  simp

theorem base_eq_of_map {account : String} {l l' : List Transaction}
    (h : l.map (baseOf account) = l'.map (baseOf account)) : base account l = base account l' := by
  have hmap : ∀ l : List Transaction, base account l = (l.map (baseOf account)).reduceOption := by
    intro l
    show _ = (l.map (baseOf account)).filterMap id
    rw [List.filterMap_map]
    rfl
  rw [hmap, hmap, h]

/-- What every state of a history of runs has of the one it started from, `linked` telling
    whether the account has a financial book. -/
structure History (collection : Option (List BookInfo)) (goodAccountId account : String)
    (linked : Bool) (start : List Transaction) (s : State) : Prop where
  wellFormed : WellFormed s.inventoryBook
  found : ∃ a, s.inventoryBook.getAccount goodAccountId = some a ∧ a.name = account ∧
    resolves collection a = linked
  rows : ∀ t ∈ s.inventoryBook.transactions, t.moves account → AccountRow t
  base : base account s.inventoryBook.transactions = Menu.base account start
  unlinked : linked = false → s.inventoryBook.transactions = start

variable {account : String} {linked : Bool} {start : List Transaction}

/-- A calculation goes on with the history, wherever it is stopped. -/
theorem PartlyFires.history (hs : History collection goodAccountId account linked start s)
    (hfresh : env.Fresh s)
    (h : PartlyFires P collection env s goodAccountId before goodAccount d s') :
    History collection goodAccountId account linked start s' := by
  obtain ⟨a, ha, rfl, rfl⟩ := hs.found
  obtain rfl : a = goodAccount := Option.some.inj (ha.symm.trans h.account)
  obtain ⟨a', ha', hsame⟩ := h.found
  have hrows : ∀ t ∈ s.inventoryBook.transactions, t.moves a.name → AccountRow t ∧ OneSided t :=
    fun t ht hmoves => ⟨hs.rows t ht hmoves,
      hs.wellFormed.oneSided h.account h.notIncoming h.notOutgoing ht hmoves⟩
  obtain ⟨hstored, hbase⟩ := moves_rows hs.wellFormed.ids hrows h.moves
  have hparents : ∀ t ∈ d.created, t.parentId ≠ none := by
    intro t ht hnone
    obtain ⟨p, -, hsplit, -⟩ := created_split h.moves ht
    rw [hsplit.parentId] at hnone
    cases hnone
  refine ⟨h.wellFormed hs.wellFormed hfresh,
    ⟨a', ha', hsame.name, hsame.resolves collection⟩, ?_, ?_, ?_⟩
  · intro t ht hmoves
    rcases h.mem_cases ht with ht | ht | ⟨k, u, -, rfl, p, hp, hsplit, hkind⟩
    · exact hs.rows t ht hmoves
    · exact (hstored t ht hmoves).1
    · exact (hs.rows p hp ((hsplit.moves a.name).symm.trans hmoves)).split hfresh hsplit hkind
  · rw [← hs.base]
    rcases h.inventory with heq | heq <;> rw [heq, base_append, base_postAll hparents,
      List.append_nil]
    exact base_eq_of_map hbase
  · rw [h.resolves]
    intro hlinked
    cases hlinked

/-- The rows of a reset, before and after it trashes what was split off. -/
theorem History.reset_rows (hs : History collection goodAccountId account linked start s)
    (keep : Transaction → Bool)
    (hkeep : ∀ t ∈ s.inventoryBook.transactions, keep t = false → baseOf account t = none) :
    (∀ t ∈ (s.inventoryBook.transactions.filter keep).map (resetRow P account),
        t.moves account → AccountRow t) ∧
      Menu.base account ((s.inventoryBook.transactions.filter keep).map (resetRow P account)) =
        Menu.base account start := by
  refine ⟨?_, ?_⟩
  · intro t' ht' hmoves
    obtain ⟨t, ht, rfl⟩ := List.mem_map.1 ht'
    rw [(resetRow_sameIdentity P account t).moves] at hmoves
    exact (hs.rows t (List.mem_of_mem_filter ht) hmoves).reset hmoves
  · rw [← hs.base]
    unfold Menu.base
    rw [List.filterMap_map, List.filterMap_filter]
    refine List.filterMap_congr fun t ht => ?_
    cases hk : keep t with
    | true => simp [baseOf_resetRow (hs.rows t ht)]
    | false => simp [hkeep t ht hk]

/-- The inventory book after some batches of a reset. -/
structure PartlyReset (P : Platform) (collection : Option (List BookInfo)) (s : State)
    (goodAccountId : String) (goodAccount : Account) (s' : State) : Prop where
  account : s.inventoryBook.getAccount goodAccountId = some goodAccount
  resolves : resolves collection goodAccount = true
  inventory : s'.inventoryBook.transactions = s.inventoryBook.transactions ∨
    ∃ keep : Transaction → Bool, (∀ t ∈ s.inventoryBook.transactions, keep t = false →
        t.moves goodAccount.name ∧ resetTrash t) ∧
      s'.inventoryBook.transactions =
        (s.inventoryBook.transactions.filter keep).map (resetRow P goodAccount.name)
  accounts : AccountsKept s.inventoryBook s'.inventoryBook
  found : ∃ a, s'.inventoryBook.getAccount goodAccountId = some a ∧ SameAccount goodAccount a

theorem planReset_resolves {processor : ResetCostOfSalesProcessor}
    (h : planReset P collection s goodAccountId = .ok (.fire goodAccount processor)) :
    Menu.resolves collection goodAccount = true := by
  unfold planReset at h
  obtain ⟨⟨a, book⟩, hopen, h⟩ := bind_eq_ok.1 h
  simp only at h
  split at h
  · cases h
  · obtain ⟨processor', -, h⟩ := bind_eq_ok.1 h
    split at h
    · cases h
    · cases h
      exact openAccount_resolves hopen

/-- A reset that stops without a lock has found no financial book. -/
theorem planReset_nothing {summary : Summary} {a : Account}
    (h : planReset P collection s goodAccountId = .ok (.stop summary)) (hlock : summary ≠ .lockError)
    (ha : s.inventoryBook.getAccount goodAccountId = some a) :
    Menu.resolves collection a = false := by
  unfold planReset openAccount at h
  rw [ha] at h
  obtain ⟨⟨b, book⟩, hopen, h⟩ := bind_eq_ok.1 h
  simp only [Except.ok.injEq, Prod.mk.injEq] at hopen
  obtain ⟨rfl, rfl⟩ := hopen
  unfold Menu.resolves
  cases hfound : BotService.getFinancialBook collection (BotService.getExchangeCode a) with
  | none => rfl
  | some info =>
    simp only [hfound, Option.map_some] at h
    obtain ⟨processor, -, h⟩ := bind_eq_ok.1 h
    split at h
    · cases h
      exact absurd rfl hlock
    · cases h

/-- A reset, stopped or completed, changes nothing or fires batches. -/
theorem interruptedReset_cases (collection : Option (List BookInfo)) (goodAccountId : String)
    (calls : ℕ)
    (hids : (s.inventoryBook.transactions.map Transaction.id).Nodup) :
    interruptedReset P collection calls s goodAccountId = s ∨
      ∃ goodAccount, PartlyReset P collection s goodAccountId goodAccount
        (interruptedReset P collection calls s goodAccountId) := by
  unfold interruptedReset
  cases hplan : planReset P collection s goodAccountId with
  | error e => exact Or.inl rfl
  | ok plan =>
    cases plan with
    | stop summary => exact Or.inl rfl
    | fire goodAccount processor =>
      have hfires := planReset_fire hplan
      have hresolves := planReset_resolves hplan
      have htwo := fireBatchOperations_two_rows hfires hids
      have hthree := fireBatchOperations_three_rows hfires hids
      have hkept : AccountsKept s.inventoryBook s.inventoryBook := .refl _
      match calls with
      | 0 => exact Or.inl rfl
      | 1 => exact Or.inr ⟨goodAccount, hfires.account, hresolves, Or.inl rfl, hkept, goodAccount,
          hfires.account, .refl _⟩
      | 2 =>
        refine Or.inr ⟨goodAccount, hfires.account, hresolves,
          Or.inr ⟨fun _ => true, by simp, ?_⟩, hkept, goodAccount, hfires.account, .refl _⟩
        rw [List.filter_true]
        exact htwo
      | _ + 3 =>
        refine Or.inr ⟨goodAccount, hfires.account, hresolves, Or.inr ⟨_, ?_, hthree⟩, hkept,
          goodAccount, hfires.account, .refl _⟩
        intro t _ hk
        simpa using hk

/-- A reset that fired all batches. -/
theorem ResetDone.partly (hresolves : Menu.resolves collection goodAccount = true)
    (h : ResetDone P s goodAccountId goodAccount s') :
    PartlyReset P collection s goodAccountId goodAccount s' where
  account := h.account
  resolves := hresolves
  inventory := by
    refine Or.inr ⟨_, ?_, h.inventory⟩
    intro t _ hk
    simpa using hk
  accounts := h.accounts
  found := ⟨_, h.cleared, clearAccount_same goodAccount⟩

/-- A reset goes on with the history, wherever it is stopped. -/
theorem PartlyReset.history (hs : History collection goodAccountId account linked start s)
    (h : PartlyReset P collection s goodAccountId goodAccount s') :
    History collection goodAccountId account linked start s' := by
  obtain ⟨a, ha, rfl, rfl⟩ := hs.found
  obtain rfl : a = goodAccount := Option.some.inj (ha.symm.trans h.account)
  obtain ⟨a', ha', hsame⟩ := h.found
  have hunlinked : Menu.resolves collection a = false →
      s'.inventoryBook.transactions = start := by
    rw [h.resolves]
    intro hlinked
    cases hlinked
  have hrefs : ∀ t' ∈ s'.inventoryBook.transactions, ∃ t ∈ s.inventoryBook.transactions,
      SameIdentity t t' := by
    intro t' ht'
    rcases h.inventory with heq | ⟨keep, -, heq⟩ <;> rw [heq] at ht'
    · exact ⟨t', ht', .refl t'⟩
    · obtain ⟨t, ht, rfl⟩ := List.mem_map.1 ht'
      exact ⟨t, List.mem_of_mem_filter ht, resetRow_sameIdentity P a.name t⟩
  have hids : (s'.inventoryBook.transactions.map Transaction.id).Nodup := by
    rcases h.inventory with heq | ⟨keep, -, heq⟩ <;> rw [heq]
    · exact hs.wellFormed.ids
    · rw [List.map_map, show Transaction.id ∘ resetRow P a.name = Transaction.id from
        funext fun t => resetRow_id P a.name t]
      exact hs.wellFormed.ids.sublist (List.Sublist.map _ List.filter_sublist)
  have hrefs' : ∀ t' ∈ s'.inventoryBook.transactions, ∀ r ∈ t'.refs,
      ∀ a' ∈ s'.inventoryBook.accounts, r.name = a'.name → r.type = a'.type := by
    intro t' ht' r hr a' ha' hname
    obtain ⟨t, ht, hrow⟩ := hrefs t' ht'
    obtain ⟨x, hx, hsame⟩ := h.accounts a' ha'
    rw [Transaction.refs, hrow.creditAccount, hrow.debitAccount] at hr
    rw [hsame.type]
    exact hs.wellFormed.refs t ht r hr x hx (hname.trans hsame.name)
  refine ⟨⟨hids, hrefs'⟩, ⟨a', ha', hsame.name, hsame.resolves collection⟩, ?_, ?_, hunlinked⟩
  · rcases h.inventory with heq | ⟨keep, hkeep, heq⟩ <;> rw [heq]
    · exact hs.rows
    · refine (hs.reset_rows keep fun t ht hk => ?_).1
      obtain ⟨hmoves, htrash⟩ := hkeep t ht hk
      rw [resetTrash_eq (hs.rows t ht hmoves)] at htrash
      simp [baseOf, Bool.not_eq_true' _ ▸ htrash]
  · rcases h.inventory with heq | ⟨keep, hkeep, heq⟩ <;> rw [heq]
    · exact hs.base
    · refine (hs.reset_rows keep fun t ht hk => ?_).2
      obtain ⟨hmoves, htrash⟩ := hkeep t ht hk
      rw [resetTrash_eq (hs.rows t ht hmoves)] at htrash
      simp [baseOf, Bool.not_eq_true' _ ▸ htrash]

end Runs

/-! ## Sequences of runs -/

section Replicated

variable {t : Transaction}

theorem AccountRow.of_replicated (h : Events.Replicated t) : AccountRow t := by
  cases h with
  | @sale id now quantity inventoryAccount inventorySellAccount goodExcCode tx hid hsell =>
    refine ⟨rfl, hid, .sale (isSale_iff.2 ⟨rfl, _, rfl, hsell⟩) rfl rfl (Or.inr ⟨rfl, rfl, rfl⟩)⟩
  | @purchase id now quantity inventoryAccount inventoryBuyAccount goodExcCode tx hid hbuy =>
    exact ⟨rfl, hid, .purchase (isPurchase_iff.2 ⟨rfl, _, rfl, hbuy⟩) rfl rfl rfl rfl⟩
  | @creditNote id now quantity inventoryAccount inventoryBuyAccount goodExcCode tx hid hbuy
      hnumber =>
    obtain ⟨number, hsome, -⟩ := Option.any_eq_true _ _ |>.1 hnumber
    exact ⟨rfl, hid, .creditNote (isCreditNote_iff.2 ⟨rfl, ⟨_, rfl, hbuy⟩, number, hsome⟩) rfl rfl
      rfl hnumber⟩

/-- What the webhook posts is as it was before any calculation. -/
theorem baseOf_of_replicated {account : String} (h : Events.Replicated t) (hmoves : t.moves account) :
    baseOf account t = some t := by
  have hrow := AccountRow.of_replicated h
  have hparent : t.parentId = none := by cases h <;> rfl
  rw [baseOf, hmoves, hparent]
  cases h with
  | @sale id now quantity inventoryAccount inventorySellAccount goodExcCode tx hid hsell =>
    have hsale : BotService.isSale (Book.post id now (Events.newSale quantity inventoryAccount
        inventorySellAccount goodExcCode tx)) :=
      isSale_iff.2 ⟨rfl, inventorySellAccount.ref, rfl, hsell⟩
    rw [baseRow_of_sale (by rfl) hsale]
    rfl
  | purchase => rfl
  | @creditNote id now quantity inventoryAccount inventoryBuyAccount goodExcCode tx hid hbuy =>
    have hsale : ¬BotService.isSale (Book.post id now (Events.newCreditNote quantity
        inventoryAccount inventoryBuyAccount goodExcCode tx)) := by
      intro hsale
      obtain ⟨-, r, hr, htype⟩ := isSale_iff.1 hsale
      obtain rfl : inventoryBuyAccount.ref = r := Option.some.inj hr
      rw [show inventoryBuyAccount.ref.type = inventoryBuyAccount.type from rfl, hbuy] at htype
      cases htype
    rw [baseRow_of_other (by rfl) hsale]
    rfl

end Replicated

/-- What the webhook posts for an account is as it was before any calculation. -/
theorem base_of_replicated {account : String} {l : List Transaction}
    (h : ∀ t ∈ l, t.moves account → Events.Replicated t) : base account l = accountRows account l := by
  unfold base accountRows
  rw [← List.filterMap_eq_filter]
  refine List.filterMap_congr fun t ht => ?_
  cases hmoves : t.moves account with
  | true => simp [baseOf_of_replicated (h t ht hmoves) hmoves, hmoves]
  | false => simp [baseOf, hmoves, Option.guard]

/-- One run on an account, completed or stopped after some of its batch calls. -/
inductive RunStep (P : Platform) (collection : Option (List BookInfo)) (goodAccountId : String) :
    State → State → Prop
  | calculate {s : State} (env : RunEnv) (toDate : Option Date) (hfresh : env.Fresh s) :
      RunStep P collection goodAccountId s
        (calculateCostOfSalesForAccount P collection env s goodAccountId toDate).1
  | stoppedCalculation {s : State} (env : RunEnv) (calls : ℕ) (toDate : Option Date)
      (hfresh : env.Fresh s) :
      RunStep P collection goodAccountId s
        (interruptedCalculation P collection env calls s goodAccountId toDate)
  | reset {s : State} :
      RunStep P collection goodAccountId s
        (resetCostOfSalesForAccount P collection s goodAccountId).1
  | stoppedReset {s : State} (calls : ℕ) :
      RunStep P collection goodAccountId s
        (interruptedReset P collection calls s goodAccountId)

section Steps

variable {P : Platform} {collection : Option (List BookInfo)} {s s' : State}
  {goodAccountId account : String} {linked : Bool} {start : List Transaction}

/-- A completed reset changes nothing or fires its batches. -/
theorem completedReset_cases (collection : Option (List BookInfo)) (goodAccountId : String)
    (hids : (s.inventoryBook.transactions.map Transaction.id).Nodup) :
    (resetCostOfSalesForAccount P collection s goodAccountId).1 = s ∨
      ∃ goodAccount, PartlyReset P collection s goodAccountId goodAccount
        (resetCostOfSalesForAccount P collection s goodAccountId).1 := by
  rcases reset_cases (P := P) collection goodAccountId hids with
    ⟨hsame, -⟩ | ⟨houtcome, goodAccount, hdone⟩
  · exact Or.inl hsame
  · refine Or.inr ⟨goodAccount, hdone.partly ?_⟩
    have haccount := hdone.account
    unfold resetCostOfSalesForAccount at houtcome
    cases hplan : planReset P collection s goodAccountId with
    | error e => simp [hplan] at houtcome
    | ok plan =>
      cases plan with
      | stop summary =>
        rw [hplan] at houtcome
        rcases planReset_stop hplan with rfl | rfl <;> cases houtcome
      | fire a processor =>
        obtain rfl : a = goodAccount :=
          Option.some.inj ((planReset_fire hplan).account.symm.trans haccount)
        exact planReset_resolves hplan

/-- No run changes what the account was before any calculation. -/
theorem RunStep.history (hstep : RunStep P collection goodAccountId s s')
    (hs : History collection goodAccountId account linked start s) :
    History collection goodAccountId account linked start s' := by
  have hreset : ∀ calls, History collection goodAccountId account linked start
      (interruptedReset P collection calls s goodAccountId) := by
    intro calls
    rcases interruptedReset_cases (P := P) collection goodAccountId calls hs.wellFormed.ids with
      hsame | ⟨_, hpartly⟩
    · rwa [hsame]
    · exact hpartly.history hs
  have hcompleted : History collection goodAccountId account linked start
      (resetCostOfSalesForAccount P collection s goodAccountId).1 := by
    rcases completedReset_cases (P := P) collection goodAccountId hs.wellFormed.ids with
      hsame | ⟨_, hpartly⟩
    · rwa [hsame]
    · exact hpartly.history hs
  cases hstep with
  | calculate env toDate hfresh =>
    rcases completedCalculation_cases (P := P) collection goodAccountId toDate hs.wellFormed hfresh
      with hsame | hsame | hsame | ⟨_, _, _, hpartly⟩
    · rwa [hsame]
    · rw [hsame]
      exact { hs with }
    · rwa [hsame]
    · exact hpartly.history hs hfresh
  | stoppedCalculation env calls toDate hfresh =>
    rcases interruptedCalculation_cases (P := P) collection goodAccountId calls toDate hs.wellFormed
      hfresh with hsame | hsame | hsame | ⟨_, _, _, hpartly⟩
    · rwa [hsame]
    · rw [hsame]
      exact { hs with }
    · rw [hsame]
      exact hreset calls
    · exact hpartly.history hs hfresh
  | reset => exact hcompleted
  | stoppedReset calls => exact hreset calls

/-- What the account was before any calculation is the same in every state of a sequence of
    runs. -/
theorem runs_history (hruns : Relation.ReflTransGen (RunStep P collection goodAccountId) s s')
    (hs : History collection goodAccountId account linked start s) :
    History collection goodAccountId account linked start s' := by
  induction hruns with
  | refl => exact hs
  | tail _ hstep ih => exact hstep.history ih

/-- A reset that returns has fired its batches, or met a lock, or the account has no financial
    book. -/
theorem reset_returned {summary : Summary}
    (h : resetCostOfSalesForAccount P collection s goodAccountId = (s', .returned summary))
    (hlock : summary ≠ .lockError) (hids : (s.inventoryBook.transactions.map Transaction.id).Nodup) :
    (∃ goodAccount, ResetDone P s goodAccountId goodAccount s') ∨
      (s' = s ∧ ∀ a, s.inventoryBook.getAccount goodAccountId = some a →
        resolves collection a = false) := by
  rcases reset_cases (P := P) collection goodAccountId hids with
    ⟨hsame, hnot⟩ | ⟨-, goodAccount, hdone⟩
  · rw [h] at hsame hnot
    refine Or.inr ⟨hsame, fun a ha => ?_⟩
    unfold resetCostOfSalesForAccount at h
    cases hplan : planReset P collection s goodAccountId with
    | error e =>
      rw [hplan] at h
      cases h
    | ok plan =>
      rw [hplan] at h
      cases plan with
      | fire a processor =>
        cases h
        exact absurd rfl hnot
      | stop summary' =>
        cases h
        exact planReset_nothing hplan hlock ha
  · rw [h] at hdone
    exact Or.inl ⟨goodAccount, hdone⟩

/-- What a reset leaves of the account is what the account was before any calculation. -/
theorem ResetDone.accountRows {goodAccount : Account}
    (h : ResetDone P s goodAccountId goodAccount s')
    (hrows : ∀ t ∈ s.inventoryBook.transactions, t.moves goodAccount.name → AccountRow t) :
    Menu.accountRows goodAccount.name s'.inventoryBook.transactions =
      base goodAccount.name s.inventoryBook.transactions := by
  unfold Menu.accountRows base
  rw [h.inventory, ← List.filterMap_eq_filter, List.filterMap_map, List.filterMap_filter]
  refine List.filterMap_congr fun t ht => ?_
  have hsame := resetRow_sameIdentity P goodAccount.name t
  cases hmoves : t.moves goodAccount.name with
  | false => simp [baseOf, hmoves, Option.guard, hsame.moves]
  | true =>
    have hrow := hrows t ht hmoves
    rw [resetTrash_eq hrow]
    cases hparent : t.parentId with
    | none =>
      have hreset := resetRow_eq_baseRow (P := P) hrow hparent hmoves
      have hmoved : (baseRow t).moves goodAccount.name = true := by
        rw [← hreset, hsame.moves, hmoves]
      simp [baseOf, hmoves, hparent, Option.guard, hreset, hmoved]
    | some parent => simp [baseOf, hmoves, hparent]

/-- Without calculated sales the loop of a reset finds nothing to trash in the financial book. -/
theorem foldlM_resetTransaction_financial {fb : Book} {l : List Transaction}
    {processor processor' : ResetCostOfSalesProcessor}
    (h : l.foldlM (resetTransaction P fb) processor = .ok processor')
    (hlog : ∀ t ∈ l, t.purchaseLog = none) :
    processor'.financialBookTransactionsToTrashMap =
      processor.financialBookTransactionsToTrashMap := by
  induction l generalizing processor with
  | nil =>
    cases h
    rfl
  | cons t l ih =>
    rw [List.foldlM_cons] at h
    obtain ⟨processor₁, ht, h⟩ := bind_eq_ok.1 h
    have hcogs : resetCogs fb t = none := by simp [resetCogs, hlog t List.mem_cons_self]
    rw [ih h fun t ht => hlog t (List.mem_cons_of_mem _ ht), (resetTransaction_queues ht).2.2, hcogs]
    rfl

/-- A reset of an account as the webhook posted it changes no transaction. -/
theorem reset_of_replicated {a : Account} (ha : s.inventoryBook.getAccount goodAccountId = some a)
    (hids : (s.inventoryBook.transactions.map Transaction.id).Nodup)
    (hposted : ∀ t ∈ s.inventoryBook.transactions, t.moves a.name → Events.Replicated t) :
    (resetCostOfSalesForAccount P collection s goodAccountId).1.inventoryBook.transactions =
        s.inventoryBook.transactions ∧
      (resetCostOfSalesForAccount P collection s goodAccountId).1.financialBook.transactions =
        s.financialBook.transactions := by
  rcases reset_cases (P := P) collection goodAccountId hids with
    ⟨hsame, -⟩ | ⟨-, goodAccount, hdone⟩
  · rw [hsame]
    exact ⟨rfl, rfl⟩
  · obtain rfl : a = goodAccount := Option.some.inj (ha.symm.trans hdone.account)
    have hrow : ∀ t ∈ s.inventoryBook.transactions,
        (t.moves a.name && resetTrash t) = false ∧ resetRow P a.name t = t := by
      intro t ht
      cases hmoves : t.moves a.name with
      | false => exact ⟨rfl, by simp [resetRow, hmoves]⟩
      | true =>
        have hrep := hposted t ht hmoves
        have hparent : t.parentId = none := by cases hrep <;> rfl
        have hbase := baseOf_of_replicated hrep hmoves
        rw [baseOf, hmoves, hparent] at hbase
        have hform := AccountRow.of_replicated hrep
        rw [resetTrash_eq hform, hparent, resetRow_eq_baseRow hform hparent hmoves]
        exact ⟨rfl, Option.some.inj hbase⟩
    refine ⟨?_, ?_⟩
    · rw [hdone.inventory, List.filter_eq_self.2 fun t ht => by simp [(hrow t ht).1],
        List.map_congr_left fun t ht => (hrow t ht).2, List.map_id']
    · obtain ⟨processor, hloop, hfinancial⟩ := hdone.loop
      have hempty := foldlM_resetTransaction_financial hloop fun t ht => by
        obtain ⟨ht, hmoves⟩ := List.mem_filter.1 ht
        cases hposted t ht hmoves <;> rfl
      rw [hfinancial, hempty]
      exact List.filter_eq_self.2 fun t _ => rfl

end Steps

section RoundTrip

variable {P : Platform} {collection : Option (List BookInfo)} {goodAccountId : String}
  {s₀ s : State} {a : Account}

/-- **Reset undoes every history of calculations.** From an account as the webhook posts it,
    over any sequence of runs, completed or stopped between two batch calls: what the account was
    before any calculation does not change. A completed reset that meets no lock leaves exactly
    that, and a reset after it changes no transaction. -/
theorem reset_restores_base (hwf : WellFormed s₀.inventoryBook)
    (ha : s₀.inventoryBook.getAccount goodAccountId = some a)
    (hposted : ∀ t ∈ s₀.inventoryBook.transactions, t.moves a.name → Events.Replicated t)
    (hruns : Relation.ReflTransGen (RunStep P collection goodAccountId) s₀ s) :
    base a.name s.inventoryBook.transactions = base a.name s₀.inventoryBook.transactions ∧
      ∀ s' summary,
        resetCostOfSalesForAccount P collection s goodAccountId = (s', .returned summary) →
        summary ≠ .lockError →
        accountRows a.name s'.inventoryBook.transactions =
            base a.name s.inventoryBook.transactions ∧
          (resetCostOfSalesForAccount P collection s' goodAccountId).1.inventoryBook.transactions =
            s'.inventoryBook.transactions ∧
          (resetCostOfSalesForAccount P collection s' goodAccountId).1.financialBook.transactions =
            s'.financialBook.transactions := by
  have hs : History collection goodAccountId a.name (resolves collection a)
      s₀.inventoryBook.transactions s := by
    refine runs_history hruns ⟨hwf, ⟨a, ha, rfl, rfl⟩, fun t ht hmoves => ?_, rfl, fun _ => rfl⟩
    exact .of_replicated (hposted t ht hmoves)
  refine ⟨hs.base, ?_⟩
  intro s' summary hreset hlock
  have hs' : History collection goodAccountId a.name (resolves collection a)
      s₀.inventoryBook.transactions s' := by
    have hstep : RunStep P collection goodAccountId s
        (resetCostOfSalesForAccount P collection s goodAccountId).1 := .reset
    rw [hreset] at hstep
    exact hstep.history hs
  have hbase := base_of_replicated hposted
  have hleft : accountRows a.name s'.inventoryBook.transactions =
      base a.name s.inventoryBook.transactions := by
    obtain ⟨b, hb, hname, hlinked⟩ := hs.found
    rcases reset_returned hreset hlock hs.wellFormed.ids with ⟨goodAccount, hdone⟩ | ⟨rfl, hnot⟩
    · obtain rfl : b = goodAccount := Option.some.inj (hb.symm.trans hdone.account)
      rw [← hname]
      exact hdone.accountRows (hname ▸ hs.rows)
    · rw [hs.unlinked (hlinked.symm.trans (hnot b hb)), hbase]
  -- what is left is what the webhook posted
  have hposted' : ∀ t ∈ s'.inventoryBook.transactions, t.moves a.name → Events.Replicated t := by
    intro t ht hmoves
    have hmem : t ∈ accountRows a.name s'.inventoryBook.transactions :=
      List.mem_filter.2 ⟨ht, hmoves⟩
    rw [hleft, hs.base, hbase] at hmem
    exact hposted t (List.mem_of_mem_filter hmem) hmoves
  obtain ⟨a', ha', hname, -⟩ := hs'.found
  exact ⟨hleft, reset_of_replicated ha' hs'.wellFormed.ids (hname ▸ hposted')⟩

theorem Sample.purchase_replicated {id : String} (code : String) (date : Date) (quantity cost : ℚ)
    (hid : id ≠ "") : Events.Replicated (Sample.purchase id code date quantity cost) :=
  .purchase 0 quantity Sample.good { id := "a-buy", name := "Buy", type := .incoming } (some "USD")
    { id := id, date := date, amount := cost, creditAccount := none, debitAccount := none,
      purchaseCode := some code } hid rfl

theorem Sample.sale_replicated {id : String} (invoice : String) (date : Date) (quantity amount : ℚ)
    (hid : id ≠ "") : Events.Replicated (Sample.sale id invoice date quantity amount) :=
  .sale 0 quantity Sample.good { id := "a-sell", name := "Sell", type := .outgoing } (some "USD")
    { id := id, date := date, amount := amount, creditAccount := none, debitAccount := none,
      saleInvoice := some invoice } hid rfl

theorem Sample.start_replicated : ∀ t ∈ Sample.start.inventoryBook.transactions,
    Events.Replicated t := by
  intro t ht
  rcases List.mem_cons.1 ht with rfl | ht
  · exact Sample.purchase_replicated _ _ _ _ (by decide)
  · obtain rfl := List.mem_singleton.1 ht
    exact Sample.sale_replicated _ _ _ _ (by decide)

/-- The round trip after a calculation that is stopped after two batch calls. -/
theorem reset_restores_base_sample :
    ∃ s, Relation.ReflTransGen (RunStep exactPlatform Sample.collection "a-widgets") Sample.start s ∧
      (resetCostOfSalesForAccount exactPlatform Sample.collection s "a-widgets").2 =
        .returned .resetingAsync ∧
      accountRows "Widgets" (resetCostOfSalesForAccount exactPlatform Sample.collection s
        "a-widgets").1.inventoryBook.transactions =
          base "Widgets" Sample.start.inventoryBook.transactions := by
  have hstep : RunStep exactPlatform Sample.collection "a-widgets" Sample.start _ :=
    .stoppedCalculation (Sample.env 9) 2 none Sample.env_fresh
  have hruns := Relation.ReflTransGen.single hstep
  obtain ⟨hbase, hreset⟩ := reset_restores_base Sample.start_wellFormed Sample.getAccount_start
    (fun t ht _ => Sample.start_replicated t ht) hruns
  have houtcome : (resetCostOfSalesForAccount exactPlatform Sample.collection
      (interruptedCalculation exactPlatform Sample.collection (Sample.env 9) 2 Sample.start
        "a-widgets" none) "a-widgets").2 = .returned .resetingAsync := by
    decide +kernel
  exact ⟨_, hruns, houtcome,
    ((hreset _ .resetingAsync (Prod.ext rfl houtcome) (by decide)).1).trans hbase⟩

end RoundTrip

end InventoryBot.Menu
