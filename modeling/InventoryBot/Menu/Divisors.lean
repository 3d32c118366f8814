import InventoryBot.Menu.Runs

/-!
# What a calculation divides by

The cost of a purchase is divided by its amount. `planCalculation_div`: where purchases, sales
and credit notes have positive amounts, a calculation does not throw at a division, and another
division that agrees on positive divisors gives the same calculation.
-/

namespace InventoryBot.Menu

open Lib CostOfSalesService

/-- The platform with another division. -/
def withDiv (P : Platform) (div : ℚ → ℚ → ℚ) : Platform := { P with div := div }

/-- Two computations of which neither throws at a division, and that are the same. -/
def SameDivisions {α : Type} (x y : Except Exception α) : Prop :=
  x = y ∧ y ≠ .error .divisionByZero

namespace SameDivisions

variable {α β : Type}

theorem ok (a : α) : SameDivisions (.ok a) (.ok a) := ⟨rfl, by simp⟩

theorem of_ne {x : Except Exception α} (h : x ≠ .error .divisionByZero) : SameDivisions x x :=
  ⟨rfl, h⟩

/-- A sequence of two computations, of which the second matters for results of the first. -/
theorem bind {x y : Except Exception α} {f g : α → Except Exception β} (h : SameDivisions x y)
    (hfg : ∀ a, y = .ok a → SameDivisions (f a) (g a)) : SameDivisions (x >>= f) (y >>= g) := by
  obtain ⟨rfl, hne⟩ := h
  cases x with
  | error e =>
    refine ⟨rfl, fun he => hne ?_⟩
    cases he
    rfl
  | ok a => exact hfg a rfl

end SameDivisions

section Divisors

variable {P : Platform} {env : RunEnv} {fb ib : Book} {div : ℚ → ℚ → ℚ}

theorem newAmount_ne (q : Option ℚ) : P.newAmount q ≠ .error .divisionByZero := by
  unfold Platform.newAmount
  cases q with
  | some q => simp
  | none => cases P.missingAmount <;> simp

theorem unfoldedAmounts_ne (p : Transaction) :
    unfoldedAmounts P fb p ≠ .error .divisionByZero := by
  unfold unfoldedAmounts getAdditionalCostsAndCreditNotes
  split
  · split
    · simp
    · dsimp only
      split <;> simp
  · simp

theorem processPurchase_div (hdiv : ∀ x y, 0 < y → div x y = P.div x y)
    {sale p : Transaction} (hp : 0 < p.amount) (st : SaleLoop) :
    SameDivisions (processPurchase (withDiv P div) env fb sale p st)
      (processPurchase P env fb sale p st) := by
  unfold processPurchase
  refine .bind (.of_ne (newAmount_ne _)) fun originalQuantity _ => ?_
  refine .bind (.of_ne (newAmount_ne _)) fun transactionCost _ => ?_
  refine .bind (.of_ne (unfoldedAmounts_ne _)) fun amounts _ => ?_
  have hsame : (withDiv P div).amountDiv
      (transactionCost + amounts.additionalCosts - amounts.creditNotesAmount) p.amount =
        P.amountDiv (transactionCost + amounts.additionalCosts - amounts.creditNotesAmount)
          p.amount := by
    rw [P.amountDiv_of_ne hp.ne', (withDiv P div).amountDiv_of_ne hp.ne']
    exact congrArg Except.ok (hdiv _ _ hp)
  refine .bind ⟨hsame, by rw [P.amountDiv_of_ne hp.ne']; simp⟩ fun uc _ => ?_
  refine ⟨rfl, ?_⟩
  split
  · simp [pure, Except.pure]
  · dsimp only
    split <;> simp [pure, Except.pure, throw, throwThe, MonadExceptOf.throw]

theorem processPurchases_div (hdiv : ∀ x y, 0 < y → div x y = P.div x y) {sale : Transaction} :
    ∀ {ps : List Transaction}, (∀ p ∈ ps, Stocked p) → ∀ st : SaleLoop,
      SameDivisions (processPurchases (withDiv P div) env fb sale ps st)
        (processPurchases P env fb sale ps st) := by
  intro ps
  induction ps with
  | nil => exact fun _ st => .ok _
  | cons p ps ih =>
    intro hps st
    have hrest : ∀ q ∈ ps, Stocked q := fun q hq => hps q (List.mem_cons_of_mem _ hq)
    rw [processPurchases, processPurchases]
    split
    · exact .bind (ih hrest st) fun r _ => .ok _
    · rename_i hunchecked
      have hp : 0 < p.amount := hps p List.mem_cons_self (by simpa using hunchecked)
      refine .bind (processPurchase_div hdiv hp st) fun r _ => ?_
      dsimp only
      split
      · exact .ok _
      · exact .bind (ih hrest _) fun r _ => .ok _

theorem processSale_div (hdiv : ∀ x y, 0 < y → div x y = P.div x y) {sale : Transaction}
    {ps : List Transaction} (hps : ∀ p ∈ ps, Stocked p)
    (processor : CalculateCostOfSalesProcessor) :
    SameDivisions (processSale (withDiv P div) env fb ib sale ps processor)
      (processSale P env fb ib sale ps processor) := by
  unfold processSale
  refine .bind (processPurchases_div hdiv hps _) fun r _ => ⟨rfl, ?_⟩
  dsimp only
  split <;> simp [pure, Except.pure]

theorem processSales_div (hdiv : ∀ x y, 0 < y → div x y = P.div x y) :
    ∀ {sales ps : List Transaction} {processor : CalculateCostOfSalesProcessor},
      (∀ t ∈ sales, 0 < t.amount) → (∀ p ∈ ps, Stocked p) →
      SameDivisions (processSales (withDiv P div) env fb ib sales ps processor)
        (processSales P env fb ib sales ps processor) := by
  intro sales
  induction sales with
  | nil => exact fun _ _ => .ok _
  | cons sale sales ih =>
    intro ps processor hsales hps
    rw [processSales, processSales]
    refine .bind (processSale_div hdiv hps processor) fun r hr => ?_
    obtain ⟨qs, processor₁⟩ := r
    obtain ⟨st, hloop, -⟩ := processSale_cases hr
    have hstocked := (processPurchases_lots hloop (hsales sale List.mem_cons_self) hps).2.1
    dsimp only
    split
    · exact .ok _
    · exact ih (fun t ht => hsales t (List.mem_cons_of_mem _ ht)) hstocked

/-- The purchases after the credit notes are stocked. -/
theorem processCreditNotes_stocked (hP : P.KeepsSign) :
    ∀ {notes : List (Option String × Transaction)}
      {purchases purchases' : OrderedMap (Option String) Transaction}
      {processor processor' : CalculateCostOfSalesProcessor},
      processCreditNotes P notes purchases processor = .ok (.done purchases' processor') →
      (∀ p ∈ purchases.values, Stocked p) → ∀ p ∈ purchases'.values, Stocked p := by
  intro notes
  induction notes with
  | nil =>
    intro purchases purchases' processor processor' h hs
    cases h
    exact hs
  | cons e notes ih =>
    intro purchases purchases' processor processor' h hs
    rcases processCreditNotes_cons h with ⟨-, h⟩ | ⟨p, code, hp, -, hleft, h⟩
    · exact ih h hs
    · refine ih h fun q hq => ?_
      rcases OrderedMap.mem_values_set hq with rfl | hq
      · exact fun _ => (hP _).1 hleft
      · exact hs q hq

theorem processCreditNotes_ne :
    ∀ {notes : List (Option String × Transaction)}
      {purchases : OrderedMap (Option String) Transaction}
      {processor : CalculateCostOfSalesProcessor},
      processCreditNotes P notes purchases processor ≠ .error .divisionByZero := by
  intro notes
  induction notes with
  | nil => intro purchases processor; simp [processCreditNotes, pure, Except.pure]
  | cons e notes ih =>
    intro purchases processor
    rw [processCreditNotes]
    split
    · exact ih
    · dsimp only
      split
      · simp [pure, Except.pure]
      · split
        · simp [throw, throwThe, MonadExceptOf.throw]
        · exact ih

theorem processCreditNotes_withDiv :
    ∀ {notes : List (Option String × Transaction)}
      {purchases : OrderedMap (Option String) Transaction}
      {processor : CalculateCostOfSalesProcessor},
      processCreditNotes (withDiv P div) notes purchases processor =
        processCreditNotes P notes purchases processor := by
  intro notes
  induction notes with
  | nil => intros; rfl
  | cons e notes ih =>
    intro purchases processor
    simp only [processCreditNotes, ih]
    rfl

theorem planListing_div (hP : P.KeepsSign) (hdiv : ∀ x y, 0 < y → div x y = P.div x y)
    {goodAccount : Account} {l : Listing}
    (hsales : ∀ t ∈ l.goodAccountSaleTransactions, 0 < t.amount)
    (hpurchases : ∀ p ∈ l.goodAccountPurchaseTransactionsMap.values, Stocked p) :
    SameDivisions (planListing (withDiv P div) env fb ib goodAccount l)
      (planListing P env fb ib goodAccount l) := by
  unfold planListing
  refine .bind ⟨processCreditNotes_withDiv, processCreditNotes_ne⟩ fun result hresult => ?_
  cases result with
  | stop creditNote => exact .ok _
  | done purchases processor =>
    have hstocked := processCreditNotes_stocked hP hresult hpurchases
    refine .bind (processSales_div hdiv ?_ ?_) fun r _ => ?_
    · exact fun t ht => hsales t ((sortFIFO_perm _).mem_iff.1 ht)
    · exact fun p hp => hstocked p ((sortFIFO_perm _).mem_iff.1 hp)
    · cases r <;> exact .ok _

theorem reachesCostOfSales_div (hP : P.KeepsSign) (hdiv : ∀ x y, 0 < y → div x y = P.div x y)
    {l : Listing} (hpurchases : ∀ p ∈ l.goodAccountPurchaseTransactionsMap.values, Stocked p) :
    reachesCostOfSales (withDiv P div) env fb ib l = reachesCostOfSales P env fb ib l := by
  unfold reachesCostOfSales
  rw [processCreditNotes_withDiv]
  cases hnotes : processCreditNotes P l.goodAccountCreditNoteTransactionsMap.entries
      l.goodAccountPurchaseTransactionsMap {} with
  | error e => rfl
  | ok result =>
    cases result with
    | stop creditNote => rfl
    | done purchases processor =>
      have hstocked := processCreditNotes_stocked hP hnotes hpurchases
      rw [show BotService.sortFIFO (withDiv P div) = BotService.sortFIFO P from rfl]
      dsimp only
      cases BotService.sortFIFO P l.goodAccountSaleTransactions with
      | nil => rfl
      | cons sale sales =>
        dsimp only
        rw [(processSale_div hdiv (fun p hp => hstocked p ((sortFIFO_perm _).mem_iff.1 hp))
          processor).1]

/-! ## Whole runs -/

variable {collection : Option (List BookInfo)} {s : State} {goodAccountId : String}

theorem openAccount_ne : openAccount collection s goodAccountId ≠ .error .divisionByZero := by
  unfold openAccount
  split <;> simp

theorem resetTransaction_ne {processor : ResetCostOfSalesProcessor} {tx : Transaction} :
    resetTransaction P fb processor tx ≠ .error .divisionByZero := by
  have hpurchase : ∀ tx, resetPurchase P tx ≠ .error .divisionByZero := fun tx =>
    (SameDivisions.bind (.of_ne (newAmount_ne _)) fun _ _ =>
      .bind (.of_ne (newAmount_ne _)) fun _ _ => .ok _).2
  unfold resetTransaction
  dsimp only
  split
  · split
    · simp [pure, Except.pure]
    · split
      · exact (SameDivisions.bind (.of_ne (hpurchase _)) fun _ _ => .ok _).2
      · simp [pure, Except.pure]
  · simp [pure, Except.pure]

theorem foldlM_resetTransaction_ne {l : List Transaction} :
    ∀ {processor : ResetCostOfSalesProcessor},
      l.foldlM (resetTransaction P fb) processor ≠ .error .divisionByZero := by
  induction l with
  | nil => simp [pure, Except.pure]
  | cons tx l ih =>
    intro processor
    rw [List.foldlM_cons]
    exact (SameDivisions.bind (.of_ne resetTransaction_ne) fun _ _ => .of_ne ih).2

theorem planReset_ne : planReset P collection s goodAccountId ≠ .error .divisionByZero := by
  have h : SameDivisions (planReset P collection s goodAccountId)
      (planReset P collection s goodAccountId) := by
    unfold planReset
    refine .bind (.of_ne openAccount_ne) fun r _ => ?_
    obtain ⟨a, book⟩ := r
    cases book with
    | none => exact .ok _
    | some fb =>
      refine .bind (.of_ne foldlM_resetTransaction_ne) fun r _ => ?_
      split <;> exact .ok _
  exact h.2

/-- The sales and purchases of the account have positive amounts. -/
def PositiveAmounts (b : Book) (goodAccountId : String) : Prop :=
  ∀ a, b.getAccount goodAccountId = some a → ∀ t ∈ b.transactions, t.moves a.name →
    BotService.isSale t ∨ BotService.isPurchase t → 0 < t.amount

/-- The listing of an account with positive amounts. -/
theorem PositiveAmounts.listing {a : Account} {day : Date}
    (h : PositiveAmounts s.inventoryBook goodAccountId)
    (ha : s.inventoryBook.getAccount goodAccountId = some a) :
    (∀ t ∈ (listingOf P s.inventoryBook a day).goodAccountSaleTransactions, 0 < t.amount) ∧
      ∀ p ∈ (listingOf P s.inventoryBook a day).goodAccountPurchaseTransactionsMap.values,
        Stocked p := by
  obtain ⟨hsales, hpurchases, -⟩ := listing_mem P s a day
  refine ⟨fun t ht => ?_, fun p hp _ => ?_⟩
  · have hin := (hsales t ht).1
    exact h a ha t hin.stored hin.moves (Or.inl hin.kind)
  · obtain ⟨k, hk⟩ := OrderedMap.mem_values_iff.1 hp
    have hin := (hpurchases k p hk).1
    exact h a ha p hin.stored hin.moves (Or.inr hin.kind)

theorem booksAfterPlan_div (hP : P.KeepsSign) (hdiv : ∀ x y, 0 < y → div x y = P.div x y)
    {toDate : Option Date} (hpositive : PositiveAmounts s.inventoryBook goodAccountId) :
    booksAfterPlan (withDiv P div) collection env s goodAccountId toDate =
      booksAfterPlan P collection env s goodAccountId toDate := by
  unfold booksAfterPlan
  rw [show collect (withDiv P div) = collect P from rfl]
  split
  · rename_i a fb hopen
    obtain ⟨haccount, -⟩ := openAccount_ok hopen
    unfold booksAfterListing
    rw [reachesCostOfSales_div hP hdiv (hpositive.listing haccount).2]
  · rfl

theorem planCalculation_div (hP : P.KeepsSign) (hdiv : ∀ x y, 0 < y → div x y = P.div x y)
    {toDate : Option Date} (hpositive : PositiveAmounts s.inventoryBook goodAccountId) :
    SameDivisions (planCalculation (withDiv P div) collection env s goodAccountId toDate)
      (planCalculation P collection env s goodAccountId toDate) := by
  unfold planCalculation
  refine .bind (.of_ne openAccount_ne) fun r hr => ?_
  obtain ⟨a, book⟩ := r
  obtain ⟨haccount, -⟩ := openAccount_ok hr
  dsimp only
  split
  · exact .ok _
  · cases book with
    | none => exact .ok _
    | some fb =>
      have hlisting : SameDivisions
          (planListing (withDiv P div) env (createCostOfSalesAccount env fb) s.inventoryBook a
            (listingOf P s.inventoryBook a (toDate.getD env.today)))
          (planListing P env (createCostOfSalesAccount env fb) s.inventoryBook a
            (listingOf P s.inventoryBook a (toDate.getD env.today))) :=
        planListing_div hP hdiv (hpositive.listing haccount).1 (hpositive.listing haccount).2
      rw [show collect (withDiv P div) = collect P from rfl]
      dsimp only
      split
      · exact .ok _
      · split
        · exact .ok _
        · exact hlisting

/-- A calculation over positive amounts divides by positive amounts only. -/
theorem calculate_div (hP : P.KeepsSign) (hdiv : ∀ x y, 0 < y → div x y = P.div x y)
    {toDate : Option Date} (hpositive : PositiveAmounts s.inventoryBook goodAccountId) :
    calculateCostOfSalesForAccount (withDiv P div) collection env s goodAccountId toDate =
        calculateCostOfSalesForAccount P collection env s goodAccountId toDate ∧
      (calculateCostOfSalesForAccount P collection env s goodAccountId toDate).2 ≠
        .threw .divisionByZero := by
  obtain ⟨hsame, hne⟩ : SameDivisions
      (planCalculation (withDiv P div) collection env s goodAccountId toDate)
      (planCalculation P collection env s goodAccountId toDate) :=
    planCalculation_div hP hdiv hpositive
  unfold calculateCostOfSalesForAccount
  rw [hsame, booksAfterPlan_div hP hdiv hpositive]
  cases hplan : planCalculation P collection env s goodAccountId toDate with
  | error e =>
    refine ⟨rfl, fun he => hne ?_⟩
    cases he
    exact hplan
  | ok plan =>
    cases plan with
    | stop summary => exact ⟨rfl, by simp⟩
    | reset =>
      refine ⟨rfl, ?_⟩
      unfold resetCostOfSalesForAccount
      cases hreset : planReset P collection s goodAccountId with
      | error e =>
        intro he
        cases he
        exact planReset_ne hreset
      | ok plan => cases plan <;> simp
    | fire => exact ⟨rfl, by simp⟩

end Divisors

end InventoryBot.Menu
