import InventoryBot.Menu.DeskRefinement

/-!
# When the loops over the sales come to their end

The loops stop with an error at a purchase that lacks what they read of it. Which purchases they
come to depends on the quantities only.

* `processPurchase_returns_iff`: what one purchase must carry.
* `processPurchases_returns_iff`: one sale, by how far it comes in the purchases.
* `processSales_returns_iff`: all sales, by how far their sum comes and where each of them ends.
-/

namespace InventoryBot.Menu

open Lib CostOfSalesService

/-- What a sale reads of a purchase is there: two amounts and, before a sale has processed it,
    the account for which the linked amounts are looked up. -/
structure Legible (P : Platform) (financialBook : Book) (p : Transaction) : Prop where
  originalQuantity : p.originalQuantity = none → P.missingAmount ≠ none
  totalCost : p.totalCost = none → P.missingAmount ≠ none
  account : Unprocessed p →
    ∃ r, p.debitAccount = some r ∧ financialBook.getAccount r.name ≠ none

section Returns

variable {P : Platform} {env : RunEnv} {fb ib : Book}

theorem legible_iff {p : Transaction} : Legible P fb p ↔
    (p.originalQuantity = none → P.missingAmount ≠ none) ∧
      (p.totalCost = none → P.missingAmount ≠ none) ∧
      (Unprocessed p → p.debitAccount.any fun r => (fb.getAccount r.name).isSome) := by
  simp only [Option.any_eq_true, Option.isSome_iff_ne_none]
  exact ⟨fun h => ⟨h.originalQuantity, h.totalCost, h.account⟩, fun h => ⟨h.1, h.2.1, h.2.2⟩⟩

instance (p : Transaction) : Decidable (Legible P fb p) := decidable_of_iff _ legible_iff.symm

theorem getAdditionalCostsAndCreditNotes_returns_iff {p : Transaction} :
    (∃ amounts, getAdditionalCostsAndCreditNotes P fb p = .ok amounts) ↔
      ∃ r, p.debitAccount = some r ∧ fb.getAccount r.name ≠ none := by
  unfold getAdditionalCostsAndCreditNotes
  cases p.debitAccount with
  | none => simp
  | some r => cases hfound : fb.getAccount r.name <;> simp [hfound]

theorem unfoldedAmounts_returns_iff {p : Transaction} :
    (∃ amounts, unfoldedAmounts P fb p = .ok amounts) ↔
      (Unprocessed p → ∃ r, p.debitAccount = some r ∧ fb.getAccount r.name ≠ none) := by
  unfold unfoldedAmounts
  split
  · rename_i hunprocessed
    have hunprocessed : Unprocessed p := hunprocessed
    rw [getAdditionalCostsAndCreditNotes_returns_iff]
    exact ⟨fun h _ => h, fun h => h hunprocessed⟩
  · rename_i hprocessed
    have hprocessed : ¬Unprocessed p := hprocessed
    exact ⟨fun _ h => absurd h hprocessed, fun _ => ⟨{}, rfl⟩⟩

/-! ## One purchase -/

/-- A sale gets past a purchase if it finds what it reads and, for a part, a purchase code. -/
theorem processPurchase_returns_iff {sale p : Transaction} {st : SaleLoop} (hamount : p.amount ≠ 0) :
    (∃ r, processPurchase P env fb sale p st = .ok r) ↔
      Legible P fb p ∧ (st.soldQuantity < p.amount → p.purchaseCode ≠ none) := by
  constructor
  · rintro ⟨⟨p', st'⟩, h⟩
    obtain ⟨quantity, cost, amounts, ⟨q, hq, -⟩, ⟨hamounts, c, hc, -⟩, -, hcase⟩ :=
      processPurchase_cases h
    refine ⟨⟨P.newAmount_returns_iff.1 ⟨q, hq⟩, P.newAmount_returns_iff.1 ⟨c, hc⟩,
      unfoldedAmounts_returns_iff.1 ⟨amounts, hamounts⟩⟩, fun hlt => ?_⟩
    rcases hcase with ⟨hle, -⟩ | ⟨-, code, hcode, -⟩
    · exact absurd hle (not_le.2 hlt)
    · rw [hcode]
      simp
  · rintro ⟨hread, hcode⟩
    obtain ⟨quantity, hquantity⟩ := P.newAmount_returns_iff.2 hread.originalQuantity
    obtain ⟨cost, hcost⟩ := P.newAmount_returns_iff.2 hread.totalCost
    obtain ⟨amounts, hamounts⟩ := unfoldedAmounts_returns_iff.2 hread.account
    unfold processPurchase
    rw [hcost, hquantity, hamounts]
    simp only [bind, Except.bind, P.amountDiv_of_ne hamount]
    split
    · exact ⟨_, rfl⟩
    · rename_i hlt
      obtain ⟨code, hcode⟩ := Option.ne_none_iff_exists'.1 (hcode (not_le.1 hlt))
      simp only [markProcessed, reducePurchase, hcode]
      exact ⟨_, rfl⟩

/-- A later sale reads of a purchase what an earlier one read, and finds the code it had. -/
def ReadAlike (P : Platform) (fb : Book) (p p' : Transaction) : Prop :=
  (Legible P fb p' ↔ Legible P fb p) ∧ p'.purchaseCode = p.purchaseCode

theorem processPurchase_readAlike {sale p p' : Transaction} {st st' : SaleLoop}
    (h : processPurchase P env fb sale p st = .ok (p', st')) : ReadAlike P fb p p' := by
  obtain ⟨quantity, cost, amounts, -, -, hamount, hcase⟩ := processPurchase_cases h
  have hread : Legible P fb p := ((processPurchase_returns_iff hamount).1 ⟨_, h⟩).1
  rcases hcase with ⟨-, rfl, -⟩ | ⟨-, code, -, rfl, -⟩
  · have hafter : Legible P fb (taken P sale p quantity cost amounts) :=
      ⟨hread.originalQuantity, fun hnone => absurd hnone (Option.some_ne_none _),
        fun hunprocessed => absurd hunprocessed (markProcessed_processed _)⟩
    exact ⟨iff_of_true hafter hread, rfl⟩
  · have hafter : Legible P fb (reduced P p st.soldQuantity quantity cost amounts) :=
      ⟨hread.originalQuantity, fun hnone => absurd hnone (Option.some_ne_none _),
        fun hunprocessed => absurd hunprocessed (markProcessed_processed _)⟩
    exact ⟨iff_of_true hafter hread, rfl⟩

theorem readAlike_refl (ps : List Transaction) : List.Forall₂ (ReadAlike P fb) ps ps :=
  List.forall₂_same.2 fun _ _ => ⟨Iff.rfl, rfl⟩

theorem processPurchases_readAlike {sale : Transaction} :
    ∀ {ps ps' : List Transaction} {st st' : SaleLoop},
      processPurchases P env fb sale ps st = .ok (ps', st') →
      List.Forall₂ (ReadAlike P fb) ps ps' := by
  intro ps
  induction ps with
  | nil =>
    intro ps' st st' h
    cases h
    exact .nil
  | cons p ps ih =>
    intro ps' st st' h
    rcases processPurchases_cons h with ⟨-, qs, hrest, rfl⟩ | ⟨-, p', st₁, hone, hend⟩
    · exact .cons ⟨Iff.rfl, rfl⟩ (ih hrest)
    · rcases hend with ⟨-, rfl, -⟩ | ⟨-, qs, hrest, rfl⟩
      · exact .cons (processPurchase_readAlike hone) (readAlike_refl ps)
      · exact .cons (processPurchase_readAlike hone) (ih hrest)

/-! ## One sale -/

/-- A sale of `sold` gets to its end: each purchase that it comes to can be read, and the one it
    takes in part has a code. -/
def Serves (P : Platform) (fb : Book) (sold : ℚ) (ps : List Transaction) : Prop :=
  ∀ (j : ℕ) (hj : j < ps.length), (Fifo.Reached sold (ps.map lot) j → Legible P fb ps[j]) ∧
    (Fifo.EndsInside sold (ps.map lot) j → ps[j].purchaseCode ≠ none)

theorem serves_of_nonpos {sold : ℚ} {ps : List Transaction} (hsold : sold ≤ 0)
    (hps : ∀ p ∈ ps, Stocked p) : Serves P fb sold ps := by
  intro j _
  have hnone := Fifo.not_reached_of_nonpos hsold (lots_nonneg hps) j
  exact ⟨fun h => absurd h hnone, fun h => absurd h.reached hnone⟩

theorem serves_cons {sold : ℚ} {p : Transaction} {ps : List Transaction} (hsold : 0 < sold) :
    Serves P fb sold (p :: ps) ↔
      ((0 < lot p → Legible P fb p) ∧ (sold < lot p → p.purchaseCode ≠ none)) ∧
        Serves P fb (sold - lot p) ps := by
  unfold Serves
  rw [List.map_cons]
  constructor
  · intro h
    have hfirst := h 0 (Nat.succ_pos _)
    rw [Fifo.reached_cons_zero, Fifo.endsInside_cons_zero, and_iff_right hsold,
      and_iff_right hsold] at hfirst
    refine ⟨hfirst, fun j hj => ?_⟩
    have hnext := h (j + 1) (Nat.succ_lt_succ hj)
    rwa [Fifo.reached_cons_succ, Fifo.endsInside_cons_succ] at hnext
  · rintro ⟨hfirst, hrest⟩ j hj
    cases j with
    | zero =>
      rw [Fifo.reached_cons_zero, Fifo.endsInside_cons_zero, and_iff_right hsold,
        and_iff_right hsold]
      exact hfirst
    | succ j =>
      rw [Fifo.reached_cons_succ, Fifo.endsInside_cons_succ]
      exact hrest j (Nat.lt_of_succ_lt_succ hj)

theorem processPurchases_returns_iff {sale : Transaction} :
    ∀ {ps : List Transaction} {st : SaleLoop}, 0 < st.soldQuantity → (∀ p ∈ ps, Stocked p) →
      ((∃ r, processPurchases P env fb sale ps st = .ok r) ↔ Serves P fb st.soldQuantity ps) := by
  intro ps
  induction ps with
  | nil =>
    intro st _ _
    exact iff_of_true ⟨_, rfl⟩ fun j hj => absurd hj (Nat.not_lt_zero j)
  | cons p ps ih =>
    intro st hsold hps
    have hrestocked : ∀ q ∈ ps, Stocked q := fun q hq => hps q (List.mem_cons_of_mem _ hq)
    rw [serves_cons hsold, processPurchases]
    cases hchecked : p.checked with
    | true =>
      rw [lot_of_checked hchecked, sub_zero, ← ih hsold hrestocked, if_pos rfl]
      constructor
      · rintro ⟨r, h⟩
        obtain ⟨r', hrest, -⟩ := bind_eq_ok.1 h
        exact ⟨⟨fun h => absurd h (lt_irrefl 0), fun h => absurd h hsold.not_gt⟩, r', hrest⟩
      · rintro ⟨-, r, hrest⟩
        exact ⟨_, bind_eq_ok.2 ⟨r, hrest, rfl⟩⟩
    | false =>
      have hamount : 0 < p.amount := hps p List.mem_cons_self hchecked
      rw [lot_of_unchecked hchecked, if_neg Bool.false_ne_true]
      have hfirst : (∃ r, processPurchase P env fb sale p st = .ok r) ↔
          Legible P fb p ∧ (st.soldQuantity < p.amount → p.purchaseCode ≠ none) :=
        processPurchase_returns_iff hamount.ne'
      constructor
      · rintro ⟨r, h⟩
        obtain ⟨⟨p', st₁⟩, hone, h⟩ := bind_eq_ok.1 h
        obtain ⟨hread, hcode⟩ := hfirst.1 ⟨_, hone⟩
        refine ⟨⟨fun _ => hread, hcode⟩, ?_⟩
        obtain ⟨-, -, hleft⟩ := processPurchase_lot hone hchecked
        rcases le_or_gt st.soldQuantity p.amount with hle | hlt
        · exact serves_of_nonpos (sub_nonpos.2 hle) hrestocked
        · rw [min_eq_right hlt.le] at hleft
          have hsold₁ : 0 < st₁.soldQuantity := hleft ▸ sub_pos.2 hlt
          simp only [if_neg hsold₁.ne'] at h
          obtain ⟨r', hrest, -⟩ := bind_eq_ok.1 h
          exact hleft ▸ (ih hsold₁ hrestocked).1 ⟨r', hrest⟩
      · rintro ⟨⟨hread, hcode⟩, hrest⟩
        obtain ⟨⟨p', st₁⟩, hone⟩ := hfirst.2 ⟨hread hamount, hcode⟩
        obtain ⟨-, -, hleft⟩ := processPurchase_lot hone hchecked
        by_cases hdone : st₁.soldQuantity = 0
        · exact ⟨(p' :: ps, st₁), bind_eq_ok.2 ⟨(p', st₁), hone, if_pos hdone⟩⟩
        · have hlt : p.amount < st.soldQuantity := by
            by_contra hle
            rw [min_eq_left (not_lt.1 hle), sub_self] at hleft
            exact hdone hleft
          rw [min_eq_right hlt.le] at hleft
          have hsold₁ : 0 < st₁.soldQuantity := hleft ▸ sub_pos.2 hlt
          obtain ⟨r, hr⟩ := (ih hsold₁ hrestocked).2 (hleft ▸ hrest)
          refine ⟨(p' :: r.1, r.2), bind_eq_ok.2 ⟨(p', st₁), hone, ?_⟩⟩
          simp only [if_neg hdone]
          exact bind_eq_ok.2 ⟨r, hr, rfl⟩

variable (env ib) in
/-- Whether a sale is processed to the end is decided by the loop over the purchases. -/
theorem processSale_returns_iff (processor : CalculateCostOfSalesProcessor) {sale : Transaction}
    {ps : List Transaction} (hsale : 0 < sale.amount)
    (hps : ∀ p ∈ ps, Stocked p) :
    (∃ r, processSale P env fb ib sale ps processor = .ok r) ↔ Serves P fb sale.amount ps := by
  have hloop : (∃ r, processPurchases P env fb sale ps
      { soldQuantity := sale.amount, processor := processor } = .ok r) ↔
        Serves P fb sale.amount ps := processPurchases_returns_iff hsale hps
  rw [← hloop]
  constructor
  · rintro ⟨⟨qs, processor'⟩, h⟩
    obtain ⟨st, hloop, -⟩ := processSale_cases h
    exact ⟨_, hloop⟩
  · rintro ⟨⟨qs, st⟩, hloop⟩
    unfold processSale
    rw [hloop]
    simp only [bind, Except.bind]
    split <;> exact ⟨_, rfl⟩

/-! ## All sales -/

/-- The sales get to the end: each purchase that they come to can be read, and each that one of
    them takes in part has a code. -/
structure Served (P : Platform) (fb : Book) (sales ps : List Transaction) : Prop where
  legible : ∀ (j : ℕ) (hj : j < ps.length),
    Fifo.Reached (sales.map Transaction.amount).sum (ps.map lot) j → Legible P fb ps[j]
  coded : ∀ (j : ℕ) (hj : j < ps.length), ∀ i < sales.length,
    Fifo.EndsInside (Fifo.cum (sales.map Transaction.amount) (i + 1)) (ps.map lot) j →
      ps[j].purchaseCode ≠ none

/-- Purchases that carry everything serve any sales. -/
theorem served_of_forall {sales ps : List Transaction}
    (h : ∀ p ∈ ps, Legible P fb p ∧ p.purchaseCode ≠ none) : Served P fb sales ps :=
  ⟨fun _ hj _ => (h _ (List.getElem_mem hj)).1, fun _ hj _ _ _ => (h _ (List.getElem_mem hj)).2⟩

theorem served_nil {ps : List Transaction} (hps : ∀ p ∈ ps, Stocked p) : Served P fb [] ps :=
  ⟨fun j _ h => absurd h (Fifo.not_reached_of_nonpos le_rfl (lots_nonneg hps) j),
    fun _ _ i hi => absurd hi (Nat.not_lt_zero i)⟩

/-- The first sale gets to its end if they all do. -/
theorem Served.serves {sale : Transaction} {sales ps : List Transaction}
    (h : Served P fb (sale :: sales) ps) (hsales : ∀ t ∈ sales, 0 < t.amount) :
    Serves P fb sale.amount ps := by
  refine fun j hj => ⟨fun hr => h.legible j hj ?_, fun he => ?_⟩
  · rw [List.map_cons, List.sum_cons]
    refine ⟨hr.1.trans_le (le_add_of_nonneg_right (List.sum_nonneg fun q hq => ?_)), hr.2⟩
    obtain ⟨t, ht, rfl⟩ := List.mem_map.1 hq
    exact (hsales t ht).le
  · exact h.coded j hj 0 (Nat.succ_pos _) (by simpa using he)

/-- The later sales find what the first one has left. -/
theorem served_cons {sale : Transaction} {sales ps qs : List Transaction} (hsale : 0 < sale.amount)
    (hsales : ∀ t ∈ sales, 0 < t.amount) (hps : ∀ p ∈ ps, Stocked p)
    (hleft : qs.map lot = Fifo.residual sale.amount (ps.map lot))
    (halike : List.Forall₂ (ReadAlike P fb) ps qs) :
    Served P fb (sale :: sales) ps ↔ Serves P fb sale.amount ps ∧ Served P fb sales qs := by
  obtain ⟨hlength, halike⟩ := List.forall₂_iff_get.1 halike
  have halike : ∀ (j : ℕ) (hj : j < ps.length) (hj' : j < qs.length),
      ReadAlike P fb ps[j] qs[j] := halike
  have hlots := lots_nonneg hps
  have hamounts : ∀ q ∈ sales.map Transaction.amount, 0 < q := by
    intro q hq
    obtain ⟨t, ht, rfl⟩ := List.mem_map.1 hq
    exact hsales t ht
  have hsum : 0 ≤ (sales.map Transaction.amount).sum :=
    List.sum_nonneg fun q hq => (hamounts q hq).le
  have hcum : ∀ i < sales.length, 0 < Fifo.cum (sales.map Transaction.amount) (i + 1) :=
    fun i hi => Fifo.cum_succ_pos hamounts (by simpa using hi)
  have hreached : ∀ j, Fifo.Reached ((sale :: sales).map Transaction.amount).sum (ps.map lot) j ↔
      Fifo.Reached sale.amount (ps.map lot) j ∨
        Fifo.Reached (sales.map Transaction.amount).sum (qs.map lot) j := by
    intro j
    rw [List.map_cons, List.sum_cons, Fifo.reached_add hsale.le hlots hsum, hleft]
  have hends : ∀ i < sales.length, ∀ j,
      Fifo.EndsInside (Fifo.cum ((sale :: sales).map Transaction.amount) (i + 2)) (ps.map lot) j ↔
        Fifo.EndsInside (Fifo.cum (sales.map Transaction.amount) (i + 1)) (qs.map lot) j := by
    intro i hi j
    rw [List.map_cons, Fifo.cum_cons_succ, Fifo.endsInside_add hsale.le hlots (hcum i hi), hleft]
  have hfirst : Fifo.cum ((sale :: sales).map Transaction.amount) 1 = sale.amount := by simp
  constructor
  · intro h
    refine ⟨h.serves hsales, fun j hj hr => ?_, fun j hj i hi he => ?_⟩
    · exact (halike j (hlength ▸ hj) hj).1.2
        (h.legible j (hlength ▸ hj) ((hreached j).2 (Or.inr hr)))
    · rw [(halike j (hlength ▸ hj) hj).2]
      exact h.coded j (hlength ▸ hj) (i + 1) (Nat.succ_lt_succ hi) ((hends i hi j).2 he)
  · rintro ⟨hone, hrest⟩
    refine ⟨fun j hj hr => ?_, fun j hj i hi he => ?_⟩
    · rcases (hreached j).1 hr with hr | hr
      · exact (hone j hj).1 hr
      · exact (halike j hj (hlength ▸ hj)).1.1 (hrest.legible j (hlength ▸ hj) hr)
    · cases i with
      | zero => exact (hone j hj).2 (by rwa [hfirst] at he)
      | succ i =>
        have hi : i < sales.length := Nat.lt_of_succ_lt_succ hi
        have hcode := hrest.coded j (hlength ▸ hj) i hi ((hends i hi j).1 he)
        rwa [← (halike j hj (hlength ▸ hj)).2]

/-- One sale after the other: the later ones get to the end exactly if they do together with the
    first. -/
theorem processSale_served {sale : Transaction} {sales ps qs : List Transaction}
    {processor processor' : CalculateCostOfSalesProcessor}
    (h : processSale P env fb ib sale ps processor = .ok (qs, processor'))
    (hsale : 0 < sale.amount) (hsales : ∀ t ∈ sales, 0 < t.amount) (hps : ∀ p ∈ ps, Stocked p) :
    (∀ p ∈ qs, Stocked p) ∧ (Served P fb (sale :: sales) ps ↔ Served P fb sales qs) := by
  obtain ⟨st, hloop, -⟩ := processSale_cases h
  obtain ⟨hlots, hstocked, -⟩ := processPurchases_lots hloop hsale hps
  refine ⟨hstocked, ?_⟩
  rw [served_cons hsale hsales hps hlots (processPurchases_readAlike hloop)]
  exact and_iff_right ((processSale_returns_iff env ib _ hsale hps).1 ⟨_, h⟩)

/-- The loop over the sales, where it meets no locked transaction, gets to the end exactly if the
    purchases serve the sales. -/
theorem processSales_returns_iff :
    ∀ {sales ps : List Transaction} {processor : CalculateCostOfSalesProcessor},
      (∀ t ∈ sales, 0 < t.amount) → (∀ p ∈ ps, Stocked p) →
      processSales P env fb ib sales ps processor ≠ .ok none →
      ((∃ r, processSales P env fb ib sales ps processor = .ok (some r)) ↔
        Served P fb sales ps) := by
  intro sales
  induction sales with
  | nil => exact fun _ hps _ => iff_of_true ⟨_, rfl⟩ (served_nil hps)
  | cons sale sales ih =>
    intro ps processor hsales hps hunlocked
    have hsale : 0 < sale.amount := hsales sale List.mem_cons_self
    have hrest : ∀ t ∈ sales, 0 < t.amount := fun t ht => hsales t (List.mem_cons_of_mem _ ht)
    cases hone : processSale P env fb ib sale ps processor with
    | error e =>
      refine iff_of_false ?_ fun hserved => ?_
      · rintro ⟨r, h⟩
        obtain ⟨qs, processor₁, hok, -⟩ := processSales_cons.1 h
        rw [hone] at hok
        cases hok
      · obtain ⟨r, hr⟩ := (processSale_returns_iff env ib processor hsale hps).2
          (hserved.serves hrest)
        rw [hone] at hr
        cases hr
    | ok result =>
      obtain ⟨qs, processor₁⟩ := result
      obtain ⟨hstocked, hserved⟩ := processSale_served hone hsale hrest hps
      have hnext : processSales P env fb ib (sale :: sales) ps processor =
          if processor₁.hasLockedTransaction then pure none
          else processSales P env fb ib sales qs processor₁ := by
        rw [processSales, hone]
        rfl
      rw [hnext] at hunlocked ⊢
      split at hunlocked
      · exact absurd rfl hunlocked
      · rename_i hopen
        rw [if_neg hopen, hserved]
        exact ih hrest hstocked hunlocked

end Returns

end InventoryBot.Menu
