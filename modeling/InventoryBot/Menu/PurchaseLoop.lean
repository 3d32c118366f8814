import InventoryBot.Menu.Desk
import InventoryBot.Lib.Fifo

/-!
# The loop over the purchases of a sale

* `processPurchase_cases`: everything the body of the loop can do.
* `processPurchases_lots`: what the loop does to the quantities. It takes the sale from the
  open purchases first in, first out, whatever the arithmetic of the platform.
* `processPurchases_frame`, `processPurchases_posted`: it queues updates of the purchases only.
-/

namespace InventoryBot.Menu

open Lib CostOfSalesService

/-! ## One purchase -/

/-- Everything the body of the loop over the purchases can do. -/
theorem processPurchase_cases {P : Platform} {env : RunEnv} {fb : Book} {sale p p' : Transaction}
    {st st' : SaleLoop} (h : processPurchase P env fb sale p st = .ok (p', st')) :
    ∃ quantity cost amounts, RecordedQuantity P p quantity ∧ Valued P fb p amounts cost ∧
      p.amount ≠ 0 ∧
      ((p.amount ≤ st.soldQuantity ∧ p' = taken P sale p quantity cost amounts ∧
          st' = ⟨st.soldQuantity - p.amount, st.saleCost + cost,
            st.purchaseLogEntries ++ [getPurchaseLog p.amount (P.div cost p.amount) p],
            st.processor.setInventoryBookTransactionToUpdate p'⟩) ∨
        (st.soldQuantity < p.amount ∧ ∃ code, p.purchaseCode = some code ∧
          p' = reduced P p st.soldQuantity quantity cost amounts ∧
          st' = ⟨0, st.saleCost + st.soldQuantity * P.div cost p.amount,
            st.purchaseLogEntries ++ [getPurchaseLog st.soldQuantity (P.div cost p.amount) p],
            ((st.processor.setInventoryBookTransactionToUpdate p').generateId env).2
              |>.setInventoryBookTransactionToCreate (splitOff P sale p st.soldQuantity cost code
                (env.uuid st.processor.generatedIds))⟩)) := by
  unfold processPurchase at h
  obtain ⟨originalQuantity, ho, h⟩ := bind_eq_ok.1 h
  obtain ⟨transactionCost, ht, h⟩ := bind_eq_ok.1 h
  obtain ⟨amounts, ha, h⟩ := bind_eq_ok.1 h
  obtain ⟨uc, hu, h⟩ := bind_eq_ok.1 h
  have hne : p.amount ≠ 0 := by
    intro h0
    simp [Platform.amountDiv, h0] at hu
  obtain rfl := P.amountDiv_eq_ok hu
  refine ⟨_, _, amounts, ⟨originalQuantity, ho, rfl⟩, ⟨ha, transactionCost, ht, rfl⟩, hne, ?_⟩
  split at h
  · rename_i hle
    cases h
    exact Or.inl ⟨hle, rfl, rfl⟩
  · rename_i hlt
    simp only [sub_sub_cancel, sub_self] at h
    split at h
    · cases h
    · rename_i code hcode
      cases h
      exact Or.inr ⟨not_le.1 hlt, code, hcode, rfl, rfl⟩

/-- What the loop over the purchases does with the first of them: a checked one is passed over,
    and the loop ends with the purchase that serves the sale. -/
theorem processPurchases_cons {P : Platform} {env : RunEnv} {fb : Book} {sale p : Transaction}
    {ps ps' : List Transaction} {st st' : SaleLoop}
    (h : processPurchases P env fb sale (p :: ps) st = .ok (ps', st')) :
    (p.checked = true ∧ ∃ qs, processPurchases P env fb sale ps st = .ok (qs, st') ∧
        ps' = p :: qs) ∨
      (p.checked = false ∧ ∃ p' st₁, processPurchase P env fb sale p st = .ok (p', st₁) ∧
        ((st₁.soldQuantity = 0 ∧ ps' = p' :: ps ∧ st' = st₁) ∨
          (st₁.soldQuantity ≠ 0 ∧ ∃ qs, processPurchases P env fb sale ps st₁ = .ok (qs, st') ∧
            ps' = p' :: qs))) := by
  rw [processPurchases] at h
  split at h
  · rename_i hchecked
    obtain ⟨⟨qs, st₁⟩, hrest, h⟩ := bind_eq_ok.1 h
    cases h
    exact Or.inl ⟨hchecked, qs, hrest, rfl⟩
  · rename_i hopen
    obtain ⟨⟨p', st₁⟩, hone, h⟩ := bind_eq_ok.1 h
    refine Or.inr ⟨Bool.eq_false_iff.2 hopen, p', st₁, hone, ?_⟩
    simp only at h
    split at h
    · rename_i hdone
      cases h
      exact Or.inl ⟨hdone, rfl, rfl⟩
    · rename_i hleft
      obtain ⟨⟨qs, st₂⟩, hrest, h⟩ := bind_eq_ok.1 h
      cases h
      exact Or.inr ⟨hleft, qs, hrest, rfl⟩

@[simp] theorem taken_id (P : Platform) (sale p : Transaction) (quantity cost : ℚ)
    (amounts : LinkedAmounts) : (taken P sale p quantity cost amounts).id = p.id := rfl

@[simp] theorem reduced_id (P : Platform) (p : Transaction) (sold quantity cost : ℚ)
    (amounts : LinkedAmounts) : (reduced P p sold quantity cost amounts).id = p.id := rfl

@[simp] theorem taken_checked (P : Platform) (sale p : Transaction) (quantity cost : ℚ)
    (amounts : LinkedAmounts) : (taken P sale p quantity cost amounts).checked = true := rfl

theorem isPurchase_taken (P : Platform) (sale p : Transaction) (quantity cost : ℚ)
    (amounts : LinkedAmounts) :
    BotService.isPurchase (taken P sale p quantity cost amounts) = BotService.isPurchase p := rfl

/-! ## Quantities -/

/-- What a purchase still has to offer. -/
def lot (p : Transaction) : ℚ := if p.checked then 0 else p.amount

/-- An unchecked purchase has something to offer. -/
def Stocked (p : Transaction) : Prop := p.checked = false → 0 < p.amount

theorem lot_of_checked {p : Transaction} (h : p.checked = true) : lot p = 0 := if_pos h

theorem lot_of_unchecked {p : Transaction} (h : p.checked = false) : lot p = p.amount := by
  simp [lot, h]

theorem Stocked.lot_nonneg {p : Transaction} (h : Stocked p) : 0 ≤ lot p := by
  cases hc : p.checked with
  | true => exact (lot_of_checked hc).ge
  | false =>
    rw [lot_of_unchecked hc]
    exact (h hc).le

theorem lots_nonneg {ps : List Transaction} (h : ∀ p ∈ ps, Stocked p) :
    ∀ q ∈ ps.map lot, 0 ≤ q := by
  intro q hq
  obtain ⟨p, hp, rfl⟩ := List.mem_map.1 hq
  exact (h p hp).lot_nonneg

section Quantities

variable {P : Platform} {env : RunEnv} {fb : Book} {sale : Transaction}

/-- One purchase gives the smaller of the open demand and what it holds. -/
theorem processPurchase_lot {p p' : Transaction} {st st' : SaleLoop}
    (h : processPurchase P env fb sale p st = .ok (p', st')) (hunchecked : p.checked = false) :
    lot p' = p.amount - min st.soldQuantity p.amount ∧ Stocked p' ∧
      st'.soldQuantity = st.soldQuantity - min st.soldQuantity p.amount := by
  obtain ⟨quantity, cost, amounts, -, -, -, hcase⟩ := processPurchase_cases h
  rcases hcase with ⟨hle, rfl, rfl⟩ | ⟨hlt, code, -, rfl, rfl⟩
  · rw [min_eq_right hle, sub_self]
    exact ⟨lot_of_checked rfl, fun hc => absurd hc (by simp [taken_checked]), rfl⟩
  · have hc : (reduced P p st.soldQuantity quantity cost amounts).checked = false := hunchecked
    rw [min_eq_left hlt.le, sub_self]
    exact ⟨lot_of_unchecked hc, fun _ => sub_pos.2 hlt, rfl⟩

/-- The loop takes the open demand from the purchases first in, first out. -/
theorem processPurchases_lots :
    ∀ {ps ps' : List Transaction} {st st' : SaleLoop},
      processPurchases P env fb sale ps st = .ok (ps', st') → 0 < st.soldQuantity →
      (∀ p ∈ ps, Stocked p) →
      ps'.map lot = Fifo.residual st.soldQuantity (ps.map lot) ∧ (∀ p ∈ ps', Stocked p) ∧
        st'.soldQuantity = st.soldQuantity - min st.soldQuantity (ps.map lot).sum := by
  intro ps
  induction ps with
  | nil =>
    intro ps' st st' h hsold _
    cases h
    exact ⟨rfl, by simp, by simp [hsold.le]⟩
  | cons p ps ih =>
    intro ps' st st' h hsold hps
    have hp : Stocked p := hps p List.mem_cons_self
    have hrestocked : ∀ q ∈ ps, Stocked q := fun q hq => hps q (List.mem_cons_of_mem _ hq)
    have hnonneg : 0 ≤ (ps.map lot).sum := List.sum_nonneg (lots_nonneg hrestocked)
    rcases processPurchases_cons h with ⟨hchecked, qs, hrest, rfl⟩ |
      ⟨hunchecked, p', st₁, hone, hend⟩
    · obtain ⟨hlots, hstocked, hleft⟩ := ih hrest hsold hrestocked
      have hlot : lot p = 0 := lot_of_checked hchecked
      refine ⟨?_, ?_, ?_⟩
      · simp only [List.map_cons, Fifo.residual, hlot, hlots, min_eq_right hsold.le, sub_zero]
      · intro q hq
        rcases List.mem_cons.1 hq with rfl | hq
        · exact hp
        · exact hstocked q hq
      · rw [List.map_cons, List.sum_cons, hlot, zero_add, hleft]
    · obtain ⟨hlot', hp', hst₁⟩ := processPurchase_lot hone hunchecked
      have hlot : lot p = p.amount := lot_of_unchecked hunchecked
      rcases hend with ⟨hdone, rfl, rfl⟩ | ⟨hleft, qs, hrest, rfl⟩
      · -- the sale is served, and the later purchases keep what they have
        have hle : min st.soldQuantity p.amount = st.soldQuantity := by linarith
        have hamount : st.soldQuantity ≤ p.amount := min_eq_left_iff.1 hle
        refine ⟨?_, ?_, ?_⟩
        · simp only [List.map_cons, Fifo.residual, hlot, hlot', hle, sub_self,
            Fifo.residual_zero (lots_nonneg hrestocked)]
        · intro q hq
          rcases List.mem_cons.1 hq with rfl | hq
          · exact hp'
          · exact hrestocked q hq
        · rw [hdone, List.map_cons, List.sum_cons, hlot, min_eq_left (by linarith), sub_self]
      · have hge : p.amount ≤ st.soldQuantity := by
          by_contra hlt
          rw [min_eq_left (not_le.1 hlt).le, sub_self] at hst₁
          exact hleft hst₁
        have hmin : min st.soldQuantity p.amount = p.amount := min_eq_right hge
        rw [hmin] at hlot' hst₁
        have hsold₁ : 0 < st₁.soldQuantity := by
          rw [hst₁] at hleft ⊢
          exact lt_of_le_of_ne (sub_nonneg.2 hge) (Ne.symm hleft)
        obtain ⟨hlots, hstocked, hleft'⟩ := ih hrest hsold₁ hrestocked
        refine ⟨?_, ?_, ?_⟩
        · simp only [List.map_cons, Fifo.residual, hlot, hlot', hlots, hmin, hst₁]
        · intro q hq
          rcases List.mem_cons.1 hq with rfl | hq
          · exact hp'
          · exact hstocked q hq
        · rw [hleft', hst₁, List.map_cons, List.sum_cons, hlot, sub_sub, ← min_add_add_left,
            add_sub_cancel]

end Quantities

/-! ## What the loop queues -/

section Queues

variable {P : Platform} {env : RunEnv} {fb : Book}

/-- One purchase queues an update of itself only. -/
theorem processPurchase_frame {sale p p' : Transaction} {st st' : SaleLoop}
    (h : processPurchase P env fb sale p st = .ok (p', st')) {k : String} (hk : k ≠ p.id) :
    st'.processor.inventoryBookTransactionsToUpdateMap.get k =
      st.processor.inventoryBookTransactionsToUpdateMap.get k := by
  obtain ⟨quantity, cost, amounts, -, -, -, hcase⟩ := processPurchase_cases h
  rcases hcase with ⟨-, rfl, rfl⟩ | ⟨-, code, -, rfl, rfl⟩
  · exact OrderedMap.get_set_of_ne _ _ hk
  · exact OrderedMap.get_set_of_ne _ _ hk

/-- One purchase posts nothing. -/
theorem processPurchase_posted {sale p p' : Transaction} {st st' : SaleLoop}
    (h : processPurchase P env fb sale p st = .ok (p', st')) :
    st'.processor.financialBookTransactionsToCreateMap =
      st.processor.financialBookTransactionsToCreateMap := by
  obtain ⟨quantity, cost, amounts, -, -, -, hcase⟩ := processPurchase_cases h
  rcases hcase with ⟨-, rfl, rfl⟩ | ⟨-, code, -, rfl, rfl⟩
  · rfl
  · rfl

theorem processPurchase_id {sale p p' : Transaction} {st st' : SaleLoop}
    (h : processPurchase P env fb sale p st = .ok (p', st')) : p'.id = p.id := by
  obtain ⟨quantity, cost, amounts, -, -, -, hcase⟩ := processPurchase_cases h
  rcases hcase with ⟨-, rfl, -⟩ | ⟨-, code, -, rfl, -⟩ <;> rfl

/-- The loop over the purchases queues updates of the purchases only. -/
theorem processPurchases_frame {sale : Transaction} {k : String} :
    ∀ {ps ps' : List Transaction} {st st' : SaleLoop},
      processPurchases P env fb sale ps st = .ok (ps', st') → k ∉ ps.map Transaction.id →
      st'.processor.inventoryBookTransactionsToUpdateMap.get k =
        st.processor.inventoryBookTransactionsToUpdateMap.get k := by
  intro ps
  induction ps with
  | nil =>
    intro ps' st st' h _
    cases h
    rfl
  | cons p ps ih =>
    intro ps' st st' h hk
    rw [List.map_cons, List.mem_cons, not_or] at hk
    rcases processPurchases_cons h with ⟨-, qs, hrest, rfl⟩ | ⟨-, p', st₁, hone, hend⟩
    · exact ih hrest hk.2
    · have hupdate := processPurchase_frame hone hk.1
      rcases hend with ⟨-, rfl, rfl⟩ | ⟨-, qs, hrest, rfl⟩
      · exact hupdate
      · exact (ih hrest hk.2).trans hupdate

/-- The loop over the purchases posts nothing. -/
theorem processPurchases_posted {sale : Transaction} :
    ∀ {ps ps' : List Transaction} {st st' : SaleLoop},
      processPurchases P env fb sale ps st = .ok (ps', st') →
      st'.processor.financialBookTransactionsToCreateMap =
        st.processor.financialBookTransactionsToCreateMap := by
  intro ps
  induction ps with
  | nil =>
    intro ps' st st' h
    cases h
    rfl
  | cons p ps ih =>
    intro ps' st st' h
    rcases processPurchases_cons h with ⟨-, qs, hrest, rfl⟩ | ⟨-, p', st₁, hone, hend⟩
    · exact ih hrest
    · have hposted := processPurchase_posted hone
      rcases hend with ⟨-, rfl, rfl⟩ | ⟨-, qs, hrest, rfl⟩
      · exact hposted
      · exact (ih hrest).trans hposted

/-- The loop over the purchases keeps their ids. -/
theorem processPurchases_ids {sale : Transaction} :
    ∀ {ps ps' : List Transaction} {st st' : SaleLoop},
      processPurchases P env fb sale ps st = .ok (ps', st') →
      ps'.map Transaction.id = ps.map Transaction.id := by
  intro ps
  induction ps with
  | nil =>
    intro ps' st st' h
    cases h
    rfl
  | cons p ps ih =>
    intro ps' st st' h
    rcases processPurchases_cons h with ⟨-, qs, hrest, rfl⟩ | ⟨-, p', st₁, hone, hend⟩
    · rw [List.map_cons, List.map_cons, ih hrest]
    · have hid := processPurchase_id hone
      rcases hend with ⟨-, rfl, rfl⟩ | ⟨-, qs, hrest, rfl⟩
      · rw [List.map_cons, List.map_cons, hid]
      · rw [List.map_cons, List.map_cons, hid, ih hrest]

end Queues

end InventoryBot.Menu
