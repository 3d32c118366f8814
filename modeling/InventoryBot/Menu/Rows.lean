import InventoryBot.Menu.Runs

/-!
# What the menu keeps of a row

* `SameCopy`: no calculation and no reset changes the identity of a transaction or its remote ids.
* `liquidationLog_of_trace`, `purchaseLog_of_trace`: logs are written on purchases and on sales.
* `CalculationFires.other_rows`: a calculation leaves the transactions of other accounts alone.
-/

namespace InventoryBot.Menu

open Lib CostOfSalesService

/-- What no calculation and no reset changes about a copy. -/
structure SameCopy (c r : Transaction) : Prop where
  identity : SameIdentity c r
  remoteIds : r.remoteIds = c.remoteIds

theorem SameCopy.refl (c : Transaction) : SameCopy c c := ⟨.refl c, rfl⟩

theorem SameCopy.trans {c r r' : Transaction} (h : SameCopy c r) (h' : SameCopy r r') :
    SameCopy c r' :=
  ⟨h.identity.trans h'.identity, h'.remoteIds.trans h.remoteIds⟩

theorem Written.sameCopy {P : Platform} {p t : Transaction} (h : Written P p t) : SameCopy p t := by
  refine ⟨h.sameIdentity, ?_⟩
  cases h with
  | settled =>
    unfold settleSale
    split <;> rfl
  | _ => rfl

theorem sameCopy_of_trace {P : Platform} {t t' : Transaction}
    (h : Relation.ReflTransGen (Written P) t t') : SameCopy t t' := by
  induction h with
  | refl => exact .refl t
  | tail _ hw ih => exact ih.trans (Written.sameCopy hw)

theorem resetRow_sameCopy (P : Platform) (account : String) (t : Transaction) :
    SameCopy t (resetRow P account t) := by
  refine ⟨resetRow_sameIdentity P account t, ?_⟩
  rcases resetRow_cases P account t with h | ⟨-, h⟩
  · rw [h]
  · rcases resetUpdate_cases h with ⟨-, he⟩ | ⟨-, _, _, -, -, he⟩ | ⟨-, -, -, he⟩ <;> rw [he]

/-- A log is written on a purchase only. -/
theorem liquidationLog_of_trace {P : Platform} {t t' : Transaction}
    (h : Relation.ReflTransGen (Written P) t t') :
    t'.liquidationLog = t.liquidationLog ∨ BotService.isPurchase t = true := by
  induction h with
  | refl => exact Or.inl rfl
  | @tail u v htrace hw ih =>
    rcases ih with ih | ih
    swap
    · exact Or.inr ih
    have hsame := (sameCopy_of_trace htrace).identity
    cases hw with
    | credited => exact Or.inl ih
    | applied => exact Or.inl ih
    | taken hp => exact Or.inr (hsame.isPurchase ▸ hp)
    | reduced => exact Or.inl ih
    | settled =>
      refine Or.inl (Eq.trans ?_ ih)
      unfold settleSale
      split <;> rfl

/-- A purchase log is written on a sale only. -/
theorem purchaseLog_of_trace {P : Platform} {t t' : Transaction}
    (h : Relation.ReflTransGen (Written P) t t') :
    t'.purchaseLog = t.purchaseLog ∨ BotService.isSale t = true := by
  induction h with
  | refl => exact Or.inl rfl
  | @tail u v htrace hw ih =>
    rcases ih with ih | ih
    swap
    · exact Or.inr ih
    have hsame := (sameCopy_of_trace htrace).identity
    cases hw with
    | settled hsale => exact Or.inr (hsame.isSale ▸ hsale)
    | _ => exact Or.inl ih

/-- The account that a sale credits is neither of its counterparts. -/
def SoldFromGood (t : Transaction) : Prop :=
  BotService.isSale t → ∀ r, t.creditAccount = some r →
    r.type ≠ .incoming ∧ r.type ≠ .outgoing

/-- A sale that moves a good account credits it. -/
theorem soldFromGood_of_moves {t : Transaction} {a : Account}
    (hrefs : ∀ r ∈ t.refs, r.name = a.name → r.type = a.type) (hin : a.type ≠ .incoming)
    (hout : a.type ≠ .outgoing) (hmoves : t.moves a.name) : SoldFromGood t := by
  intro hs r hr
  obtain ⟨-, q, hq, hqt⟩ := isSale_iff.1 hs
  simp only [Transaction.moves, Bool.or_eq_true, Option.any_eq_true, beq_iff_eq] at hmoves
  rcases hmoves with ⟨x, hx, hname⟩ | ⟨x, hx, hname⟩
  · have hxt := hrefs x (Transaction.mem_refs.2 (Or.inl hx)) hname
    obtain rfl : r = x := Option.some.inj (hr.symm.trans hx)
    rw [hxt]
    exact ⟨hin, hout⟩
  · have hxt := hrefs x (Transaction.mem_refs.2 (Or.inr hx)) hname
    obtain rfl : q = x := Option.some.inj (hq.symm.trans hx)
    exact absurd (hxt.symm.trans hqt) hout

/-! ## One calculation -/

section Calculation

variable {P : Platform} {env : RunEnv} {s s' : State} {goodAccountId : String} {toDate : Date}
  {closes : ℚ → Prop} {goodAccount : Account} {d : Desk}

/-- What rewriting keeps can be read off before a calculation. -/
theorem Moves.map_stored {β : Type} {g : Transaction → β} {fb : Book} {digits : ℕ}
    {account : String} {before : Date} {d d' : Desk} (hids : (d.stored.map Transaction.id).Nodup)
    (hg : ∀ p t, p.moves account → Written P p t → g t = g p)
    (h : Moves P env fb digits account before closes d d') : d'.stored.map g = d.stored.map g := by
  induction h with
  | refl => rfl
  | tail hmoves hmove ih =>
    refine (hmove.map_stored ?_ fun p _ hp t hw => hg p t hp hw).trans ih
    rw [Moves.ids hmoves]
    exact hids

/-- What a calculation splits off moves its account. -/
theorem Moves.created_moves {fb : Book} {digits : ℕ} {account : String} {before : Date}
    {d d' : Desk} (h : Moves P env fb digits account before closes d d')
    (hd : ∀ u ∈ d.created, u.moves account = true) : ∀ u ∈ d'.created, u.moves account = true := by
  refine h.preserves (I := fun e => ∀ u ∈ e.created, u.moves account = true) ?_ hd
  intro e e' hmove he u hu
  cases hmove with
  | creditNote hp =>
    rcases List.mem_append.1 hu with hu | hu
    · exact he u hu
    · rw [List.mem_singleton.1 hu]
      exact hp.moves
  | openSale => exact he u hu
  | take => exact he u hu
  | split _ hp =>
    rcases List.mem_append.1 hu with hu | hu
    · exact he u hu
    · rw [List.mem_singleton.1 hu]
      exact hp.moves
  | closeSale => exact he u hu

/-- A calculation leaves the transactions of other accounts alone. -/
theorem CalculationFires.other_rows (hids : (s.inventoryBook.transactions.map Transaction.id).Nodup)
    (h : CalculationFires P env s goodAccountId toDate closes goodAccount d s') {t t' : Transaction}
    (ht : t ∈ s.inventoryBook.transactions) (ht' : t' ∈ d.stored) (hid : t'.id = t.id)
    (hother : t.moves goodAccount.name = false) : t' = t := by
  let g : Transaction → String × Option Transaction := fun u =>
    (u.id, if u.moves goodAccount.name then none else some u)
  have hg : d.stored.map g = s.inventoryBook.transactions.map g := by
    refine Moves.map_stored hids (fun p u hp hw => ?_) h.moves
    have hsame := hw.sameIdentity
    simp only [g, hsame.id, hsame.moves, hp, if_true]
  have hmem : g t' ∈ s.inventoryBook.transactions.map g := hg ▸ List.mem_map_of_mem ht'
  obtain ⟨u, hu, hgu⟩ := List.mem_map.1 hmem
  obtain rfl : u = t :=
    List.inj_on_of_nodup_map hids hu ht ((congrArg Prod.fst hgu).trans hid)
  have hrest : (if t'.moves goodAccount.name then none else some t') = some u := by
    simpa [g, hother] using (congrArg Prod.snd hgu).symm
  split at hrest
  · cases hrest
  · exact Option.some.inj hrest

end Calculation

end InventoryBot.Menu
