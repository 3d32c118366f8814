import InventoryBot.Menu.Rows
import InventoryBot.System.Replication

/-!
# What becomes of a copy

The webhook replicates transactions, the menu calculates and resets accounts, and the financial
book changes in any way.

* `SystemStep`: one of these steps.
* `kept_of_steps`: whatever happens, the copy of a financial transaction stays the first with its
  remote id, its accounts and its date stay, and what is split off it shows its accounts.
-/

namespace InventoryBot.System

open Lib Menu Events CostOfSalesService

/-! ## The first transaction with a remote id -/

/-- The id of the first transaction that carries a remote id. -/
def firstWith (remoteId : String) (l : List Transaction) : Option String :=
  (l.find? (·.remoteIds.contains remoteId)).map Transaction.id

theorem firstWith_append {remoteId k : String} {l : List Transaction} (l' : List Transaction)
    (h : firstWith remoteId l = some k) : firstWith remoteId (l ++ l') = some k := by
  obtain ⟨t, ht, hk⟩ := Option.map_eq_some_iff.1 h
  rw [firstWith, List.find?_append, ht]
  exact congrArg some hk

/-- The first one is read off the ids and the remote ids. -/
theorem firstWith_congr (remoteId : String) : ∀ {l l' : List Transaction},
    l'.map (fun t => (t.id, t.remoteIds)) = l.map (fun t => (t.id, t.remoteIds)) →
      firstWith remoteId l' = firstWith remoteId l := by
  intro l
  induction l with
  | nil =>
    intro l' h
    rw [List.map_eq_nil_iff.1 h]
  | cons t l ih =>
    intro l' h
    cases l' with
    | nil => simp at h
    | cons t' l' =>
      rw [List.map_cons, List.map_cons, List.cons.injEq, Prod.mk.injEq] at h
      obtain ⟨⟨hid, hremote⟩, hrest⟩ := h
      have ih := ih hrest
      unfold firstWith at ih ⊢
      rw [List.find?_cons, List.find?_cons, hremote]
      cases t.remoteIds.contains remoteId with
      | true => exact congrArg some hid
      | false => exact ih

/-- The first one stays the first where it is kept. -/
theorem firstWith_filter {remoteId k : String} (keep : Transaction → Bool) :
    ∀ {l : List Transaction}, firstWith remoteId l = some k →
      (∀ t ∈ l, t.id = k → keep t = true) → firstWith remoteId (l.filter keep) = some k := by
  intro l
  induction l with
  | nil =>
    intro h _
    cases h
  | cons t l ih =>
    intro h hkeep
    have hrest : ∀ u ∈ l, u.id = k → keep u = true := fun u hu =>
      hkeep u (List.mem_cons_of_mem _ hu)
    unfold firstWith at h ih ⊢
    rw [List.find?_cons] at h
    rw [List.filter_cons]
    cases hc : t.remoteIds.contains remoteId with
    | true =>
      rw [hc] at h
      have hk : t.id = k := by simpa using h
      rw [if_pos (hkeep t List.mem_cons_self hk), List.find?_cons, hc]
      exact congrArg some hk
    | false =>
      rw [hc] at h
      split
      · rw [List.find?_cons, hc]
        exact ih h hrest
      · exact ih h hrest

/-! ## Steps of the system -/

/-- What happens in the books of an inventory: the webhook handles a check of a financial book,
    the menu calculates or resets an account, and the financial book changes in any way. -/
inductive SystemStep (P : Platform) (collection : Option (List BookInfo)) : State → State → Prop
  | check {s : State} {env : EventEnv} {financialBook inventoryBook : Book} {event : Event}
      {response : Response} (hfresh : EventFresh env s.inventoryBook)
      (hhandled : processObject P env financialBook s.inventoryBook event =
        .ok (inventoryBook, response)) :
      SystemStep P collection s { s with inventoryBook := inventoryBook }
  | calculate {s s' : State} {goodAccountId : String}
      (hcalculates : Calculates P collection goodAccountId s s') : SystemStep P collection s s'
  | reset {s : State} {goodAccountId : String} :
      SystemStep P collection s (resetCostOfSalesForAccount P collection s goodAccountId).1
  | financial {s : State} {financialBook : Book} :
      SystemStep P collection s { s with financialBook := financialBook }

/-- What holds of the copy `c` of the financial transaction `id`, whatever happens. -/
structure Kept (id : String) (c : Transaction) (b : Book) : Prop where
  complete : Complete b
  row : ∃ r ∈ b.transactions, SameCopy c r
  first : firstWith id b.transactions = some c.id
  splits : ∀ u ∈ b.transactions, u.parentId = some c.id →
    u.creditAccount = c.creditAccount ∧ u.debitAccount = c.debitAccount ∧
      Menu.BotService.isPurchase c = true ∧ OneSided c
  liquidated : ∀ r ∈ b.transactions, r.id = c.id → r.liquidationLog ≠ none →
    Menu.BotService.isPurchase c = true ∧ OneSided c
  calculated : ∀ r ∈ b.transactions, r.id = c.id → r.purchaseLog ≠ none →
    Menu.BotService.isSale c = true ∧ SoldFromGood c

section Steps

variable {P : Platform} {collection : Option (List BookInfo)} {s s' : State} {id : String}
  {c : Transaction}

/-- The row of the copy. -/
theorem Kept.of_id {b : Book} (h : Kept id c b) {r : Transaction} (hr : r ∈ b.transactions)
    (hid : r.id = c.id) : SameCopy c r := by
  obtain ⟨r', hr', hsame⟩ := h.row
  obtain rfl : r' = r :=
    List.inj_on_of_nodup_map h.complete.ids hr' hr (hsame.identity.id.trans hid.symm)
  exact hsame

/-- A copy that has been posted. -/
theorem kept_of_replication {env : EventEnv} {fb b b' : Book} {t : Payload} {response : Response}
    {quantity : ℚ} (hb : Complete b) (hfresh : EventFresh env b)
    (h : Replication P env fb b b' t response quantity c)
    (hsplits : ∀ u ∈ b.transactions, u.parentId ≠ some c.id) : Kept t.transaction.id c b' := by
  have hdata := h.copy.data
  have hnew : c.id ∉ b.transactions.map Transaction.id := by
    rw [hdata.id]
    exact fun hmem => hfresh.transactionId (List.mem_cons_of_mem _ hmem)
  have hmem : ∀ u ∈ b'.transactions, u ∈ b.transactions ∨ u = c := by
    intro u hu
    rwa [h.posts.transactions, List.mem_append, List.mem_singleton] at hu
  refine ⟨h.posts.complete hb hnew, ⟨c, ?_, .refl c⟩, ?_, ?_, ?_, ?_⟩
  · rw [h.posts.transactions]
    exact List.mem_append_right _ List.mem_cons_self
  · rw [h.posts.transactions, firstWith, List.find?_append, List.find?_eq_none.2]
    · simp [hdata.remoteIds]
    · intro u hu
      simpa using h.new u hu
  · intro u hu hparent
    rcases hmem u hu with hu | rfl
    · exact absurd hparent (hsplits u hu)
    · rw [hdata.parentId] at hparent
      cases hparent
  · intro r hr hid hlog
    rcases hmem r hr with hr | rfl
    · exact absurd (hid ▸ List.mem_map_of_mem hr) hnew
    · refine absurd ?_ hlog
      cases h.copy <;> rfl
  · intro r hr hid hlog
    rcases hmem r hr with hr | rfl
    · exact absurd (hid ▸ List.mem_map_of_mem hr) hnew
    · refine absurd ?_ hlog
      cases h.copy <;> rfl

/-- Posting another copy. -/
theorem Kept.post {b b' : Book} {new : Transaction} (h : Kept id c b) (hposts : PostsRow b b' new)
    (hid : new.id ∉ b.transactions.map Transaction.id) (hparent : new.parentId = none) :
    Kept id c b' := by
  have hmem : ∀ u ∈ b'.transactions, u ∈ b.transactions ∨ u = new := by
    intro u hu
    rwa [hposts.transactions, List.mem_append, List.mem_singleton] at hu
  obtain ⟨r, hr, hsame⟩ := h.row
  have hne : new.id ≠ c.id := fun he =>
    hid (he ▸ hsame.identity.id ▸ List.mem_map_of_mem hr)
  refine ⟨hposts.complete h.complete hid, ⟨r, ?_, hsame⟩, ?_, ?_, ?_, ?_⟩
  · rw [hposts.transactions]
    exact List.mem_append_left _ hr
  · rw [hposts.transactions]
    exact firstWith_append _ h.first
  · intro u hu hu'
    rcases hmem u hu with hu | rfl
    · exact h.splits u hu hu'
    · rw [hparent] at hu'
      cases hu'
  · intro u hu hu'
    rcases hmem u hu with hu | rfl
    · exact h.liquidated u hu hu'
    · exact absurd hu' hne
  · intro u hu hu'
    rcases hmem u hu with hu | rfl
    · exact h.calculated u hu hu'
    · exact absurd hu' hne

/-- A reset that has fired. -/
theorem Kept.reset {goodAccountId : String} {goodAccount : Account} (hparent : c.parentId = none)
    (h : Kept id c s.inventoryBook) (hcomplete : Complete s'.inventoryBook)
    (hdone : ResetDone P s goodAccountId goodAccount s') : Kept id c s'.inventoryBook := by
  have hrow : ∀ r' ∈ s'.inventoryBook.transactions, ∃ r ∈ s.inventoryBook.transactions,
      SameCopy r r' ∧ (r'.liquidationLog = r.liquidationLog ∨ r'.liquidationLog = none) ∧
        (r'.purchaseLog = r.purchaseLog ∨ r'.purchaseLog = none) := by
    intro r' hr'
    obtain ⟨r, hr, -, rfl⟩ := hdone.mem hr'
    refine ⟨r, hr, resetRow_sameCopy P goodAccount.name r, ?_⟩
    rcases resetRow_cases P goodAccount.name r with he | ⟨-, he⟩
    · exact ⟨Or.inl (by rw [he]), Or.inl (by rw [he])⟩
    · rcases resetUpdate_cases he with ⟨-, he⟩ | ⟨-, _, _, -, -, he⟩ | ⟨-, -, -, he⟩
      · exact ⟨Or.inl (by rw [he]), Or.inr (by rw [he])⟩
      · exact ⟨Or.inr (by rw [he]), Or.inl (by rw [he])⟩
      · exact ⟨Or.inl (by rw [he]), Or.inl (by rw [he])⟩
  refine ⟨hcomplete, ?_, ?_, ?_, ?_, ?_⟩
  · obtain ⟨r, hr, hsame⟩ := h.row
    refine ⟨resetRow P goodAccount.name r, ?_, hsame.trans (resetRow_sameCopy P _ r)⟩
    rw [hdone.inventory]
    refine List.mem_map_of_mem (List.mem_filter.2 ⟨hr, ?_⟩)
    simp [resetTrash, hsame.identity.parentId, hparent, truthy]
  · have hkept := firstWith_filter
      (fun t => !(t.moves goodAccount.name && resetTrash t)) h.first fun r hr hid => by
        simp [resetTrash, (h.of_id hr hid).identity.parentId, hparent, truthy]
    rw [hdone.inventory, ← hkept]
    refine firstWith_congr id ?_
    rw [List.map_map]
    refine List.map_congr_left fun r _ => ?_
    have hsame := resetRow_sameCopy P goodAccount.name r
    simp only [Function.comp_apply, hsame.identity.id, hsame.remoteIds]
  · intro u' hu' hparent'
    obtain ⟨u, hu, hsame, -⟩ := hrow u' hu'
    rw [hsame.identity.creditAccount, hsame.identity.debitAccount]
    exact h.splits u hu (hsame.identity.parentId ▸ hparent')
  · intro r' hr' hid hlog
    obtain ⟨r, hr, hsame, hrlog | hrlog, -⟩ := hrow r' hr'
    · exact h.liquidated r hr (hsame.identity.id ▸ hid) (hrlog ▸ hlog)
    · exact absurd hrlog hlog
  · intro r' hr' hid hlog
    obtain ⟨r, hr, hsame, -, hrlog | hrlog⟩ := hrow r' hr'
    · exact h.calculated r hr (hsame.identity.id ▸ hid) (hrlog ▸ hlog)
    · exact absurd hrlog hlog

/-- A calculation that has fired. -/
theorem Kept.fires {env : RunEnv} {goodAccountId : String} {toDate : Date} {closes : ℚ → Prop}
    {goodAccount : Account} {d : Desk} (h : Kept id c s.inventoryBook)
    (hcomplete : Complete s'.inventoryBook)
    (hfires : CalculationFires P env s goodAccountId toDate closes goodAccount d s') :
    Kept id c s'.inventoryBook := by
  have hids := h.complete.ids
  have hrefs : ∀ {p : Transaction}, p ∈ s.inventoryBook.transactions → ∀ r ∈ p.refs,
      r.name = goodAccount.name → r.type = goodAccount.type := fun hp r hr hname =>
    h.complete.wellFormed.refs _ hp r hr goodAccount
      (Book.mem_of_getAccount hfires.passed.account) hname
  have hone : ∀ {p : Transaction}, p ∈ s.inventoryBook.transactions →
      p.moves goodAccount.name = true → SameIdentity c p → OneSided c ∧ SoldFromGood c := by
    intro p hp hmoves hsame
    have hsided := oneSided_of_moves (hrefs hp) hfires.passed.notIncoming
      hfires.passed.notOutgoing hmoves
    have hsold := soldFromGood_of_moves (hrefs hp) hfires.passed.notIncoming
      hfires.passed.notOutgoing hmoves
    unfold OneSided at hsided ⊢
    unfold SoldFromGood at hsold ⊢
    rw [← hsame.isPurchase, ← hsame.debitAccount, ← hsame.isSale, ← hsame.creditAccount]
    exact ⟨hsided, hsold⟩
  -- the row of the copy after the calculation, and the row that it comes from
  have hstored : ∀ r' ∈ s'.inventoryBook.transactions, r'.id = c.id → ∃ r ∈
      s.inventoryBook.transactions, SameIdentity c r ∧ Relation.ReflTransGen (Written P) r r' ∧
        (r' ≠ r → OneSided c ∧ SoldFromGood c) := by
    intro r' hr' hid
    have hold : r' ∈ d.stored := by
      rw [hfires.inventory, List.mem_append] at hr'
      refine hr'.resolve_right fun hnew => ?_
      obtain ⟨r, hr, hsame⟩ := h.row
      have hold : r.id ∈ d.stored.map Transaction.id := by
        rw [hfires.moves.ids]
        exact List.mem_map_of_mem hr
      have hnodup := hcomplete.ids
      rw [hfires.inventory, List.map_append] at hnodup
      exact (List.nodup_append.1 hnodup).2.2 _ hold _ (List.mem_map_of_mem hnew)
        (hsame.identity.id.trans hid.symm)
    obtain ⟨r, hr, htrace⟩ := hfires.moves.stored_trace r' hold
    have htraced := (sameCopy_of_trace htrace).identity
    have hsame := (h.of_id hr (htraced.id.symm.trans hid)).identity
    refine ⟨r, hr, hsame, htrace, fun hne => ?_⟩
    cases hmoves : r.moves goodAccount.name with
    | true => exact hone hr hmoves hsame
    | false => exact absurd (hfires.other_rows hids hr hold htraced.id hmoves) hne
  refine ⟨hcomplete, ?_, ?_, ?_, ?_, ?_⟩
  · obtain ⟨r, hr, hsame⟩ := h.row
    have hid : r.id ∈ d.stored.map Transaction.id := by
      rw [hfires.moves.ids]
      exact List.mem_map_of_mem hr
    obtain ⟨r', hr', hid'⟩ := List.mem_map.1 hid
    obtain ⟨u, hu, htrace⟩ := hfires.moves.stored_trace r' hr'
    have hu' := sameCopy_of_trace htrace
    obtain rfl : u = r := List.inj_on_of_nodup_map hids hu hr (hu'.identity.id.symm.trans hid')
    refine ⟨r', ?_, hsame.trans hu'⟩
    rw [hfires.inventory]
    exact List.mem_append_left _ hr'
  · rw [hfires.inventory]
    refine firstWith_append _ ((firstWith_congr id ?_).trans h.first)
    refine Moves.map_stored (g := fun t => (t.id, t.remoteIds)) hids (fun p t _ hw => ?_)
      hfires.moves
    have hsame := hw.sameCopy
    simp only [hsame.identity.id, hsame.remoteIds]
  · intro u' hu' hparent
    rcases hfires.mem_cases hu' with ⟨-, u, hu, htrace⟩ | ⟨k, u, hu, rfl, p, hp, hsplit, hkind⟩
    · have hsame := (sameCopy_of_trace htrace).identity
      rw [hsame.creditAccount, hsame.debitAccount]
      exact h.splits u hu (hsame.parentId ▸ hparent)
    · have hpid : p.id = c.id := Option.some.inj (hsplit.parentId.symm.trans hparent)
      have hsame := (h.of_id hp hpid).identity
      have hmoves : p.moves goodAccount.name = true := by
        rw [← hsplit.moves]
        exact hfires.moves.created_moves (by simp [Desk.start]) u hu
      exact ⟨hsplit.creditAccount.trans hsame.creditAccount,
        hsplit.debitAccount.trans hsame.debitAccount, hsame.isPurchase ▸ hkind,
        (hone hp hmoves hsame).1⟩
  · intro r' hr' hid hlog
    obtain ⟨r, hr, hsame, htrace, hchanged⟩ := hstored r' hr' hid
    by_cases hsamelog : r'.liquidationLog = r.liquidationLog
    · exact h.liquidated r hr hsame.id (hsamelog ▸ hlog)
    · have hkind := (liquidationLog_of_trace htrace).resolve_left hsamelog
      exact ⟨hsame.isPurchase ▸ hkind, (hchanged fun he => hsamelog (by rw [he])).1⟩
  · intro r' hr' hid hlog
    obtain ⟨r, hr, hsame, htrace, hchanged⟩ := hstored r' hr' hid
    by_cases hsamelog : r'.purchaseLog = r.purchaseLog
    · exact h.calculated r hr hsame.id (hsamelog ▸ hlog)
    · have hkind := (purchaseLog_of_trace htrace).resolve_left hsamelog
      exact ⟨hsame.isSale ▸ hkind, (hchanged fun he => hsamelog (by rw [he])).2⟩

/-- Every step keeps the copy. -/
theorem SystemStep.kept (hparent : c.parentId = none) (hstep : SystemStep P collection s s')
    (h : Kept id c s.inventoryBook) : Kept id c s'.inventoryBook := by
  have hreset : ∀ goodAccountId, Kept id c
      (resetCostOfSalesForAccount P collection s goodAccountId).1.inventoryBook := by
    intro goodAccountId
    rcases reset_cases (P := P) collection goodAccountId h.complete.ids with
      ⟨hsame, -⟩ | ⟨-, goodAccount, hdone⟩
    · rwa [hsame]
    · exact h.reset hparent (reset_complete h.complete) hdone
  cases hstep with
  | check hfresh hhandled =>
    rcases processObject_cases h.complete.toDistinct hfresh hhandled with
      ⟨rfl, -⟩ | ⟨t, quantity, new, -, hreplication⟩
    · exact h
    · have hdata := hreplication.copy.data
      refine h.post hreplication.posts ?_ hdata.parentId
      rw [hdata.id]
      exact fun hmem => hfresh.transactionId (List.mem_cons_of_mem _ hmem)
  | @calculate s' goodAccountId hcalculates =>
    cases hcalculates with
    | run env toDate hfresh =>
      have hcomplete : Complete (calculateCostOfSalesForAccount P collection env s goodAccountId
          toDate).1.inventoryBook := calculate_complete h.complete hfresh toDate
      rcases calculate_cases P collection env s goodAccountId toDate with
        hsame | hsame | ⟨-, hsame⟩ | ⟨goodAccount, sales, processor, hplan, -⟩
      · rwa [hsame]
      · rw [hsame]
        exact h
      · rw [hsame]
        exact hreset goodAccountId
      · obtain ⟨d, hfires⟩ := calculation_fires (fun _ => True) h.complete.wellFormed hfresh hplan
          fun _ _ _ => Or.inl fun _ => trivial
        exact h.fires hcomplete hfires
  | reset => exact hreset _
  | financial => exact h

/-- Whatever happens after a replication, the copy is kept. -/
theorem kept_of_steps (hparent : c.parentId = none) (h : Kept id c s.inventoryBook)
    (hsteps : Relation.ReflTransGen (SystemStep P collection) s s') :
    Kept id c s'.inventoryBook := by
  induction hsteps with
  | refl => exact h
  | tail _ hstep ih => exact hstep.kept hparent ih

end Steps

/-! ## The states after a replication -/

/-- The inventory transaction that the webhook has posted, as its answer names it. -/
def copyOf : Response → Option Transaction
  | .sell c _ | .buy c _ | .credit c _ => some c
  | _ => none

/-- A state that is reached after the webhook has replicated the financial transaction `t` as
    `c`. The ids that it was given are new: no transaction names them as its parent. -/
inductive Reached (P : Platform) (collection : Option (List BookInfo)) (t : Payload)
    (c : Transaction) (s : State) : Prop
  | replicated {env : EventEnv} {eventBook b b' fb : Book} {event : Event} {response : Response}
      (hcomplete : Complete b) (hfresh : EventFresh env b)
      (hnew : ∀ u ∈ b.transactions, u.parentId ≠ some env.transactionId)
      (hevent : event.transaction = some t)
      (hhandled : processObject P env eventBook b event = .ok (b', response))
      (hcopy : copyOf response = some c)
      (hsteps : Relation.ReflTransGen (SystemStep P collection) ⟨b', fb⟩ s) :
      Reached P collection t c s

theorem Reached.tail {P : Platform} {collection : Option (List BookInfo)} {t : Payload}
    {c : Transaction} {s s' : State} (h : Reached P collection t c s)
    (hstep : SystemStep P collection s s') : Reached P collection t c s' := by
  cases h with
  | replicated hcomplete hfresh hnew hevent hhandled hcopy hsteps =>
    exact .replicated hcomplete hfresh hnew hevent hhandled hcopy (hsteps.tail hstep)

/-- What a copy is when it is posted. -/
structure Posted (t c : Transaction) : Prop where
  source : t.id ≠ ""
  id : c.id ≠ ""
  posted : c.posted = true
  parentId : c.parentId = none
  remoteIds : c.remoteIds = [t.id]
  date : c.date = t.date
  creditAccount : c.creditAccount ≠ none
  debitAccount : c.debitAccount ≠ none
  purchase : truthy t.saleInvoice = false → truthy t.purchaseInvoice = true →
    c.originalQuantity ≠ none

section Reached

variable {P : Platform} {collection : Option (List BookInfo)} {t : Payload} {c : Transaction}
  {s : State}

theorem replication_of_copyOf {env : EventEnv} {fb b b' : Book} {event : Event}
    {response : Response} (hb : Distinct b) (hfresh : EventFresh env b)
    (hevent : event.transaction = some t)
    (h : processObject P env fb b event = .ok (b', response)) (hcopy : copyOf response = some c) :
    ∃ quantity, Replication P env fb b b' t response quantity c := by
  rcases processObject_cases hb hfresh h with ⟨-, hsilent⟩ | ⟨u, quantity, c', hu, hreplication⟩
  · have hposts : postsCopy response = true := by
      cases response <;> first | rfl | cases hcopy
    rw [hposts] at hsilent
    cases hsilent
  · obtain rfl : t = u := Option.some.inj (hevent.symm.trans hu)
    have hc : copyOf response = some c' := by
      cases hreplication.copy <;> rfl
    obtain rfl : c' = c := Option.some.inj (hc.symm.trans hcopy)
    exact ⟨quantity, hreplication⟩

theorem Reached.kept (h : Reached P collection t c s) :
    Kept t.transaction.id c s.inventoryBook := by
  cases h with
  | replicated hcomplete hfresh hnew hevent hhandled hcopy hsteps =>
    obtain ⟨quantity, hreplication⟩ :=
      replication_of_copyOf hcomplete.toDistinct hfresh hevent hhandled hcopy
    have hdata := hreplication.copy.data
    exact kept_of_steps hdata.parentId
      (kept_of_replication hcomplete hfresh hreplication (hdata.id ▸ hnew)) hsteps

theorem Reached.posted (h : Reached P collection t c s) : Posted t.transaction c := by
  cases h with
  | replicated hcomplete hfresh hnew hevent hhandled hcopy hsteps =>
    obtain ⟨quantity, hreplication⟩ :=
      replication_of_copyOf hcomplete.toDistinct hfresh hevent hhandled hcopy
    have hdata := hreplication.copy.data
    refine ⟨hreplication.replicable.id, ?_, hdata.posted, hdata.parentId, hdata.remoteIds,
      hdata.date, ?_, ?_, ?_⟩
    · rw [hdata.id]
      exact fun hempty => hfresh.transactionId (hempty ▸ List.mem_cons_self)
    · cases hreplication.copy <;> simp [Book.post, newSale, newPurchase, newCreditNote]
    · cases hreplication.copy <;> simp [Book.post, newSale, newPurchase, newCreditNote]
    · intro hsale hpurchase
      cases hreplication.copy with
      | sale _ _ _ hkind => simp [hkind] at hsale
      | purchase => simp [Book.post, newPurchase]
      | creditNote _ _ _ _ hkind => simp [hkind] at hpurchase

end Reached

end InventoryBot.System
