import InventoryBot.System.GoodsDeletion

/-!
# Manual changes in the inventory book

Users can check and uncheck the transactions that the bot keeps in the inventory book. The webhook
finds the good account of such a transaction by the types of its two accounts.

* `InventoryStep`: what happens to an inventory book between two events.
* `managed_of_steps`: what all transactions of a reached inventory book have in common.
* `manual_change_noticed_iff`: when a manual change flags the good account.
-/

namespace InventoryBot.System

open Lib Menu Events CostOfSalesService

/-! ## Reached inventory books -/

/-- What happens to the inventory book: the steps of the system, and the changes by users and by
    the other handlers of the webhook, which post transactions of their own, check and uncheck
    transactions, trash them, and change the properties of accounts. -/
inductive InventoryStep (P : Platform) (collection : Option (List BookInfo)) : State → State → Prop
  | system {s s' : State} (h : SystemStep P collection s s') : InventoryStep P collection s s'
  | post {s : State} {t : Transaction} (hagent : t.agentId ≠ some "inventory-bot")
      (hid : t.id ∉ s.inventoryBook.transactions.map Transaction.id)
      (hrefs : ∀ r ∈ t.refs, r ∈ accountRefs s.inventoryBook) :
      InventoryStep P collection s { s with
        inventoryBook := { s.inventoryBook with
          transactions := s.inventoryBook.transactions ++ [t] } }
  | toggle {s : State} {t : Transaction} (ht : t ∈ s.inventoryBook.transactions) (checked : Bool) :
      InventoryStep P collection s { s with
        inventoryBook := s.inventoryBook.batchUpdateTransactions [{ t with checked := checked }] }
  | trash {s : State} (kept : Transaction → Bool) :
      InventoryStep P collection s { s with
        inventoryBook := { s.inventoryBook with
          transactions := s.inventoryBook.transactions.filter kept } }
  | accounts {s : State} {accounts : List Account}
      (hrefs : accounts.map Account.ref = accountRefs s.inventoryBook) :
      InventoryStep P collection s { s with
        inventoryBook := { s.inventoryBook with accounts := accounts } }

/-- The bot manages the transaction: it has created it. -/
def ofBot (t : Transaction) : Bool := t.agentId == some "inventory-bot"

/-- What the five places that create inventory transactions have in common: the transaction is
    posted, and has no `quantity` property. -/
structure Managed (t : Transaction) : Prop where
  posted : t.posted = true
  quantity : t.quantity = none

theorem Managed.of_copy {env : EventEnv} {quantity : ℚ} {goodExcCode : Option String}
    {t c : Transaction} {response : Response} (h : Copy env quantity goodExcCode t response c) :
    Managed c := by
  cases h <;> exact ⟨rfl, rfl⟩

theorem Managed.of_split {P : Platform} {id : String} {now : ℕ} {p t : Transaction}
    (h : SplitFrom P p t) : Managed (Book.post id now t) := by
  cases h <;> exact ⟨rfl, rfl⟩

theorem Managed.written {P : Platform} {p t : Transaction} (h : Written P p t) (hp : Managed p) :
    Managed t := by
  refine ⟨h.sameIdentity.posted.trans hp.posted, ?_⟩
  cases h with
  | settled =>
    rcases settleSale_cases _ _ p with hsame | hsame <;> rw [hsame] <;> exact hp.quantity
  | _ => exact hp.quantity

theorem Managed.resetRow {P : Platform} {account : String} {t : Transaction} (h : Managed t) :
    Managed (resetRow P account t) := by
  refine ⟨(resetRow_sameIdentity P account t).posted.trans h.posted, ?_⟩
  rcases resetRow_cases P account t with hsame | ⟨-, hrow⟩
  · rw [hsame]
    exact h.quantity
  · rcases resetUpdate_cases hrow with ⟨-, he⟩ | ⟨-, _, _, -, -, he⟩ | ⟨-, -, -, he⟩ <;>
      rw [he] <;> exact h.quantity

/-- The inventory book is complete, and has all the transactions of the bot as it creates them. -/
structure ManagedBook (b : Book) : Prop where
  complete : Complete b
  rows : ∀ t ∈ b.transactions, ofBot t = true → Managed t

section Steps

variable {P : Platform} {collection : Option (List BookInfo)} {s s' : State}

theorem ManagedBook.reset (hs : ManagedBook s.inventoryBook) (goodAccountId : String) :
    ManagedBook (resetCostOfSalesForAccount P collection s goodAccountId).1.inventoryBook := by
  refine ⟨reset_complete hs.complete, ?_⟩
  rcases reset_cases (P := P) collection goodAccountId hs.complete.ids with
    ⟨hsame, -⟩ | ⟨-, goodAccount, hdone⟩
  · rw [hsame]
    exact hs.rows
  · intro t' ht' hbot
    obtain ⟨t, ht, -, rfl⟩ := hdone.mem ht'
    have hsame := resetRow_sameIdentity P goodAccount.name t
    exact (hs.rows t ht (by rwa [ofBot, hsame.agentId] at hbot)).resetRow

theorem ManagedBook.calculate {env : RunEnv} (hs : ManagedBook s.inventoryBook)
    (hfresh : env.Fresh s) (goodAccountId : String) (toDate : Option Date) :
    ManagedBook (calculateCostOfSalesForAccount P collection env s goodAccountId
      toDate).1.inventoryBook := by
  rcases calculate_cases P collection env s goodAccountId toDate with
    hsame | hsame | ⟨-, hsame⟩ | ⟨goodAccount, sales, processor, hplan, -⟩
  · rwa [hsame]
  · rw [hsame]
    exact hs
  · rw [hsame]
    exact hs.reset goodAccountId
  · refine ⟨calculate_complete hs.complete hfresh toDate, ?_⟩
    obtain ⟨d, hfires⟩ := calculation_fires (fun _ => True) hs.complete.wellFormed hfresh hplan
      fun _ _ _ => Or.inl fun _ => trivial
    intro t ht hbot
    rcases hfires.mem_cases ht with ⟨-, p, hp, htrace⟩ | ⟨k, u, hu, rfl, -⟩
    · have hp := hs.rows p hp (by rwa [ofBot, (sameIdentity_of_trace htrace).agentId] at hbot)
      clear hbot ht
      induction htrace with
      | refl => exact hp
      | tail _ hwritten ih => exact ih.written hwritten
    · rcases hfires.moves.created_trace u hu with hnone | ⟨p, -, p', -, hsplit⟩
      · cases hnone
      · exact .of_split hsplit

theorem SystemStep.managedBook (hstep : SystemStep P collection s s')
    (hs : ManagedBook s.inventoryBook) : ManagedBook s'.inventoryBook := by
  cases hstep with
  | check hfresh hhandled =>
    refine ⟨processObject_complete hs.complete hfresh hhandled, ?_⟩
    rcases processObject_cases hs.complete.toDistinct hfresh hhandled with
      ⟨rfl, -⟩ | ⟨t, quantity, c, -, hreplication⟩
    · exact hs.rows
    · intro u hu hbot
      rw [hreplication.posts.transactions, List.mem_append, List.mem_singleton] at hu
      rcases hu with hu | rfl
      · exact hs.rows u hu hbot
      · exact .of_copy hreplication.copy
  | @calculate _ goodAccountId hcalculates =>
    cases hcalculates with
    | run env toDate hfresh => exact hs.calculate hfresh goodAccountId toDate
  | reset => exact hs.reset _
  | financial => exact hs

/-- Checking or unchecking a transaction changes no other, and nothing else about it. -/
theorem updated_toggled (t u : Transaction) (checked : Bool) :
    Book.updated [{ t with checked := checked }] u = u ∨
      (t.id = u.id ∧
        Book.updated [{ t with checked := checked }] u = { t with checked := checked }) := by
  unfold Book.updated
  rw [List.find?_singleton]
  split
  · rename_i hid
    exact Or.inr ⟨by simpa using hid, rfl⟩
  · exact Or.inl rfl

theorem InventoryStep.managedBook (hstep : InventoryStep P collection s s')
    (hs : ManagedBook s.inventoryBook) : ManagedBook s'.inventoryBook := by
  cases hstep with
  | system h => exact h.managedBook hs
  | @post t hagent hid hrefs =>
    refine ⟨⟨?_, hs.complete.accountIds, hs.complete.accountNames, ?_⟩, ?_⟩
    · exact nodup_map_append_singleton hs.complete.ids hid
    · intro u hu r hr
      rcases List.mem_append.1 hu with hu | hu
      · exact hs.complete.refs u hu r hr
      · exact hrefs r (List.mem_singleton.1 hu ▸ hr)
    · intro u hu hbot
      rcases List.mem_append.1 hu with hu | hu
      · exact hs.rows u hu hbot
      · rw [List.mem_singleton.1 hu] at hbot
        exact absurd (by simpa [ofBot] using hbot) hagent
  | @toggle t ht checked =>
    refine ⟨hs.complete.of_refs rfl ?_ ?_, ?_⟩
    · have hids : (s.inventoryBook.batchUpdateTransactions
          [{ t with checked := checked }]).transactions.map Transaction.id =
            s.inventoryBook.transactions.map Transaction.id := by
        rw [Book.batchUpdateTransactions, List.map_map]
        refine List.map_congr_left fun u _ => ?_
        rcases updated_toggled t u checked with hsame | ⟨hid, hsame⟩
        · rw [Function.comp_apply, hsame]
        · rw [Function.comp_apply, hsame]
          exact hid
      rw [hids]
      exact hs.complete.ids
    · intro u' hu'
      obtain ⟨u, hu, rfl⟩ := List.mem_map.1 hu'
      rcases updated_toggled t u checked with hsame | ⟨-, hsame⟩ <;> rw [hsame]
      · exact ⟨u, hu, rfl, rfl⟩
      · exact ⟨t, ht, rfl, rfl⟩
    · intro u' hu' hbot
      obtain ⟨u, hu, rfl⟩ := List.mem_map.1 hu'
      rcases updated_toggled t u checked with hsame | ⟨-, hsame⟩ <;> rw [hsame] at hbot ⊢
      · exact hs.rows u hu hbot
      · exact ⟨(hs.rows t ht hbot).posted, (hs.rows t ht hbot).quantity⟩
  | trash kept =>
    refine ⟨⟨?_, hs.complete.accountIds, hs.complete.accountNames, ?_⟩, ?_⟩
    · exact hs.complete.ids.sublist (List.filter_sublist.map _)
    · exact fun u hu => hs.complete.refs u (List.mem_of_mem_filter hu)
    · exact fun u hu => hs.rows u (List.mem_of_mem_filter hu)
  | accounts hrefs =>
    exact ⟨hs.complete.of_refs hrefs hs.complete.ids fun u hu => ⟨u, hu, rfl, rfl⟩, hs.rows⟩

/-- All transactions of the bot in a reached inventory book are managed. -/
theorem managed_of_steps (hcomplete : Complete s.inventoryBook)
    (hempty : s.inventoryBook.transactions = [])
    (hsteps : Relation.ReflTransGen (InventoryStep P collection) s s') :
    ManagedBook s'.inventoryBook := by
  have hstart : ManagedBook s.inventoryBook := ⟨hcomplete, by simp [hempty]⟩
  induction hsteps with
  | refl => exact hstart
  | tail _ hstep ih => exact hstep.managedBook ih

end Steps

/-! ## What the webhook recognises -/

/-- The good account that a transaction of the bot moves: a purchase and its splits debit it, a
    sale and a credit note credit it. -/
def movedGood (t : Transaction) : Option AccountRef :=
  if t.originalQuantity.isSome || t.parentId.isSome then t.debitAccount else t.creditAccount

/-- The types of the two accounts lead to the good account. -/
def Recognised (t : Transaction) : Prop :=
  if Menu.BotService.isSale t then movedGood t = t.creditAccount
  else Menu.BotService.isPurchase t = true ∧ movedGood t = t.debitAccount

instance (t : Transaction) : Decidable (Recognised t) := by
  unfold Recognised
  infer_instance

/-- The side of a transaction on which the webhook looks for the good account. -/
def lookedUp (t : Transaction) : Option AccountRef :=
  if Menu.BotService.isSale t then t.creditAccount
  else if Menu.BotService.isPurchase t then t.debitAccount else none

theorem getGoodAccount_eq (b : Book) (t : Transaction) :
    Events.BotService.getGoodAccount b t =
      (lookedUp t).bind fun account => b.getAccount account.id := by
  unfold Events.BotService.getGoodAccount lookedUp
  split
  · rfl
  · split <;> rfl

theorem lookedUp_mem {t : Transaction} {g : AccountRef} (h : lookedUp t = some g) : g ∈ t.refs := by
  unfold lookedUp at h
  split at h
  · exact Transaction.mem_refs.2 (Or.inl h)
  · split at h
    · exact Transaction.mem_refs.2 (Or.inr h)
    · cases h

theorem movedGood_mem {t : Transaction} {g : AccountRef} (h : movedGood t = some g) : g ∈ t.refs := by
  unfold movedGood at h
  split at h
  · exact Transaction.mem_refs.2 (Or.inr h)
  · exact Transaction.mem_refs.2 (Or.inl h)

theorem recognised_iff {t : Transaction} {good : AccountRef} (hgood : movedGood t = some good) :
    Recognised t ↔ lookedUp t = some good := by
  unfold Recognised lookedUp
  rw [hgood]
  split
  · exact eq_comm
  · split
    · rename_i hkind
      rw [hkind]
      exact ⟨fun h => h.2.symm, fun h => ⟨rfl, h.symm⟩⟩
    · rename_i hkind
      exact ⟨fun h => absurd h.1 hkind, fun h => absurd h (by simp)⟩

/-- The user has checked or unchecked a transaction of the inventory book. -/
structure ChangedByHand (b : Book) (event : Event) (payload : Payload) (r : Transaction) : Prop where
  type : event.type = .checked ∨ event.type = .unchecked
  book : Events.BotService.isInventoryBook event.book = true
  agent : event.agentId ≠ some "inventory-bot"
  transaction : event.transaction = some payload
  shows : Shows b payload r

section Noticed

variable {P : Platform} {collection : Option (List BookInfo)} {env : EventEnv} {s : State}
  {event : Event} {payload : Payload} {r : Transaction}

/-- A transaction without quantity is not replicated, not even from the inventory book. -/
theorem processObject_noQuantity {fb b : Book} (h : event.transaction = some payload)
    (hquantity : payload.transaction.quantity = none) :
    ∃ response, processObject P env fb b event = .ok (b, response) := by
  have hnothing : Events.BotService.getQuantity P payload.transaction = .ok none := by
    rw [Events.BotService.getQuantity, hquantity]
  have hsilent : ∀ goodExcCode, connectedTransactionNotFound P env b payload goodExcCode =
      .ok (b, .silent) := by
    intro goodExcCode
    unfold connectedTransactionNotFound
    rw [hnothing]
    split
    · split <;> rfl
    · rfl
  unfold processObject
  simp only [h, hsilent]
  split
  · split
    · split <;> exact ⟨_, rfl⟩
    · exact ⟨_, rfl⟩
  · exact ⟨_, rfl⟩

/-- What the interceptor does in the inventory book. -/
theorem changedByHand_book (h : ChangedByHand s.inventoryBook event payload r)
    (hmanaged : Managed r) : (handleEvent P collection env s event).inventoryBook =
      (InterceptorFlagRebuild.intercept s.inventoryBook event).1 := by
  rcases h.type with htype | htype
  · have hquantity : payload.transaction.quantity = none := h.shows.transaction ▸ hmanaged.quantity
    unfold handleEvent EventHandlerTransactionChecked.handleEvent
    rw [htype]
    dsimp only
    split
    · rename_i heq
      rw [heq]
    · rename_i b _ _ heq
      rw [heq]
      split
      · rfl
      · have hsilent : ∀ fb, ∃ response, processObject P env fb b event = .ok (b, response) :=
          fun fb => processObject_noQuantity h.transaction hquantity
        obtain ⟨response, hresponse⟩ := hsilent (if Events.BotService.isInventoryBook event.book
          then s.inventoryBook else s.financialBook)
        rw [hresponse]
  · rw [handleEvent, htype]
    rfl

/-- A check or an uncheck by hand leaves the good account flagged exactly if it was flagged before,
    or the types of the accounts lead to the good account and its property is not set. -/
theorem manual_change_noticed_iff {s₀ : State} {good : AccountRef}
    (hcomplete : Complete s₀.inventoryBook) (hempty : s₀.inventoryBook.transactions = [])
    (hsteps : Relation.ReflTransGen (InventoryStep P collection) s₀ s)
    (hr : r ∈ s.inventoryBook.transactions) (hbot : ofBot r = true) (hgood : movedGood r = some good)
    (hevent : ChangedByHand s.inventoryBook event payload r) :
    flagged (handleEvent P collection env s event).inventoryBook good.id = true ↔
      flagged s.inventoryBook good.id = true ∨
        (Recognised r ∧ ∃ a, s.inventoryBook.getAccount good.id = some a ∧
          a.properties.get needsRebuildProp = none) := by
  have hbook := managed_of_steps hcomplete hempty hsteps
  have hb := hbook.complete
  have hmanaged := hbook.rows r hr hbot
  obtain ⟨x, hx, rfl, hfound⟩ := hb.account_of_ref hr (movedGood_mem hgood)
  have hrow : (s.inventoryBook.getTransactions (.id payload.transaction.id)).head? = some r := by
    rw [hevent.shows.transaction]
    exact getTransactions_id hb.ids hr
  have hagent : (event.agentId != some "inventory-bot") = true := by simpa using hevent.agent
  rw [changedByHand_book hevent hmanaged, recognised_iff hgood]
  simp only [InterceptorFlagRebuild.intercept, hevent.book, hagent, Bool.and_self, if_true,
    hevent.transaction, hrow, Option.bind_some, getGoodAccount_eq]
  cases hside : lookedUp r with
  | none => simp
  | some g =>
    obtain ⟨a, ha, rfl, haccount⟩ := hb.account_of_ref hr (lookedUp_mem hside)
    simp only [Option.bind_some, haccount]
    have hone : x.id = a.id ↔ a.ref = x.ref := by
      constructor
      · intro hid
        have hself := getAccount_id hb.accountIds hx
        rw [hid, show a.id = a.ref.id from rfl, haccount] at hself
        rw [Option.some.inj hself]
      · exact fun href => (congrArg AccountRef.id href).symm
    split
    · rename_i hunset
      show flagged _ x.id = true ↔ _
      rw [flagged_setNeedsRebuild hb.accountIds ha hx, Bool.or_eq_true, decide_eq_true_eq, hone]
      constructor
      · rintro (href | hflag)
        · exact Or.inr ⟨congrArg some href, a, href ▸ haccount, hunset⟩
        · exact Or.inl hflag
      · rintro (hflag | ⟨href, -⟩)
        · exact Or.inr hflag
        · exact Or.inl (Option.some.inj href)
    · rename_i hset
      constructor
      · exact Or.inl
      · rintro (hflag | ⟨href, a', ha', hunset⟩)
        · exact hflag
        · rw [← Option.some.inj href, haccount] at ha'
          exact absurd (Option.some.inj ha' ▸ hunset) hset

end Noticed

namespace Sample

/-- A checked credit note of two widgets. -/
def returned : Payload where
  transaction :=
    { id := "t-5", checked := true, date := 4, amount := 20
      creditAccount := some (widgets "USD").ref, debitAccount := some supplier.ref
      quantity := some "2", creditNote := some "N2", purchaseCode := some "P1" }
  creditAccount := some (widgets "USD")
  debitAccount := some supplier

/-- The books after the purchase and a second transaction are replicated. -/
def copied (t : Payload) : State where
  inventoryBook := bookAfter (handled saleEnv purchased t)
  financialBook := dollarBook "USD"

/-- The books after the user has checked a transaction. -/
def toggled (s : State) (r : Transaction) : State :=
  { s with inventoryBook := s.inventoryBook.batchUpdateTransactions [{ r with checked := true }] }

/-- The check of a transaction in the inventory book by its user. -/
def checkedByHand (b : Book) (r : Transaction) : Event where
  type := .checked
  book := inventory
  transaction := some (payloadOf b r)

/-- The inventory book after the handler has seen the check. -/
def noticed (s : State) (r : Transaction) : Book :=
  (handleEvent decimalPlatform books laterEnv s (checkedByHand s.inventoryBook r)).inventoryBook

theorem toggled_steps {t : Payload} (ht : (handled saleEnv purchased t).isOk = true)
    {r : Transaction} (hr : r ∈ (copied t).inventoryBook.transactions) :
    Relation.ReflTransGen (InventoryStep decimalPlatform books) ⟨emptyBook, dollarBook "USD"⟩
      (toggled (copied t) r) := by
  have hstart : EventFresh eventEnv emptyBook := ⟨by decide, by decide, by decide, by decide⟩
  obtain ⟨_, hbought⟩ := eq_bookAfter (handled eventEnv emptyBook (purchase "USD"))
    (by decide +kernel)
  obtain ⟨_, hcopied⟩ := eq_bookAfter _ ht
  have h₁ : InventoryStep decimalPlatform books ⟨emptyBook, dollarBook "USD"⟩
      ⟨purchased, dollarBook "USD"⟩ := .system (.check hstart hbought)
  have h₂ : InventoryStep decimalPlatform books ⟨purchased, dollarBook "USD"⟩ (copied t) :=
    .system (.check saleEnv_fresh hcopied)
  exact .tail (.tail (.single h₁) h₂) (.toggle hr true)

theorem checkedByHand_changed {s : State} (hs : Complete s.inventoryBook) {r : Transaction}
    (hr : r ∈ s.inventoryBook.transactions) :
    ChangedByHand s.inventoryBook (checkedByHand s.inventoryBook r) (payloadOf s.inventoryBook r) r :=
  ⟨Or.inl rfl, show Events.BotService.isInventoryBook inventory = true by decide,
    show (none : Option String) ≠ some "inventory-bot" by decide, rfl, payloadOf_shows hs hr⟩

end Sample

/-- The user checks a credit note of the inventory book: its good account is not flagged. -/
theorem manual_change_unnoticed :
    ∃ s r event payload, Relation.ReflTransGen (InventoryStep decimalPlatform Sample.books)
        ⟨Sample.emptyBook, Sample.dollarBook "USD"⟩ s ∧
      r ∈ s.inventoryBook.transactions ∧ ofBot r = true ∧
      movedGood r = some ⟨"a-widgets", "Widgets", .asset⟩ ∧
      ChangedByHand s.inventoryBook event payload r ∧
      flagged (handleEvent decimalPlatform Sample.books Sample.laterEnv s event).inventoryBook
        "a-widgets" = false := by
  have hrow : ∃ r₀ ∈ (Sample.copied Sample.returned).inventoryBook.transactions,
      ∃ r ∈ (Sample.toggled (Sample.copied Sample.returned) r₀).inventoryBook.transactions,
        ofBot r = true ∧ movedGood r = some ⟨"a-widgets", "Widgets", .asset⟩ ∧
        flagged (Sample.noticed (Sample.toggled (Sample.copied Sample.returned) r₀) r)
          "a-widgets" = false := by
    decide +kernel
  obtain ⟨r₀, hr₀, r, hr, hbot, hgood, hunflagged⟩ := hrow
  have hsteps := Sample.toggled_steps (by decide +kernel) hr₀
  have hcomplete := (managed_of_steps Sample.emptyBook_complete rfl hsteps).complete
  exact ⟨_, r, _, _, hsteps, hr, hbot, hgood, Sample.checkedByHand_changed hcomplete hr, hunflagged⟩

/-- The user checks a sale of the inventory book: its good account is flagged. -/
theorem manual_change_noticed_iff_sample :
    ∃ s r event, r ∈ s.inventoryBook.transactions ∧ Menu.BotService.isSale r = true ∧
      flagged (handleEvent decimalPlatform Sample.books Sample.laterEnv s event).inventoryBook
        "a-widgets" = true := by
  have hrow : ∃ r₀ ∈ (Sample.copied (Sample.sale "4")).inventoryBook.transactions,
      ∃ r ∈ (Sample.toggled (Sample.copied (Sample.sale "4")) r₀).inventoryBook.transactions,
        Menu.BotService.isSale r = true ∧ ofBot r = true ∧
        movedGood r = some ⟨"a-widgets", "Widgets", .asset⟩ ∧ Recognised r ∧
        ((Sample.toggled (Sample.copied (Sample.sale "4")) r₀).inventoryBook.getAccount
          "a-widgets").any (·.properties.get needsRebuildProp = none) = true := by
    decide +kernel
  obtain ⟨r₀, hr₀, r, hr, hsale, hbot, hgood, hrecognised, hunset⟩ := hrow
  have hsteps := Sample.toggled_steps (by decide +kernel) hr₀
  have hcomplete := (managed_of_steps Sample.emptyBook_complete rfl hsteps).complete
  obtain ⟨a, ha, hunset⟩ := (Option.any_eq_true _ _).1 hunset
  exact ⟨_, r, _, hr, hsale, (manual_change_noticed_iff Sample.emptyBook_complete rfl hsteps hr hbot
    hgood (Sample.checkedByHand_changed hcomplete hr)).2
      (Or.inr ⟨hrecognised, a, ha, by simpa using hunset⟩)⟩

end InventoryBot.System
