import InventoryBot.Menu.Retry
import InventoryBot.System.FinancialDeletion

/-!
# Deleting a cost of sales transaction

The menu posts the cost of a sale with a tag in its description, and the webhook looks for a tag
of its own when such a transaction is deleted.

* `Costed.posted_eq`: what a calculation has posted for a sale.
* `cogs_deletion_noticed_iff`: when the deletion of a cost of sales transaction flags the good
  account of its sale.
-/

namespace InventoryBot.System

open Lib Menu Events CostOfSalesService InterceptorOrderProcessorDeleteFinancial

/-! ## What a calculation posts -/

/-- A calculation of the account has costed the sale, and posted `cogs` for it. -/
structure Costed (P : Platform) (collection : Option (List BookInfo)) (env : RunEnv) (s : State)
    (goodAccountId : String) (toDate : Option Date) (sale cogs : Transaction) : Prop where
  stored : sale ∈ s.inventoryBook.transactions
  kind : Menu.BotService.isSale sale
  posted : cogs ∈ (calculateCostOfSalesForAccount P collection env s goodAccountId
    toDate).1.financialBook.transactions
  new : cogs ∉ s.financialBook.transactions
  linked : cogs.remoteIds = [sale.id]

section Costed

variable {P : Platform} {collection : Option (List BookInfo)} {env : RunEnv} {s : State}
  {goodAccountId : String} {toDate : Option Date} {sale cogs : Transaction}

/-- The costs that a run posts are those of sales of the book. -/
theorem fired_costs {goodAccount : Account} {sales : List Transaction}
    {processor : CalculateCostOfSalesProcessor} (hwf : WellFormed s.inventoryBook)
    (hplan : planCalculation P collection env s goodAccountId toDate =
      .ok (.fire goodAccount sales processor)) {t : Transaction}
    (ht : t ∈ processor.financialBookTransactionsToCreateMap.values) :
    ∃ sale ∈ s.inventoryBook.transactions, ∃ cost,
      t = costOfSaleTransaction P env (costOfSalesBook env s) sale cost := by
  obtain ⟨hpassed, hlisting⟩ := planCalculation_fire hplan
  have hkind : ∀ t ∈ s.inventoryBook.transactions, t.moves goodAccount.name → OneKind t :=
    fun t ht hm => hwf.oneKind hpassed.account hpassed.notIncoming hpassed.notOutgoing ht hm
  obtain ⟨-, rfl, purchases, processor₁, ps, hnotes, hsales⟩ := planListing_fire hlisting
  obtain ⟨-, -, -, -, -, hnone⟩ := processCreditNotes_moves s.financialBook 0 (fun _ => True) hnotes
    (notesInvariant_start P env (toDate.getD env.today) hwf.ids hkind)
  rcases processSales_costs hsales t ht with ht | ⟨sale, hsale, cost, rfl⟩
  · rw [hnone] at ht
    cases ht
  · obtain ⟨hlisted, -⟩ := listing_mem P s goodAccount (toDate.getD env.today)
    exact ⟨sale, (hlisted sale ((sortFIFO_perm _).mem_iff.1 hsale)).1.stored, cost, rfl⟩

/-- A calculation that has costed a sale has fired its batches. -/
theorem Costed.fires (h : Costed P collection env s goodAccountId toDate sale cogs)
    (hwf : WellFormed s.inventoryBook) :
    ∃ goodAccount sales processor, planCalculation P collection env s goodAccountId toDate =
      .ok (.fire goodAccount sales processor) := by
  have hposted := h.posted
  rcases calculate_cases P collection env s goodAccountId toDate with
    hsame | hsame | ⟨-, hreset⟩ | ⟨goodAccount, sales, processor, hplan, -⟩
  · rw [hsame] at hposted
    exact absurd hposted h.new
  · rw [hsame] at hposted
    exact absurd hposted h.new
  · -- a reset only trashes costs of sales
    rw [hreset] at hposted
    rcases reset_cases (P := P) collection goodAccountId hwf.ids with
      ⟨hsame, -⟩ | ⟨-, goodAccount, hdone⟩
    · rw [hsame] at hposted
      exact absurd hposted h.new
    · obtain ⟨processor, -, hbook⟩ := hdone.loop
      rw [hbook] at hposted
      exact absurd (List.mem_of_mem_filter hposted) h.new
  · exact ⟨goodAccount, sales, processor, hplan⟩

/-- What a calculation has posted for a sale. -/
theorem Costed.posted_eq (h : Costed P collection env s goodAccountId toDate sale cogs)
    (hwf : WellFormed s.inventoryBook) (hfresh : env.Fresh s) :
    ∃ k cost, cogs = Book.post (env.financialId k) env.now
      (costOfSaleTransaction P env (costOfSalesBook env s) sale cost) := by
  obtain ⟨goodAccount, sales, processor, hplan⟩ := h.fires hwf
  have hposted := h.posted
  rw [(fired_books hwf hfresh hplan).2, List.mem_append] at hposted
  rcases hposted with hold | hposted
  · exact absurd hold h.new
  · obtain ⟨k, t, ht, hcogs⟩ := Book.mem_postAll hposted
    obtain ⟨other, hother, cost, rfl⟩ := fired_costs hwf hplan ht
    -- the remote id names the sale
    have hlinked : [other.id] = [sale.id] := by
      rw [← h.linked, hcogs]
      rfl
    have hid : other.id = sale.id := by simpa using hlinked
    obtain rfl := List.inj_on_of_nodup_map hwf.ids hother h.stored hid
    exact ⟨k, cost, hcogs⟩

/-- A costed sale is still there after the calculation. -/
theorem Costed.kept (h : Costed P collection env s goodAccountId toDate sale cogs)
    (hwf : WellFormed s.inventoryBook) (hfresh : env.Fresh s) :
    ∃ r ∈ (calculateCostOfSalesForAccount P collection env s goodAccountId
      toDate).1.inventoryBook.transactions, SameIdentity sale r := by
  obtain ⟨goodAccount, sales, processor, hplan⟩ := h.fires hwf
  obtain ⟨d, hfires⟩ := calculation_fires (fun _ => True) hwf hfresh hplan
    fun _ _ _ => Or.inl fun _ => trivial
  exact hfires.forward hwf h.stored

end Costed

/-! ## What the webhook recognises -/

/-- The tag that the menu writes is none that the webhook looks for. -/
theorem includes_cogsHashtag (description : String) :
    includes ("#COGS " ++ description) cogsHashtag = includes description cogsHashtag := by
  have hinfix : cogsHashtag.toList <:+: "#COGS ".toList ++ description.toList ↔
      cogsHashtag.toList <:+: description.toList := by
    show ['#', 'c', 'o', 's', 't', '_', 'o', 'f', '_', 's', 'a', 'l', 'e'] <:+:
        '#' :: 'C' :: 'O' :: 'G' :: 'S' :: ' ' :: description.toList ↔
      ['#', 'c', 'o', 's', 't', '_', 'o', 'f', '_', 's', 'a', 'l', 'e'] <:+: description.toList
    simp [List.infix_cons_iff, List.cons_prefix_cons]
  unfold includes
  rw [String.toList_append]
  exact decide_eq_decide.2 hinfix

/-- The user has deleted a cost of sales transaction that the bot posted. -/
structure DeletesCogs (collection : Option (List BookInfo)) (s : State) (event : Event)
    (payload : Payload) (cogs : Transaction) : Prop where
  collection : Events.BotService.getInventoryBook collection ≠ none
  type : event.type = .deleted
  financial : Events.BotService.isInventoryBook event.book = false
  transaction : event.transaction = some payload
  shows : Shows s.financialBook payload cogs
  nonempty : cogs.id ≠ ""

section Recognised

variable {P : Platform} {collection : Option (List BookInfo)} {env : RunEnv} {s s₂ : State}
  {goodAccountId : String} {toDate : Option Date} {sale cogs : Transaction} {event : Event}
  {payload : Payload}

/-- Of the four branches only that of the costs of sales looks at a transaction the menu posted,
    and none does if it credits no account. -/
theorem deletedCogs_state {id : String} {now : ℕ} {cost : ℚ} {fb : Book}
    (hevent : DeletesCogs collection s₂ event payload
      (Book.post id now (costOfSaleTransaction P env fb sale cost))) :
    (EventHandlerTransactionDeleted.intercept P collection s₂ event).1 =
      if payload.creditAccount.isSome then
        (deleteCOGS collection s₂
          (Book.post id now (costOfSaleTransaction P env fb sale cost))).1
      else s₂ := by
  have hdebit : payload.debitAccount ≠ none := by
    intro hnone
    have hshown := hevent.shows.debitAccount
    rw [hnone] at hshown
    cases hshown
  obtain ⟨debitAccount, hdebit⟩ := Option.ne_none_iff_exists'.1 hdebit
  have hid : id ≠ "" := hevent.nonempty
  have hpurchase : ∀ s, deletePurchase P collection s
      (Book.post id now (costOfSaleTransaction P env fb sale cost)) = (s, []) := fun s => rfl
  have hadjustment : ∀ s account, deleteAdjustment P collection s account
      (Book.post id now (costOfSaleTransaction P env fb sale cost)) = (s, []) := fun s account => rfl
  have hsale : ∀ s, deleteSale P collection s payload = (s, []) := by
    intro s
    have hnot : isSaleTransaction payload = false := by
      rw [isSaleTransaction, hevent.shows.transaction]
      rfl
    simp [deleteSale, hnot]
  simp only [EventHandlerTransactionDeleted.intercept, hevent.transaction, hevent.financial,
    Bool.false_eq_true, if_false, InterceptorOrderProcessorDeleteFinancial.intercept,
    hevent.shows.transaction, hdebit]
  cases hcredit : payload.creditAccount with
  | none => rfl
  | some creditAccount =>
    have hposted : (Book.post id now (costOfSaleTransaction P env fb sale cost)).posted = true := rfl
    have hpostedId : (Book.post id now (costOfSaleTransaction P env fb sale cost)).id = id := rfl
    simp only [hposted, hpostedId, hid, Bool.not_true, Bool.false_eq_true, if_false, hpurchase,
      hadjustment, hsale, Option.isSome_some, if_true]

/-- The deletion of a cost of sales transaction flags the good account of its sale, if it is not
    flagged yet, exactly if the description of the sale has the tag of the webhook and the good
    account has a counterpart in the financial book of the run. -/
theorem cogs_deletion_noticed_iff {eventEnv : EventEnv} {r : Transaction} {good : AccountRef}
    (h : Costed P collection env s goodAccountId toDate sale cogs)
    (hwf : WellFormed s.inventoryBook) (hfresh : env.Fresh s)
    (hgood : sale.creditAccount = some good) (hs : Complete s₂.inventoryBook)
    (hr : r ∈ s₂.inventoryBook.transactions) (hsame : SameIdentity sale r)
    (hevent : DeletesCogs collection s₂ event payload cogs) :
    flagged (handleEvent P collection eventEnv s₂ event).inventoryBook good.id = true ↔
      (includes sale.description cogsHashtag = true ∧
          (costOfSalesBook env s).getAccount good.name ≠ none) ∨
        flagged s₂.inventoryBook good.id = true := by
  obtain ⟨k, cost, rfl⟩ := h.posted_eq hwf hfresh
  have hhandled : handleEvent P collection eventEnv s₂ event =
      (EventHandlerTransactionDeleted.intercept P collection s₂ event).1 := by
    rw [handleEvent, hevent.type]
  -- the credited account of the payload is the counterpart of the good account
  have hcredit : payload.creditAccount.isSome ↔
      (costOfSalesBook env s).getAccount good.name ≠ none := by
    have hshown := hevent.shows.creditAccount
    simp only [Book.post, costOfSaleTransaction, hgood, Option.bind_some] at hshown
    cases hpayload : payload.creditAccount <;>
      cases hfound : (costOfSalesBook env s).getAccount good.name <;>
      simp [hpayload, hfound] at hshown ⊢
  obtain ⟨a, ha, rfl, haccount⟩ := hs.account_of_ref hr
    (Transaction.mem_refs.2 (Or.inl (hsame.creditAccount.trans hgood)))
  have hrow : (s₂.inventoryBook.getTransactions (.id sale.id)).head? = some r :=
    hsame.id ▸ getTransactions_id hs.wellFormed.ids hr
  have hfound : Events.BotService.getGoodAccount s₂.inventoryBook r = some a := by
    unfold Events.BotService.getGoodAccount
    rw [hsame.isSale, if_pos h.kind, hsame.creditAccount, hgood]
    exact haccount
  have hlinked : linkedSale s₂.inventoryBook (Book.post (env.financialId k) env.now
      (costOfSaleTransaction P env (costOfSalesBook env s) sale cost)) = some r := by
    show [sale.id].findSome? _ = _
    rw [List.findSome?_cons, hrow]
  have htag : isCOGSTransaction (Book.post (env.financialId k) env.now
      (costOfSaleTransaction P env (costOfSalesBook env s) sale cost)) =
        includes sale.description cogsHashtag :=
    includes_cogsHashtag sale.description
  have hcollection := Option.isSome_iff_ne_none.2 hevent.collection
  rw [hhandled, deletedCogs_state hevent]
  by_cases hnamed : payload.creditAccount.isSome
  · rw [if_pos hnamed]
    have hbook := hcredit.1 hnamed
    unfold deleteCOGS
    rw [htag, hlinked]
    cases htagged : includes sale.description cogsHashtag with
    | false => simp
    | true =>
      simp only [hcollection, Bool.and_self, if_true,
        Events.BotService.flagInventoryAccountForRebuild, hfound]
      have hflag : flagged (s₂.inventoryBook.updateAccount
          (Events.BotService.setNeedsRebuild a)) a.ref.id = true := by
        show flagged _ a.id = true
        rw [flagged_setNeedsRebuild hs.accountIds ha ha, decide_eq_true rfl, Bool.true_or]
      simp [hflag, hbook]
  · rw [if_neg hnamed]
    have hnone : (costOfSalesBook env s).getAccount a.ref.name = none := by
      by_contra hne
      exact hnamed (hcredit.2 hne)
    simp [hnone]

end Recognised

namespace Sample

/-- The sale of four widgets with a description. -/
def describedSale (description : String) : Payload :=
  { sale "4" with transaction := { (sale "4").transaction with description := description } }

/-- The books with the purchase and that sale. -/
def describedState (description : String) : State where
  inventoryBook := bookAfter (handled saleEnv purchased (describedSale description))
  financialBook :=
    { dollarBook "USD" with
      transactions := [(purchase "USD").transaction, (describedSale description).transaction] }

/-- The books after the calculation. -/
def costedState (description : String) : State :=
  (calculateCostOfSalesForAccount decimalPlatform books runEnv (describedState description)
    "a-widgets" (some 9)).1

/-- The deletion of a cost of sales transaction of widgets. -/
def cogsDeletion (cogs : Transaction) : Payload where
  transaction := cogs
  creditAccount := some (widgets "USD")
  debitAccount := some { id := "f-cogs", name := cogsAccount, type := .outgoing }

/-- The inventory book after the handler has seen the deletion. -/
def cogsDeleted (description : String) (cogs : Transaction) : Book :=
  (handleEvent decimalPlatform books saleEnv (costedState description)
    (deletion (cogsDeletion cogs))).inventoryBook

/-- What is to be checked of a posted cost of sales transaction. -/
def PostedFor (description : String) (sale cogs : Transaction) : Prop :=
  sale.creditAccount = some ⟨"a-widgets", "Widgets", .asset⟩ ∧ Menu.BotService.isSale sale ∧
    cogs ∉ (describedState description).financialBook.transactions ∧
    cogs.remoteIds = [sale.id] ∧ cogs.id ≠ "" ∧
    (cogsDeletion cogs).creditAccount.map Account.ref = cogs.creditAccount ∧
    (cogsDeletion cogs).debitAccount.map Account.ref = cogs.debitAccount

instance (description : String) (sale cogs : Transaction) :
    Decidable (PostedFor description sale cogs) :=
  inferInstanceAs (Decidable (_ ∧ _ ∧ _ ∧ _ ∧ _ ∧ _ ∧ _))

theorem PostedFor.costed {description : String} {sale cogs : Transaction}
    (h : PostedFor description sale cogs)
    (hsale : sale ∈ (describedState description).inventoryBook.transactions)
    (hcogs : cogs ∈ (costedState description).financialBook.transactions) :
    Costed decimalPlatform books runEnv (describedState description) "a-widgets" (some 9) sale
      cogs :=
  ⟨hsale, h.2.1, hcogs, h.2.2.1, h.2.2.2.1⟩

theorem PostedFor.deletes {description : String} {sale cogs : Transaction}
    (h : PostedFor description sale cogs) :
    DeletesCogs books (costedState description) (deletion (cogsDeletion cogs)) (cogsDeletion cogs)
      cogs :=
  ⟨by decide +kernel, rfl, rfl, rfl, ⟨rfl, h.2.2.2.2.2.1, h.2.2.2.2.2.2⟩, h.2.2.2.2.1⟩

end Sample

/-- The cost of an ordinary sale is deleted, and the account is not flagged. -/
theorem cogs_deletion_unnoticed :
    ∃ sale cogs, Costed decimalPlatform Sample.books Sample.runEnv
        (Sample.describedState "Four widgets") "a-widgets" (some 9) sale cogs ∧
      DeletesCogs Sample.books (Sample.costedState "Four widgets")
        (Sample.deletion (Sample.cogsDeletion cogs)) (Sample.cogsDeletion cogs) cogs ∧
      sale.creditAccount = some ⟨"a-widgets", "Widgets", .asset⟩ ∧
      flagged (Sample.cogsDeleted "Four widgets" cogs) "a-widgets" = false := by
  have hposted : ∃ sale ∈ (Sample.describedState "Four widgets").inventoryBook.transactions,
      ∃ cogs ∈ (Sample.costedState "Four widgets").financialBook.transactions,
        Sample.PostedFor "Four widgets" sale cogs ∧
          flagged (Sample.cogsDeleted "Four widgets" cogs) "a-widgets" = false := by
    decide +kernel
  obtain ⟨sale, hsale, cogs, hcogs, h, hunflagged⟩ := hposted
  exact ⟨sale, cogs, h.costed hsale hcogs, h.deletes, h.1, hunflagged⟩

/-- With the tag of the webhook in the description of the sale, the account is flagged. -/
theorem cogs_deletion_noticed_iff_sample :
    ∃ cogs ∈ (Sample.costedState "Four widgets #cost_of_sale").financialBook.transactions,
      flagged (Sample.cogsDeleted "Four widgets #cost_of_sale" cogs) "a-widgets" = true := by
  have hposted :
      ∃ sale ∈ (Sample.describedState "Four widgets #cost_of_sale").inventoryBook.transactions,
        ∃ cogs ∈ (Sample.costedState "Four widgets #cost_of_sale").financialBook.transactions,
          Sample.PostedFor "Four widgets #cost_of_sale" sale cogs := by
    decide +kernel
  obtain ⟨sale, hsale, cogs, hcogs, h⟩ := hposted
  have hs : Complete (Sample.describedState "Four widgets #cost_of_sale").inventoryBook :=
    ⟨by decide +kernel, by decide +kernel, by decide +kernel, by decide +kernel⟩
  have hfresh : Sample.runEnv.Fresh (Sample.describedState "Four widgets #cost_of_sale") :=
    ⟨Book.freshIds_unaryId (by decide +kernel), Book.freshIds_unaryId (by decide +kernel),
      Book.freshIds_unaryId (by decide +kernel)⟩
  have hcosted := h.costed hsale hcogs
  obtain ⟨r, hr, hsame⟩ := hcosted.kept hs.wellFormed hfresh
  have htag : ∀ sale ∈ (Sample.describedState
      "Four widgets #cost_of_sale").inventoryBook.transactions, Menu.BotService.isSale sale →
        includes sale.description cogsHashtag = true := by
    decide +kernel
  have hbook : (costOfSalesBook Sample.runEnv (Sample.describedState
      "Four widgets #cost_of_sale")).getAccount "Widgets" ≠ none := by
    rw [← Option.isSome_iff_ne_none]
    decide +kernel
  exact ⟨cogs, hcogs, (cogs_deletion_noticed_iff hcosted hs.wellFormed hfresh h.1
    (calculate_complete hs hfresh _) hr hsame h.deletes).2
      (Or.inl ⟨htag sale hsale h.2.1, hbook⟩)⟩

end InventoryBot.System
