import InventoryBot.Lib.Processes
import InventoryBot.Menu.Rebuild
import InventoryBot.System.Arrivals
import InventoryBot.System.Scope

/-!
# Runs of different accounts side by side

Calculations of different accounts of one financial book may be under way at the same time, call
by call in any order between each other. Each of them writes what it writes alone.

* `Aims`: what a calculation queues concerns the purchases, sales and returns of its account.
* `AloneAt`: where a calculation stands when it is alone, and the books then.
* `Sees`: two states look alike to the calculation of an account.
* `runs_separate`: no calculation touches what another one sees.
* `runs_do_not_interfere`: under any schedule.
-/

namespace InventoryBot.System

open Lib Menu CostOfSalesService

/-! ## What a calculation queues -/

/-- What a calculation has queued concerns the purchases, sales and returns of its account among
    the transactions `l`. -/
structure Aims (account : String) (l : List Transaction)
    (processor : CalculateCostOfSalesProcessor) : Prop where
  keyed : Book.KeyedById processor.inventoryBookTransactionsToUpdateMap
  updates : ∀ k ∈ processor.inventoryBookTransactionsToUpdateMap.keys,
    k ∈ (tradeRows account l).map Transaction.id
  written : ∀ t ∈ tradeRows account l,
    SameIdentity t (Book.updated processor.inventoryBookTransactionsToUpdateMap.values t)
  created : ∀ u ∈ processor.inventoryBookTransactionsToCreateMap.values,
    ∃ p ∈ tradeRows account l, u.creditAccount = p.creditAccount ∧ u.debitAccount = p.debitAccount
  posted : ∀ c ∈ processor.financialBookTransactionsToCreateMap.values,
    c.purchaseInvoice = none ∧ c.creditNote = none ∧
      ∃ t ∈ l, t.moves account ∧ Menu.BotService.isSale t ∧ c.remoteIds = [t.id]

section Queues

variable {P : Platform} {env : RunEnv} {fb : Book} {digits : ℕ} {account : String} {before : Date}
  {closes : ℚ → Prop} {d : Desk}

/-- What moves post are costs of sales that were stored at the start. -/
theorem moves_posted {store : List Transaction}
    (h : Moves P env fb digits account before closes (Desk.start store) d) :
    ∀ c ∈ d.posted, c.purchaseInvoice = none ∧ c.creditNote = none ∧
      ∃ t ∈ store, t.moves account ∧ Menu.BotService.isSale t ∧ c.remoteIds = [t.id] := by
  have hkept := h.preserves (I := fun e =>
    (∀ t ∈ e.stored, ∃ u ∈ store, SameIdentity u t) ∧ ∀ c ∈ e.posted,
      c.purchaseInvoice = none ∧ c.creditNote = none ∧
        ∃ t ∈ store, t.moves account ∧ Menu.BotService.isSale t ∧ c.remoteIds = [t.id]) ?_
    ⟨fun t ht => ⟨t, ht, .refl t⟩, by simp [Desk.start]⟩
  · exact hkept.2
  · rintro e e' hmove ⟨hstored, hposted⟩
    refine ⟨?_, ?_⟩
    · intro t ht
      rcases hmove.stored_cases ht with ht | ⟨p, hp, hw⟩
      · exact hstored t ht
      · obtain ⟨u, hu, hsame⟩ := hstored p hp
        exact ⟨u, hu, hsame.trans hw.sameIdentity⟩
    · cases hmove with
      | creditNote => exact hposted
      | openSale => exact hposted
      | take => exact hposted
      | split => exact hposted
      | @closeSale c _ hsale =>
        intro cogs hcogs
        rcases List.mem_append.1 hcogs with hcogs | hcogs
        · exact hposted cogs hcogs
        · obtain rfl := List.mem_singleton.1 hcogs
          obtain ⟨u, hu, hsame⟩ := hstored c.sale hsale.stored
          refine ⟨rfl, rfl, u, hu, (hsame.moves account).symm.trans hsale.moves,
            hsame.isSale.symm.trans hsale.kind, ?_⟩
          rw [← hsame.id]
          rfl

/-- The books with the purchases, sales and returns of one account. -/
def tradesOnly (account : String) (s : State) : State :=
  { s with inventoryBook := { s.inventoryBook with
      transactions := tradeRows account s.inventoryBook.transactions } }

theorem tradesOnly_view (account : String) (s : State) :
    SameView account s (tradesOnly account s) where
  rows := by
    show tradeRows account (tradeRows account s.inventoryBook.transactions) = _
    unfold tradeRows
    rw [List.filter_filter]
    exact List.filter_congr fun t _ => Bool.and_self _
  info := rfl
  accounts := rfl
  linkable := rfl

/-- A calculation that fires queues for its own purchases, sales and returns. -/
theorem aims_of_fire {collection : Option (List BookInfo)} {s : State} {goodAccountId : String}
    {toDate : Option Date} {a : Account} {sales : List Transaction}
    {processor : CalculateCostOfSalesProcessor} (hwf : WellFormed s.inventoryBook)
    (hfresh : env.Fresh s)
    (hplan : planCalculation P collection env s goodAccountId toDate =
      .ok (.fire a sales processor)) :
    Aims a.name s.inventoryBook.transactions processor := by
  obtain ⟨hpassed, -⟩ := planCalculation_fire hplan
  -- the plan is the same without the other transactions
  have hplan' : planCalculation P collection env (tradesOnly a.name s) goodAccountId toDate =
      (planCalculation P collection env s goodAccountId toDate).map (planFor a) :=
    planCalculation_view (tradesOnly_view a.name s) hpassed.account hpassed.account (.refl a)
      rfl toDate
  rw [hplan] at hplan'
  have hsublist : (tradeRows a.name s.inventoryBook.transactions).Sublist
      s.inventoryBook.transactions := List.filter_sublist
  have hwf' : WellFormed (tradesOnly a.name s).inventoryBook :=
    ⟨hwf.ids.sublist (hsublist.map _), fun t ht => hwf.refs t (hsublist.subset ht)⟩
  have hfresh' : env.Fresh (tradesOnly a.name s) := by
    refine ⟨⟨hfresh.uuids.injective, fun k hk => hfresh.uuids.new k ?_⟩,
      ⟨hfresh.inventoryIds.injective, fun k hk => hfresh.inventoryIds.new k ?_⟩,
      hfresh.financialIds⟩
    · exact (hsublist.filterMap _).subset hk
    · exact ((hsublist.map _).cons_cons _).subset hk
  obtain ⟨-, d, hmoves, -, hcoherent⟩ := planCalculation_moves (fun _ => True) hwf' hfresh' hplan'
    fun _ _ _ => Or.inl fun _ => trivial
  refine ⟨hcoherent.keyed, hcoherent.updateKeys, ?_, ?_, ?_⟩
  · intro t ht
    have hstored : Book.updated processor.inventoryBookTransactionsToUpdateMap.values t ∈
        d.stored := by
      rw [hcoherent.stored]
      exact List.mem_map_of_mem ht
    obtain ⟨u, hu, htrace⟩ := hmoves.stored_trace _ hstored
    have hsame := sameIdentity_of_trace htrace
    obtain rfl : u = t := List.inj_on_of_nodup_map hwf'.ids hu ht
      (hsame.id.symm.trans (Book.updated_values_id hcoherent.keyed t))
    exact hsame
  · intro u hu
    obtain ⟨p, hp, hsplit, -⟩ := created_split hmoves (hcoherent.created ▸ hu)
    exact ⟨p, hp, hsplit.creditAccount, hsplit.debitAccount⟩
  · intro c hc
    obtain ⟨hinvoice, hnote, t, ht, hrest⟩ := moves_posted hmoves c (hcoherent.posted ▸ hc)
    exact ⟨hinvoice, hnote, t, hsublist.subset ht, hrest⟩

end Queues

/-! ## One calculation alone -/

/-- Where a calculation that starts on `s` stands when it is alone, and the books then. -/
inductive AloneAt (P : Platform) (e : Encounter) (s : State) : State → RunAt → Prop
  | start : AloneAt P e s s .start
  | opened {a : Account} {fb : Book}
      (hopen : openAccount e.collection s e.goodAccountId = .ok (a, some fb))
      (hcalm : GoodAccount.needsRebuild a = false) : AloneAt P e s s (.opened a)
  | listed {a : Account} {fb : Book}
      (hopen : openAccount e.collection s e.goodAccountId = .ok (a, some fb))
      (hcalm : GoodAccount.needsRebuild a = false) :
      AloneAt P e s s (.listed a (listTransactions s.inventoryBook a e.toDate))
  | created {a : Account} {transactions sales : List Transaction}
      {processor : CalculateCostOfSalesProcessor}
      (hplan : planCalculation P e.collection e.runEnv s e.goodAccountId (some e.toDate) =
        .ok (.fire a sales processor)) :
      AloneAt P e s (processor.fireBatchOperations e.runEnv 1 s)
        (.created a transactions sales processor)
  | updated {a : Account} {transactions sales : List Transaction}
      {processor : CalculateCostOfSalesProcessor}
      (hplan : planCalculation P e.collection e.runEnv s e.goodAccountId (some e.toDate) =
        .ok (.fire a sales processor)) :
      AloneAt P e s (processor.fireBatchOperations e.runEnv 2 s)
        (.updated a transactions sales processor)
  | fired {a : Account} {transactions sales : List Transaction}
      {processor : CalculateCostOfSalesProcessor}
      (hplan : planCalculation P e.collection e.runEnv s e.goodAccountId (some e.toDate) =
        .ok (.fire a sales processor)) :
      AloneAt P e s (processor.fireBatchOperations e.runEnv 3 s) (.fired a transactions sales)
  | ended {run : RunAt} (hended : run.progress = 6)
      (hplan : planCalculation P e.collection e.runEnv s e.goodAccountId (some e.toDate) ≠
        .ok .reset) :
      AloneAt P e s (calculateCostOfSalesForAccount P e.collection e.runEnv s e.goodAccountId
        (some e.toDate)).1 run
  | rebuild (hplan : planCalculation P e.collection e.runEnv s e.goodAccountId (some e.toDate) =
        .ok .reset) : AloneAt P e s s .rebuild

section Alone

variable {P : Platform} {e : Encounter} {s t : State} {run : RunAt}

/-- A call that is made after the end does nothing. -/
theorem runStep_ended (h : run.progress = 6) (t : State) : runStep P e t run = (t, run) := by
  cases run <;> first | rfl | cases h

/-- A plan that neither fires nor resets leaves the books as they are. -/
theorem calculate_stopped (hcost : s.financialBook.getAccount cogsAccount ≠ none)
    (h : ∀ a sales processor, planCalculation P e.collection e.runEnv s e.goodAccountId
      (some e.toDate) ≠ .ok (.fire a sales processor))
    (hreset : planCalculation P e.collection e.runEnv s e.goodAccountId (some e.toDate) ≠
      .ok .reset) :
    (calculateCostOfSalesForAccount P e.collection e.runEnv s e.goodAccountId
      (some e.toDate)).1 = s := by
  rcases calculate_cases P e.collection e.runEnv s e.goodAccountId (some e.toDate) with
    hsame | hsame | ⟨hplan, -⟩ | ⟨a, sales, processor, hplan, -⟩
  · exact hsame
  · exact hsame.trans (withCostOfSalesAccount_of_found hcost)
  · exact absurd hplan hreset
  · exact absurd hplan (h a sales processor)

/-- The next call of a calculation that is alone. -/
theorem AloneAt.step (hcost : s.financialBook.getAccount cogsAccount ≠ none)
    (h : AloneAt P e s t run) :
    AloneAt P e s (runStep P e t run).1 (runStep P e t run).2 := by
  cases h with
  | start =>
    have hplan := planCalculation_eq (P := P) (e := e) (s := s)
    cases hopen : openAccount e.collection s e.goodAccountId with
    | error exception =>
      rw [hopen] at hplan
      have hstep : runStep P e s .start = (s, .stopped none) := by simp only [runStep, hopen]
      rw [hstep]
      have hstopped : AloneAt P e s _ (.stopped none) := .ended rfl (by simp [hplan])
      rwa [calculate_stopped hcost (by simp [hplan]) (by simp [hplan])] at hstopped
    | ok opened =>
      obtain ⟨a, financialBook⟩ := opened
      rw [hopen] at hplan
      dsimp only at hplan
      by_cases hflag : GoodAccount.needsRebuild a = true
      · have hstep : runStep P e s .start = (s, .rebuild) := by
          simp only [runStep, hopen, if_pos hflag]
        rw [hstep]
        exact .rebuild (by rw [hplan, if_pos hflag])
      · rw [if_neg hflag] at hplan
        cases financialBook with
        | none =>
          have hstep : runStep P e s .start = (s, .stopped none) := by
            simp only [runStep, hopen, if_neg hflag]
          rw [hstep]
          have hstopped : AloneAt P e s _ (.stopped none) := .ended rfl (by simp [hplan])
          rwa [calculate_stopped hcost (by simp [hplan]) (by simp [hplan])] at hstopped
        | some fb =>
          have hstep : runStep P e s .start = (s, .opened a) := by
            simp only [runStep, hopen, if_neg hflag]
          rw [hstep]
          exact .opened hopen (Bool.not_eq_true _ ▸ hflag)
  | opened hopen hcalm => exact .listed hopen hcalm
  | @listed a fb hopen hcalm =>
    have hplan := planCalculation_eq (P := P) (e := e) (s := s)
    rw [hopen] at hplan
    dsimp only at hplan
    rw [if_neg (by simp [hcalm])] at hplan
    have hstop : (∀ b sales processor, planListed P e s a
          (listTransactions s.inventoryBook a e.toDate) ≠ .ok (.fire b sales processor)) →
        planListed P e s a (listTransactions s.inventoryBook a e.toDate) ≠ .ok .reset →
        AloneAt P e s s (.stopped (some (listTransactions s.inventoryBook a e.toDate))) := by
      intro hnot hreset
      have hstopped : AloneAt P e s _
          (.stopped (some (listTransactions s.inventoryBook a e.toDate))) :=
        .ended rfl (hplan ▸ hreset)
      rwa [calculate_stopped hcost (hplan ▸ hnot) (hplan ▸ hreset)] at hstopped
    cases hlisted : planListed P e s a (listTransactions s.inventoryBook a e.toDate) with
    | error exception =>
      rw [runStep_listed_stop (by simp [hlisted]), booksAfterListing_of_found hcost]
      exact hstop (by simp [hlisted]) (by simp [hlisted])
    | ok plan =>
      cases plan with
      | stop summary =>
        rw [runStep_listed_stop (by simp [hlisted]), booksAfterListing_of_found hcost]
        exact hstop (by simp [hlisted]) (by simp [hlisted])
      | reset =>
        obtain ⟨a', ha', hflag⟩ := planCalculation_reset (hplan.trans hlisted)
        obtain rfl : a = a' := Option.some.inj ((openAccount_ok hopen).1.symm.trans ha')
        rw [hcalm] at hflag
        cases hflag
      | fire b sales processor =>
        rw [runStep_listed hlisted, booksAfterListing_of_found hcost]
        exact .created (hplan.trans hlisted)
  | created hplan => exact .updated hplan
  | updated hplan => exact .fired hplan
  | @fired a transactions sales processor hplan =>
    have hresult : (calculateCostOfSalesForAccount P e.collection e.runEnv s e.goodAccountId
        (some e.toDate)).1 = (runStep P e (processor.fireBatchOperations e.runEnv 3 s)
          (.fired a transactions sales)).1 := by
      rw [calculate_of_fire hplan, withCostOfSalesAccount_of_found hcost]
      rfl
    rw [← hresult]
    exact .ended rfl (by simp [hplan])
  | ended hended hplan =>
    rw [runStep_ended hended]
    exact .ended hended hplan
  | rebuild hplan => exact .rebuild hplan

/-- A calculation that is alone and has ended has done what the function does. -/
theorem AloneAt.result (h : AloneAt P e s t run) (hended : run.progress = 6)
    (hcalm : planCalculation P e.collection e.runEnv s e.goodAccountId (some e.toDate) ≠
      .ok .reset) :
    t = (calculateCostOfSalesForAccount P e.collection e.runEnv s e.goodAccountId
      (some e.toDate)).1 := by
  cases h with
  | ended => rfl
  | rebuild hplan => exact absurd hplan hcalm
  | start => cases hended
  | opened => cases hended
  | listed => cases hended
  | created => cases hended
  | updated => cases hended
  | fired => cases hended

/-- A call brings a calculation further, until it has ended. -/
theorem progress_runStep (h : run.progress < 6) :
    run.progress < (runStep P e t run).2.progress := by
  cases run with
  | start =>
    simp only [runStep]
    split
    · exact Nat.succ_pos 5
    · split
      · exact Nat.succ_pos 5
      · split
        · exact Nat.succ_pos 5
        · exact Nat.succ_pos 0
  | opened => exact Nat.lt_succ_self 1
  | listed =>
    simp only [runStep]
    split
    · exact Nat.lt_succ_self 2
    · exact Nat.lt_add_of_pos_right (Nat.succ_pos 3)
  | created => exact Nat.lt_succ_self 3
  | updated => exact Nat.lt_succ_self 4
  | fired => exact Nat.lt_succ_self 5
  | finished => exact absurd h (lt_irrefl 6)
  | stopped => exact absurd h (lt_irrefl 6)
  | rebuild => exact absurd h (lt_irrefl 6)

/-- After six calls a calculation that is alone has ended. -/
theorem progress_alone {ι : Type*} (e : ι → Encounter) (i : ι) :
    ∀ (n : ℕ) (c : State × RunAt),
      min 6 (c.2.progress + n) ≤
        (alone (fun i => runStep P (e i)) i n c).2.progress
  | 0, c => by
    show min 6 c.2.progress ≤ c.2.progress
    exact min_le_right _ _
  | n + 1, c => by
    have hrest := progress_alone e i n (runStep P (e i) c.1 c.2)
    refine le_trans ?_ hrest
    by_cases hend : c.2.progress < 6
    · have hfurther := progress_runStep (P := P) (e := e i) (t := c.1) hend
      omega
    · have hended : c.2.progress = 6 := le_antisymm c.2.progress_le (not_lt.1 hend)
      rw [runStep_ended hended]
      show min 6 (c.2.progress + (n + 1)) ≤ min 6 (c.2.progress + n)
      omega

end Alone

/-! ## What the calculation of an account sees -/

/-- Two states look alike to the calculation of an account: its transactions, the account, what is
    linked to its purchases and the costs of its sales, among the transactions `l`. -/
structure Sees (l : List Transaction) (goodAccountId account : String) (t s : State) : Prop where
  rows : accountRows account s.inventoryBook.transactions =
    accountRows account t.inventoryBook.transactions
  view : SameView account t s
  found : s.inventoryBook.getAccount goodAccountId = t.inventoryBook.getAccount goodAccountId
  costs : s.financialBook.transactions.filter (costsSale account l) =
    t.financialBook.transactions.filter (costsSale account l)

theorem Sees.refl (l : List Transaction) (goodAccountId account : String) (s : State) :
    Sees l goodAccountId account s s := ⟨rfl, .refl account s, rfl, rfl⟩

/-- A test of a transaction that reads its two accounts only. -/
def ReadsAccounts (q : Transaction → Bool) : Prop :=
  ∀ t t' : Transaction, t'.creditAccount = t.creditAccount → t'.debitAccount = t.debitAccount →
    q t' = q t

theorem readsAccounts_moves (account : String) : ReadsAccounts fun t => t.moves account := by
  intro t t' hcredit hdebit
  simp only [Transaction.moves, hcredit, hdebit]

theorem readsAccounts_tradeRows (account : String) :
    ReadsAccounts fun t => t.moves account && trades t := by
  intro t t' hcredit hdebit
  simp only [Transaction.moves, trades, hcredit, hdebit]

/-- The books have grown out of `s₀`: a transaction is one of `s₀`, maybe rewritten, or it is
    new. -/
structure Grown (s₀ s : State) : Prop where
  refs : accountRefs s.inventoryBook = accountRefs s₀.inventoryBook
  rows : ∀ t ∈ s.inventoryBook.transactions,
    (∃ t₀ ∈ s₀.inventoryBook.transactions, SameIdentity t₀ t) ∨
      t.id ∉ s₀.inventoryBook.transactions.map Transaction.id

theorem Grown.refl (s : State) : Grown s s := ⟨rfl, fun t ht => Or.inl ⟨t, ht, .refl t⟩⟩

section Writes

variable {env : RunEnv} {s₀ s t : State} {account account' goodAccountId : String}
  {processor : CalculateCostOfSalesProcessor} {q : Transaction → Bool}

/-- A row under an update is as it was, or the update is for the purchase, sale or return of that
    id. -/
theorem Aims.updated_cases (h : Aims account s₀.inventoryBook.transactions processor)
    (hids : (s₀.inventoryBook.transactions.map Transaction.id).Nodup) (hs : Grown s₀ s)
    {t : Transaction} (ht : t ∈ s.inventoryBook.transactions) :
    Book.updated processor.inventoryBookTransactionsToUpdateMap.values t = t ∨
      ∃ t₀ ∈ tradeRows account s₀.inventoryBook.transactions, SameIdentity t₀ t ∧
        SameIdentity t₀
          (Book.updated processor.inventoryBookTransactionsToUpdateMap.values t) := by
  by_cases hkey : t.id ∈ processor.inventoryBookTransactionsToUpdateMap.keys
  · obtain ⟨t₀, ht₀, hid⟩ := List.mem_map.1 (h.updates _ hkey)
    obtain ⟨hstored, -⟩ := List.mem_filter.1 ht₀
    rcases hs.rows t ht with ⟨u, hu, hsame⟩ | hnew
    · obtain rfl : u = t₀ := List.inj_on_of_nodup_map hids hu hstored (hsame.id.symm.trans hid.symm)
      refine Or.inr ⟨u, ht₀, hsame, ?_⟩
      have hwritten := h.written u ht₀
      rw [Book.updated_values h.keyed] at hwritten ⊢
      rw [hsame.id]
      cases hget : processor.inventoryBookTransactionsToUpdateMap.get u.id with
      | none => exact hsame
      | some v =>
        rw [hget] at hwritten
        exact hwritten
    · exact absurd (hid ▸ List.mem_map_of_mem hstored) hnew
  · refine Or.inl ?_
    rw [Book.updated_values h.keyed, OrderedMap.get_eq_none.2 hkey]
    rfl

/-- An update of the account commutes with selecting by the accounts of a transaction. -/
theorem Aims.filter_updated (h : Aims account s₀.inventoryBook.transactions processor)
    (hids : (s₀.inventoryBook.transactions.map Transaction.id).Nodup) (hs : Grown s₀ s)
    (hq : ReadsAccounts q) :
    (s.inventoryBook.transactions.map
        (Book.updated processor.inventoryBookTransactionsToUpdateMap.values)).filter q =
      (s.inventoryBook.transactions.filter q).map
        (Book.updated processor.inventoryBookTransactionsToUpdateMap.values) := by
  rw [List.filter_map]
  congr 1
  refine List.filter_congr fun t ht => ?_
  rw [Function.comp_apply]
  rcases h.updated_cases hids hs ht with hsame | ⟨t₀, -, hold, hnew⟩
  · rw [hsame]
  · rw [hq t₀ _ hnew.creditAccount hnew.debitAccount, hq t₀ _ hold.creditAccount hold.debitAccount]

/-- An update of the account leaves alone what selects none of its purchases, sales and returns. -/
theorem Aims.filter_frame (h : Aims account s₀.inventoryBook.transactions processor)
    (hids : (s₀.inventoryBook.transactions.map Transaction.id).Nodup) (hs : Grown s₀ s)
    (hq : ReadsAccounts q)
    (hapart : ∀ t ∈ tradeRows account s₀.inventoryBook.transactions, q t = false) :
    (s.inventoryBook.transactions.map
        (Book.updated processor.inventoryBookTransactionsToUpdateMap.values)).filter q =
      s.inventoryBook.transactions.filter q := by
  rw [h.filter_updated hids hs hq]
  conv_rhs => rw [← List.map_id (List.filter q _)]
  refine List.map_congr_left fun t ht => ?_
  obtain ⟨ht, hselected⟩ := List.mem_filter.1 ht
  rcases h.updated_cases hids hs ht with hsame | ⟨t₀, ht₀, hold, -⟩
  · exact hsame
  · rw [hq t₀ _ hold.creditAccount hold.debitAccount, hapart t₀ ht₀] at hselected
    cases hselected

/-- What selects none of the purchases of the account selects nothing that it creates. -/
theorem Aims.filter_created (h : Aims account s₀.inventoryBook.transactions processor)
    (hq : ReadsAccounts q)
    (hapart : ∀ t ∈ tradeRows account s₀.inventoryBook.transactions, q t = false) :
    (s.inventoryBook.transactions ++ Book.postAll env.inventoryId env.now
        processor.inventoryBookTransactionsToCreateMap.values).filter q =
      s.inventoryBook.transactions.filter q := by
  have hnone : (Book.postAll env.inventoryId env.now
      processor.inventoryBookTransactionsToCreateMap.values).filter q = [] := by
    refine List.filter_eq_nil_iff.2 fun t ht => ?_
    obtain ⟨k, u, hu, rfl⟩ := Book.mem_postAll ht
    obtain ⟨p, hp, hcredit, hdebit⟩ := h.created u hu
    rw [hq p (Book.post (env.inventoryId k) env.now u) hcredit hdebit, hapart p hp]
    exact Bool.false_ne_true
  rw [List.filter_append, hnone, List.append_nil]

theorem grown_created (hfresh : env.Fresh s₀) (hs : Grown s₀ s) :
    Grown s₀ (processor.fireBatchCreateInventoryBookTransactions env s) := by
  refine ⟨hs.refs, fun t ht => ?_⟩
  rcases List.mem_append.1 ht with ht | ht
  · exact hs.rows t ht
  · obtain ⟨k, u, -, rfl⟩ := Book.mem_postAll ht
    exact Or.inr fun hk => hfresh.inventoryIds.new k (List.mem_cons_of_mem _ hk)

theorem Aims.grown_updated (h : Aims account s₀.inventoryBook.transactions processor)
    (hids : (s₀.inventoryBook.transactions.map Transaction.id).Nodup) (hs : Grown s₀ s) :
    Grown s₀ (processor.fireBatchUpdateInventoryBookTransactions s) := by
  refine ⟨hs.refs, fun t ht => ?_⟩
  obtain ⟨u, hu, rfl⟩ := List.mem_map.1 ht
  rcases h.updated_cases hids hs hu with hsame | ⟨t₀, ht₀, -, hnew⟩
  · rw [hsame]
    exact hs.rows u hu
  · exact Or.inl ⟨t₀, (List.mem_filter.1 ht₀).1, hnew⟩

/-! ### The calls of the account itself -/

variable {l : List Transaction}

theorem Sees.created (hsees : Sees l goodAccountId account t s) :
    Sees l goodAccountId account (processor.fireBatchCreateInventoryBookTransactions env t)
      (processor.fireBatchCreateInventoryBookTransactions env s) where
  rows := by
    show accountRows account (s.inventoryBook.transactions ++ _) =
      accountRows account (t.inventoryBook.transactions ++ _)
    unfold accountRows
    rw [List.filter_append, List.filter_append]
    exact congrArg (· ++ _) hsees.rows
  view :=
    { rows := by
        show tradeRows account (s.inventoryBook.transactions ++ _) =
          tradeRows account (t.inventoryBook.transactions ++ _)
        unfold tradeRows
        rw [List.filter_append, List.filter_append]
        exact congrArg (· ++ _) hsees.view.rows
      info := hsees.view.info
      accounts := hsees.view.accounts
      linkable := hsees.view.linkable }
  found := hsees.found
  costs := hsees.costs

theorem Sees.updated (h : Aims account s₀.inventoryBook.transactions processor)
    (hids : (s₀.inventoryBook.transactions.map Transaction.id).Nodup) (ht : Grown s₀ t)
    (hs : Grown s₀ s) (hsees : Sees l goodAccountId account t s) :
    Sees l goodAccountId account (processor.fireBatchUpdateInventoryBookTransactions t)
      (processor.fireBatchUpdateInventoryBookTransactions s) where
  rows := by
    refine (h.filter_updated hids hs (readsAccounts_moves account)).trans ?_
    refine Eq.trans ?_ (h.filter_updated hids ht (readsAccounts_moves account)).symm
    exact congrArg _ hsees.rows
  view :=
    { rows := by
        refine (h.filter_updated hids hs (readsAccounts_tradeRows account)).trans ?_
        refine Eq.trans ?_ (h.filter_updated hids ht (readsAccounts_tradeRows account)).symm
        exact congrArg _ hsees.view.rows
      info := hsees.view.info
      accounts := hsees.view.accounts
      linkable := hsees.view.linkable }
  found := hsees.found
  costs := hsees.costs

theorem Sees.posted (hsees : Sees l goodAccountId account t s) :
    Sees l goodAccountId account (processor.fireBatchCreateFinancialBookTransactions env t)
      (processor.fireBatchCreateFinancialBookTransactions env s) where
  rows := hsees.rows
  view :=
    { rows := hsees.view.rows
      info := hsees.view.info
      accounts := hsees.view.accounts
      linkable := by
        show linkable (s.financialBook.transactions ++ _) =
          linkable (t.financialBook.transactions ++ _)
        rw [linkable_append, linkable_append, hsees.view.linkable] }
  found := hsees.found
  costs := by
    show (s.financialBook.transactions ++ _).filter _ = (t.financialBook.transactions ++ _).filter _
    rw [List.filter_append, List.filter_append, hsees.costs]

/-- The account is written back over what both states have of it. -/
theorem Sees.stored {P : Platform} {a : Account} (sales : List Transaction)
    (ha : t.inventoryBook.getAccount goodAccountId = some a)
    (hsees : Sees l goodAccountId account t s) :
    Sees l goodAccountId account
      { t with inventoryBook := storeLastCalcTxDate P t.inventoryBook a sales }
      { s with inventoryBook := storeLastCalcTxDate P s.inventoryBook a sales } where
  rows := by
    rw [storeLastCalcTxDate_transactions, storeLastCalcTxDate_transactions]
    exact hsees.rows
  view :=
    { rows := by
        rw [storeLastCalcTxDate_transactions, storeLastCalcTxDate_transactions]
        exact hsees.view.rows
      info := by
        rw [storeLastCalcTxDate_info, storeLastCalcTxDate_info]
        exact hsees.view.info
      accounts := hsees.view.accounts
      linkable := hsees.view.linkable }
  found := by
    have ha' : s.inventoryBook.getAccount goodAccountId = some a := hsees.found.trans ha
    show (storeLastCalcTxDate P s.inventoryBook a sales).getAccount goodAccountId =
      (storeLastCalcTxDate P t.inventoryBook a sales).getAccount goodAccountId
    rw [storeLastCalcTxDate_eq, storeLastCalcTxDate_eq]
    cases movedDate P a sales with
    | none => exact hsees.found
    | some date =>
      have hwritten : ∀ b : Book, b.getAccount goodAccountId = some a →
          (b.updateAccount (GoodAccount.setCOGSCalculationDate a (P.dateText date))).getAccount
            goodAccountId = some (GoodAccount.setCOGSCalculationDate a (P.dateText date)) :=
        fun _ hb => getAccount_updateAccount hb rfl rfl
      exact (hwritten _ ha').trans (hwritten _ ha).symm
  costs := hsees.costs

/-! ### The calls of another account -/

/-- The other account trades in nothing that moves this one. -/
def Apart (other account : String) (l : List Transaction) : Prop :=
  ∀ t ∈ tradeRows other l, t.moves account = false

theorem Sees.frame_created (h : Aims account' s₀.inventoryBook.transactions processor)
    (hapart : Apart account' account s₀.inventoryBook.transactions)
    (hsees : Sees l goodAccountId account t s) :
    Sees l goodAccountId account t (processor.fireBatchCreateInventoryBookTransactions env s) where
  rows := (h.filter_created (readsAccounts_moves account) hapart).trans hsees.rows
  view :=
    { rows := (h.filter_created (readsAccounts_tradeRows account) fun t ht => by
        rw [hapart t ht, Bool.false_and]).trans hsees.view.rows
      info := hsees.view.info
      accounts := hsees.view.accounts
      linkable := hsees.view.linkable }
  found := hsees.found
  costs := hsees.costs

theorem Sees.frame_updated (h : Aims account' s₀.inventoryBook.transactions processor)
    (hids : (s₀.inventoryBook.transactions.map Transaction.id).Nodup) (hs : Grown s₀ s)
    (hapart : Apart account' account s₀.inventoryBook.transactions)
    (hsees : Sees l goodAccountId account t s) :
    Sees l goodAccountId account t (processor.fireBatchUpdateInventoryBookTransactions s) where
  rows := (h.filter_frame hids hs (readsAccounts_moves account) hapart).trans hsees.rows
  view :=
    { rows := (h.filter_frame hids hs (readsAccounts_tradeRows account) fun t ht => by
        rw [hapart t ht, Bool.false_and]).trans hsees.view.rows
      info := hsees.view.info
      accounts := hsees.view.accounts
      linkable := hsees.view.linkable }
  found := hsees.found
  costs := hsees.costs

/-- What is posted for another account costs no sale of this one. -/
theorem Aims.not_costs (h : Aims account' s₀.inventoryBook.transactions processor)
    (hids : (s₀.inventoryBook.transactions.map Transaction.id).Nodup)
    (hapart : Apart account' account s₀.inventoryBook.transactions) :
    ∀ c ∈ Book.postAll env.financialId env.now
        processor.financialBookTransactionsToCreateMap.values,
      costsSale account s₀.inventoryBook.transactions c = false := by
  intro c hc
  obtain ⟨k, v, hv, rfl⟩ := Book.mem_postAll hc
  obtain ⟨-, -, sale, hsale, hmoves, hkind, hid⟩ := h.posted v hv
  rw [← Bool.not_eq_true, costsSale_iff]
  rintro ⟨u, hu, humoves, -, huid⟩
  have hsame : u.id = sale.id := by
    have hmem : u.id ∈ v.remoteIds := huid
    rwa [hid, List.mem_singleton] at hmem
  obtain rfl : u = sale := List.inj_on_of_nodup_map hids hu hsale hsame
  have hnot := hapart u (List.mem_filter.2 ⟨hu, by rw [hmoves, trades_of_sale hkind]; rfl⟩)
  rw [humoves] at hnot
  cases hnot

theorem Sees.frame_posted (h : Aims account' s₀.inventoryBook.transactions processor)
    (hids : (s₀.inventoryBook.transactions.map Transaction.id).Nodup)
    (hapart : Apart account' account s₀.inventoryBook.transactions)
    (hsees : Sees s₀.inventoryBook.transactions goodAccountId account t s) :
    Sees s₀.inventoryBook.transactions goodAccountId account t
      (processor.fireBatchCreateFinancialBookTransactions env s) where
  rows := hsees.rows
  view :=
    { rows := hsees.view.rows
      info := hsees.view.info
      accounts := hsees.view.accounts
      linkable := by
        have hnone : linkable (Book.postAll env.financialId env.now
            processor.financialBookTransactionsToCreateMap.values) = [] := by
          refine linkable_eq_nil fun c hc => ?_
          obtain ⟨k, v, hv, rfl⟩ := Book.mem_postAll hc
          obtain ⟨hinvoice, hnote, -⟩ := h.posted v hv
          exact ⟨hinvoice, hnote⟩
        show linkable (s.financialBook.transactions ++ Book.postAll _ _ _) = _
        rw [linkable_append, hnone, List.append_nil, hsees.view.linkable] }
  found := hsees.found
  costs := by
    have hnone : (Book.postAll env.financialId env.now
        processor.financialBookTransactionsToCreateMap.values).filter
          (costsSale account s₀.inventoryBook.transactions) = [] :=
      List.filter_eq_nil_iff.2 fun c hc => by simp [h.not_costs hids hapart c hc]
    show (s.financialBook.transactions ++ Book.postAll _ _ _).filter _ = _
    rw [List.filter_append, hnone, List.append_nil, hsees.costs]

/-- Updating an account does not change what finds another one. -/
theorem getAccount_updateAccount_other {b : Book} {key : String} {a g : Account}
    (hids : ((accountRefs b).map AccountRef.id).Nodup) (ha : a.ref ∈ accountRefs b)
    (hg : b.getAccount key = some g) (hne : g.id ≠ a.id) :
    (b.updateAccount a).getAccount key = some g := by
  have hrefs := accountRefs_updateAccount hids ha
  have hfound := getAccount_map_ref (b.updateAccount a) key
  rw [hrefs, ← getAccount_map_ref b key, hg] at hfound
  obtain ⟨x, hx, href⟩ := Option.map_eq_some_iff.1 hfound
  have hid : x.id = g.id := congrArg AccountRef.id href
  have hmem := (mem_updateAccount_iff (hid ▸ hne)).1 (Book.mem_of_getAccount hx)
  rw [hx, eq_of_id hids hmem (Book.mem_of_getAccount hg) hid]

theorem Sees.frame_stored {P : Platform} {a g : Account} (sales : List Transaction)
    (hids : ((accountRefs s.inventoryBook).map AccountRef.id).Nodup)
    (ha : a.ref ∈ accountRefs s.inventoryBook)
    (hg : s.inventoryBook.getAccount goodAccountId = some g) (hne : g.id ≠ a.id)
    (hsees : Sees l goodAccountId account t s) :
    Sees l goodAccountId account t
      { s with inventoryBook := storeLastCalcTxDate P s.inventoryBook a sales } where
  rows := by
    rw [storeLastCalcTxDate_transactions]
    exact hsees.rows
  view :=
    { rows := by
        rw [storeLastCalcTxDate_transactions]
        exact hsees.view.rows
      info := by
        rw [storeLastCalcTxDate_info]
        exact hsees.view.info
      accounts := hsees.view.accounts
      linkable := hsees.view.linkable }
  found := by
    rw [← hsees.found, hg]
    show (storeLastCalcTxDate P s.inventoryBook a sales).getAccount goodAccountId = some g
    rw [storeLastCalcTxDate_eq]
    cases movedDate P a sales with
    | none => exact hg
    | some date => exact getAccount_updateAccount_other hids ha hg hne
  costs := hsees.costs

end Writes

/-! ## Calculations of different accounts -/

/-- Calculations of different goods accounts of a book, none of them flagged, each with new
    ids. The account of the cost of goods sold exists. -/
structure Goods {ι : Type*} (e : ι → Encounter) (good : ι → Account) (s : State) : Prop where
  complete : Complete s.inventoryBook
  fresh : ∀ i, (e i).runEnv.Fresh s
  found : ∀ i, s.inventoryBook.getAccount (e i).goodAccountId = some (good i)
  notIncoming : ∀ i, (good i).type ≠ .incoming
  notOutgoing : ∀ i, (good i).type ≠ .outgoing
  current : ∀ i, GoodAccount.needsRebuild (good i) = false
  costOfSales : s.financialBook.getAccount cogsAccount ≠ none
  different : ∀ i j, i ≠ j → (good i).id ≠ (good j).id

section Runs

variable {ι : Type*} {P : Platform} {e : ι → Encounter} {good : ι → Account} {s₀ : State}

/-- The goods are traded apart: the other account of a trade is no good. -/
theorem Goods.apart (h : Goods e good s₀) {i j : ι} (hij : i ≠ j) :
    Apart (good j).name (good i).name s₀.inventoryBook.transactions := by
  have hnames : (good i).name ≠ (good j).name := by
    intro hname
    have href : (good i).ref = (good j).ref := List.inj_on_of_nodup_map h.complete.accountNames
      (ref_mem_of_getAccount (h.found i)) (ref_mem_of_getAccount (h.found j)) hname
    exact h.different i j hij (congrArg AccountRef.id href)
  have htype : ∀ k, ∀ t ∈ s₀.inventoryBook.transactions, ∀ r ∈ t.refs, r.name = (good k).name →
      r.type ≠ .incoming ∧ r.type ≠ .outgoing := by
    intro k t ht r hr hname
    rw [h.complete.wellFormed.refs t ht r hr _ (Book.mem_of_getAccount (h.found k)) hname]
    exact ⟨h.notIncoming k, h.notOutgoing k⟩
  intro t ht
  obtain ⟨hstored, htrades⟩ := List.mem_filter.1 ht
  simp only [Bool.and_eq_true, trades, Transaction.moves, Bool.or_eq_true, Option.any_eq_true,
    beq_iff_eq] at htrades
  have hrefs : ∀ r, t.creditAccount = some r ∨ t.debitAccount = some r → r ∈ t.refs := fun r =>
    Transaction.mem_refs.2
  rw [← Bool.not_eq_true]
  intro hmoves
  simp only [Transaction.moves, Bool.or_eq_true, Option.any_eq_true, beq_iff_eq] at hmoves
  obtain ⟨hj, ⟨q, hq, hqt⟩ | ⟨q, hq, hqt⟩⟩ := htrades
  · -- bought: both goods would be debited
    have hdebit : ∀ k, ((∃ r, t.creditAccount = some r ∧ r.name = (good k).name) ∨
        ∃ r, t.debitAccount = some r ∧ r.name = (good k).name) →
        ∃ r, t.debitAccount = some r ∧ r.name = (good k).name := by
      rintro k (⟨r, hr, hname⟩ | hr)
      · obtain rfl : r = q := Option.some.inj (hr.symm.trans hq)
        exact absurd hqt (htype k t hstored r (hrefs r (Or.inl hr)) hname).1
      · exact hr
    obtain ⟨r, hr, hri⟩ := hdebit i hmoves
    obtain ⟨r', hr', hrj⟩ := hdebit j hj
    obtain rfl : r = r' := Option.some.inj (hr.symm.trans hr')
    exact hnames (hri.symm.trans hrj)
  · -- sold or returned: both goods would be credited
    have hcredit : ∀ k, ((∃ r, t.creditAccount = some r ∧ r.name = (good k).name) ∨
        ∃ r, t.debitAccount = some r ∧ r.name = (good k).name) →
        ∃ r, t.creditAccount = some r ∧ r.name = (good k).name := by
      rintro k (hr | ⟨r, hr, hname⟩)
      · exact hr
      · obtain rfl : r = q := Option.some.inj (hr.symm.trans hq)
        obtain ⟨hin, hout⟩ := htype k t hstored r (hrefs r (Or.inr hr)) hname
        exact absurd hqt (not_or.2 ⟨hin, hout⟩)
    obtain ⟨r, hr, hri⟩ := hcredit i hmoves
    obtain ⟨r', hr', hrj⟩ := hcredit j hj
    obtain rfl : r = r' := Option.some.inj (hr.symm.trans hr')
    exact hnames (hri.symm.trans hrj)

/-- None of the calculations resets its account. -/
theorem Goods.calculates (h : Goods e good s₀) (i : ι) :
    planCalculation P (e i).collection (e i).runEnv s₀ (e i).goodAccountId (some (e i).toDate) ≠
      .ok .reset := by
  intro hplan
  obtain ⟨a, ha, hflag⟩ := planCalculation_reset hplan
  obtain rfl : a = good i := Option.some.inj (ha.symm.trans (h.found i))
  rw [h.current i] at hflag
  cases hflag

/-- What a call of a calculation does to the books, `t` being the books in which it is alone. -/
inductive Writes (P : Platform) (env : RunEnv) (goodAccountId : String) (a : Account)
    (l : List Transaction) (t : State) : (State → State) → Prop
  | nothing : Writes P env goodAccountId a l t id
  | create {processor : CalculateCostOfSalesProcessor} (haims : Aims a.name l processor) :
      Writes P env goodAccountId a l t (processor.fireBatchCreateInventoryBookTransactions env)
  | update {processor : CalculateCostOfSalesProcessor} (haims : Aims a.name l processor) :
      Writes P env goodAccountId a l t processor.fireBatchUpdateInventoryBookTransactions
  | post {processor : CalculateCostOfSalesProcessor} (haims : Aims a.name l processor) :
      Writes P env goodAccountId a l t (processor.fireBatchCreateFinancialBookTransactions env)
  | store (sales : List Transaction) (ha : t.inventoryBook.getAccount goodAccountId = some a) :
      Writes P env goodAccountId a l t fun s =>
        { s with inventoryBook := storeLastCalcTxDate P s.inventoryBook a sales }

theorem listTransactions_accountRows (book : Book) (a : Account) (day : Date) :
    listTransactions book a day = (accountRows a.name book.transactions).filter fun t =>
      decide (t.date < Menu.BotService.getBeforeDateIsoString day) := by
  unfold listTransactions accountRows Book.getTransactions
  rw [List.filter_filter]
  refine List.filter_congr fun t _ => ?_
  simp only [Menu.helper.getAccountQuery, Query.selects, Option.all_none, Option.all_some,
    Bool.and_true]
  ac_rfl

/-- What a calculation plans on a listing is read off what it sees. -/
theorem Sees.planListed {i : ι} {l : List Transaction} {goodAccountId account : String}
    {t s : State} (h : Sees l goodAccountId account t s) (a : Account)
    (transactions : List Transaction) :
    planListed P (e i) s a transactions = planListed P (e i) t a transactions := by
  unfold System.planListed planListing
  simp only [h.view.processSales]

/-- The next call of a calculation does the same where it sees the same. -/
theorem Goods.call (h : Goods e good s₀) {i : ι} {t s : State} {p : RunAt}
    (halone : AloneAt P (e i) s₀ t p)
    (hsees : Sees s₀.inventoryBook.transactions (e i).goodAccountId (good i).name t s) :
    ∃ w p', Writes P (e i).runEnv (e i).goodAccountId (good i) s₀.inventoryBook.transactions t w ∧
      runStep P (e i) s p = (w s, p') ∧ runStep P (e i) t p = (w t, p') := by
  have haims : ∀ {a sales processor}, planCalculation P (e i).collection (e i).runEnv s₀
      (e i).goodAccountId (some (e i).toDate) = .ok (.fire a sales processor) →
      a = good i ∧ Aims (good i).name s₀.inventoryBook.transactions processor := by
    intro a sales processor hplan
    obtain ⟨hpassed, -⟩ := planCalculation_fire hplan
    obtain rfl : a = good i := Option.some.inj (hpassed.account.symm.trans (h.found i))
    exact ⟨rfl, aims_of_fire h.complete.wellFormed (h.fresh i) hplan⟩
  cases halone with
  | start =>
    refine ⟨id, (runStep P (e i) s₀ .start).2, .nothing, ?_, ?_⟩
    · simp only [runStep, openAccount, hsees.found, h.found i]
      split
      · rfl
      · cases Menu.BotService.getFinancialBook (e i).collection
          (Menu.BotService.getExchangeCode (good i)) <;> rfl
    · simp only [runStep, openAccount, h.found i]
      split
      · rfl
      · cases Menu.BotService.getFinancialBook (e i).collection
          (Menu.BotService.getExchangeCode (good i)) <;> rfl
  | @opened a fb hopen hcalm =>
    obtain rfl : a = good i := Option.some.inj ((openAccount_ok hopen).1.symm.trans (h.found i))
    refine ⟨id, _, .nothing, ?_, rfl⟩
    have hlisted : listTransactions s.inventoryBook (good i) (e i).toDate =
        listTransactions s₀.inventoryBook (good i) (e i).toDate := by
      rw [listTransactions_accountRows, listTransactions_accountRows, hsees.rows]
    show (s, RunAt.listed (good i) (listTransactions s.inventoryBook (good i) (e i).toDate)) = _
    rw [hlisted]
    rfl
  | @listed a fb hopen hcalm =>
    have hcost : s.financialBook.getAccount cogsAccount ≠ none := by
      unfold Book.getAccount
      rw [hsees.view.accounts]
      exact h.costOfSales
    have hplan := planCalculation_eq (P := P) (e := e i) (s := s₀)
    rw [hopen] at hplan
    dsimp only at hplan
    rw [if_neg (by simp [hcalm])] at hplan
    by_cases hfires : ∃ b sales processor, planListed P (e i) s₀ a
        (listTransactions s₀.inventoryBook a (e i).toDate) = .ok (.fire b sales processor)
    · obtain ⟨b, sales, processor, hlisted⟩ := hfires
      obtain ⟨rfl, haims⟩ := haims (hplan.trans hlisted)
      refine ⟨_, .created (good i) (listTransactions s₀.inventoryBook a (e i).toDate) sales processor,
        .create haims, ?_, ?_⟩
      · rw [runStep_listed ((hsees.planListed _ _).trans hlisted), booksAfterListing_of_found hcost]
      · rw [runStep_listed hlisted, booksAfterListing_of_found h.costOfSales]
    · simp only [not_exists] at hfires
      refine ⟨id, .stopped (some (listTransactions s₀.inventoryBook a (e i).toDate)), .nothing, ?_, ?_⟩
      · rw [runStep_listed_stop fun b sales processor => by
          rw [hsees.planListed]
          exact hfires b sales processor, booksAfterListing_of_found hcost, id]
      · rw [runStep_listed_stop hfires, booksAfterListing_of_found h.costOfSales, id]
  | created hplan => exact ⟨_, _, .update (haims hplan).2, rfl, rfl⟩
  | updated hplan => exact ⟨_, _, .post (haims hplan).2, rfl, rfl⟩
  | fired hplan =>
    obtain ⟨rfl, -⟩ := haims hplan
    exact ⟨_, _, .store _ (h.found i), rfl, rfl⟩
  | ended hended => exact ⟨id, p, .nothing, runStep_ended hended _, runStep_ended hended _⟩
  | rebuild => exact ⟨id, .rebuild, .nothing, rfl, rfl⟩

/-- What calculations of the accounts leave of the books: transactions that they do not trade in
    stay as they are, and what is new in the financial book are costs of their sales. -/
structure RestKept (names : ι → String) (s₀ s : State) : Prop where
  rows : ∀ q, ReadsAccounts q →
    (∀ i, ∀ t ∈ tradeRows (names i) s₀.inventoryBook.transactions, q t = false) →
      s.inventoryBook.transactions.filter q = s₀.inventoryBook.transactions.filter q
  financial : ∃ posted, s.financialBook.transactions = s₀.financialBook.transactions ++ posted ∧
    ∀ c ∈ posted, ∃ i, costsSale (names i) s₀.inventoryBook.transactions c

/-- Every call keeps the books grown out of the first ones, with the rest untouched. -/
theorem Goods.writes_grown (h : Goods e good s₀) {i : ι} {t s : State} {w : State → State}
    (hw : Writes P (e i).runEnv (e i).goodAccountId (good i) s₀.inventoryBook.transactions t w)
    (hs : Grown s₀ s) : Grown s₀ (w s) := by
  cases hw with
  | nothing => exact hs
  | create => exact grown_created (h.fresh i) hs
  | update haims => exact haims.grown_updated h.complete.ids hs
  | post => exact ⟨hs.refs, hs.rows⟩
  | store sales =>
    refine ⟨?_, fun t ht => hs.rows t ?_⟩
    · show accountRefs (storeLastCalcTxDate P s.inventoryBook (good i) sales) = _
      rw [storeLastCalcTxDate_eq]
      cases movedDate P (good i) sales with
      | none => exact hs.refs
      | some date =>
        have hids : ((accountRefs s.inventoryBook).map AccountRef.id).Nodup :=
          hs.refs ▸ h.complete.accountIds
        have hmem : (good i).ref ∈ accountRefs s.inventoryBook := by
          rw [hs.refs]
          exact ref_mem_of_getAccount (h.found i)
        have hsame := accountRefs_updateAccount (a := GoodAccount.setCOGSCalculationDate (good i)
          (P.dateText date)) hids hmem
        exact hsame.trans hs.refs
    · rwa [storeLastCalcTxDate_transactions] at ht

theorem Goods.writes_restKept (h : Goods e good s₀) {i : ι} {t s : State} {w : State → State}
    (hw : Writes P (e i).runEnv (e i).goodAccountId (good i) s₀.inventoryBook.transactions t w)
    (hgrown : Grown s₀ s) (hs : RestKept (fun i => (good i).name) s₀ s) :
    RestKept (fun i => (good i).name) s₀ (w s) := by
  cases hw with
  | nothing => exact hs
  | create haims =>
    exact ⟨fun q hq hapart => (haims.filter_created hq (hapart i)).trans (hs.rows q hq hapart),
      hs.financial⟩
  | update haims =>
    exact ⟨fun q hq hapart => (haims.filter_frame h.complete.ids hgrown hq (hapart i)).trans
      (hs.rows q hq hapart), hs.financial⟩
  | @post processor haims =>
    obtain ⟨posted, hrows, hposted⟩ := hs.financial
    refine ⟨hs.rows, posted ++ Book.postAll (e i).runEnv.financialId (e i).runEnv.now
      processor.financialBookTransactionsToCreateMap.values, ?_, ?_⟩
    · show s.financialBook.transactions ++ Book.postAll _ _ _ = _
      rw [hrows, List.append_assoc]
    · intro c hc
      rcases List.mem_append.1 hc with hc | hc
      · exact hposted c hc
      · obtain ⟨k, v, hv, rfl⟩ := Book.mem_postAll hc
        obtain ⟨-, -, sale, hsale, hmoves, hkind, hid⟩ := haims.posted v hv
        refine ⟨i, costsSale_iff.2 ⟨sale, hsale, hmoves, hkind, ?_⟩⟩
        show sale.id ∈ v.remoteIds
        rw [hid]
        exact List.mem_singleton_self _
  | store sales =>
    refine ⟨fun q hq hapart => ?_, hs.financial⟩
    show (storeLastCalcTxDate P s.inventoryBook (good i) sales).transactions.filter q = _
    rw [storeLastCalcTxDate_transactions]
    exact hs.rows q hq hapart

/-- A call of a calculation does not touch what the calculation of another account sees. -/
theorem runs_separate (h : Goods e good s₀) :
    Separate (fun i => runStep P (e i))
      (fun s => Grown s₀ s ∧ RestKept (fun i => (good i).name) s₀ s)
      (fun i t p => AloneAt P (e i) s₀ t p ∧ Grown s₀ t)
      (fun i => Sees s₀.inventoryBook.transactions (e i).goodAccountId (good i).name) where
  alone := by
    rintro i t p ⟨halone, hgrown⟩
    obtain ⟨w, p', hw, -, hstep⟩ := h.call halone (.refl _ _ _ t)
    refine ⟨halone.step h.costOfSales, ?_⟩
    rw [hstep]
    exact h.writes_grown hw hgrown
  good := by
    rintro i t p s ⟨halone, -⟩ ⟨hgrown, hs⟩ hsees
    obtain ⟨w, p', hw, hstep, -⟩ := h.call halone hsees
    rw [hstep]
    exact ⟨h.writes_grown hw hgrown, h.writes_restKept hw hgrown hs⟩
  own := by
    rintro i t p s ⟨halone, ht⟩ ⟨hgrown, -⟩ hsees
    obtain ⟨w, p', hw, hstep, hstep'⟩ := h.call halone hsees
    rw [hstep, hstep']
    refine ⟨rfl, ?_⟩
    cases hw with
    | nothing => exact hsees
    | create => exact hsees.created
    | update haims => exact hsees.updated haims h.complete.ids ht hgrown
    | post => exact hsees.posted
    | store sales ha => exact hsees.stored sales ha
  frame := by
    rintro i j t u p s hij ⟨halone, -⟩ ⟨hgrown, -⟩ hother hsees
    obtain ⟨w, p', hw, hstep, -⟩ := h.call halone hother
    rw [hstep]
    have hapart := h.apart hij
    cases hw with
    | nothing => exact hsees
    | create haims => exact hsees.frame_created haims hapart
    | update haims => exact hsees.frame_updated haims h.complete.ids hgrown hapart
    | post haims => exact hsees.frame_posted haims h.complete.ids hapart
    | store sales =>
      have hids : ((accountRefs s.inventoryBook).map AccountRef.id).Nodup :=
        hgrown.refs ▸ h.complete.accountIds
      have hfound := getAccount_map_ref s.inventoryBook (e i).goodAccountId
      rw [hgrown.refs, ← getAccount_map_ref, h.found i] at hfound
      obtain ⟨g, hg, href⟩ := Option.map_eq_some_iff.1 hfound
      have hid : g.id = (good i).id := congrArg AccountRef.id href
      exact hsees.frame_stored sales hids (hgrown.refs ▸ ref_mem_of_getAccount (h.found j)) hg
        (hid ▸ h.different i j hij)

/-- **Calculations of different accounts do not interfere.** They may be under way at the same
    time, each making its calls in any order between those of the others. One that has made its
    six calls has left of its account what it leaves when nothing else happens: the transactions
    of the account, the account itself, and the costs of its sales in the financial book. What
    none of them trades in is untouched, and nothing else is posted. -/
theorem runs_do_not_interfere [DecidableEq ι] (h : Goods e good s₀) (schedule : List ι) :
    let s := (turns (fun i => runStep P (e i)) schedule (s₀, fun _ => .start)).1
    RestKept (fun i => (good i).name) s₀ s ∧ ∀ i, 6 ≤ schedule.count i →
      let r := (calculateCostOfSalesForAccount P (e i).collection (e i).runEnv s₀
        (e i).goodAccountId (some (e i).toDate)).1
      accountRows (good i).name s.inventoryBook.transactions =
          accountRows (good i).name r.inventoryBook.transactions ∧
        s.inventoryBook.getAccount (e i).goodAccountId =
          r.inventoryBook.getAccount (e i).goodAccountId ∧
        s.financialBook.transactions.filter
            (costsSale (good i).name s₀.inventoryBook.transactions) =
          r.financialBook.transactions.filter
            (costsSale (good i).name s₀.inventoryBook.transactions) := by
  intro s
  have hsep := runs_separate (P := P) h
  have hstart : ∀ i, AloneAt P (e i) s₀ s₀ .start ∧ Grown s₀ s₀ := fun _ => ⟨.start, .refl s₀⟩
  obtain ⟨⟨-, hrest⟩, hruns⟩ := hsep.turns schedule (c := (s₀, fun _ => .start))
    (t := fun _ => s₀) ⟨.refl s₀, ⟨fun _ _ _ => rfl, [], by simp⟩⟩ hstart (fun _ => .refl _ _ _ s₀)
  refine ⟨hrest, fun i hcount => ?_⟩
  obtain ⟨-, hsees⟩ := hruns i
  obtain ⟨halone, -⟩ := alone_holds hsep (schedule.count i) (c := (s₀, .start)) (hstart i)
  have hprogress := progress_alone (P := P) e i (schedule.count i) (s₀, .start)
  have hend : (alone (fun i => runStep P (e i)) i (schedule.count i)
      (s₀, RunAt.start)).2.progress = 6 := by
    refine le_antisymm (RunAt.progress_le _) (le_trans ?_ hprogress)
    show 6 ≤ min 6 (0 + schedule.count i)
    omega
  have hresult : (alone (fun i => runStep P (e i)) i (schedule.count i) (s₀, RunAt.start)).1 =
      (calculateCostOfSalesForAccount P (e i).collection (e i).runEnv s₀ (e i).goodAccountId
        (some (e i).toDate)).1 :=
    halone.result hend (h.calculates i)
  rw [hresult] at hsees
  exact ⟨hsees.rows, hsees.found, hsees.costs⟩

end Runs

namespace Sample

open Menu.Sample

/-- The widgets beside five gadgets, of which two are sold. -/
def twoTrades : State where
  inventoryBook := { twoGoods.inventoryBook with
    transactions := twoGoods.inventoryBook.transactions ++
      [{ Menu.Sample.purchase "3" "G1" 1 5 50 with debitAccount := some gadgets.ref },
        { Menu.Sample.sale "4" "S4" 3 2 40 with creditAccount := some gadgets.ref }] }
  financialBook := { start.financialBook with
    accounts := start.financialBook.accounts ++
      [{ id := "f-gadgets", name := "Gadgets", type := .asset },
        newCostOfSalesAccount (env 9)] }

/-- A calculation of the widgets and one of the gadgets. -/
def calculations (ofGadgets : Bool) : Encounter :=
  { lateSale with
    collection := collection
    runEnv := env 9
    goodAccountId := if ofGadgets then "a-gadgets" else "a-widgets"
    toDate := 9 }

theorem calculations_goods :
    Goods calculations (fun b => if b then gadgets else good) twoTrades where
  complete := ⟨by decide +kernel, by decide +kernel, by decide +kernel, by decide +kernel⟩
  fresh := fun _ => ⟨Book.freshIds_unaryId (by decide +kernel),
    Book.freshIds_unaryId (by decide +kernel), Book.freshIds_unaryId (by decide +kernel)⟩
  found := by
    intro b
    cases b <;> rfl
  notIncoming := by decide
  notOutgoing := by decide
  current := by decide
  costOfSales := by decide +kernel
  different := by decide

/-- The two take turns, call by call. -/
def turnByTurn : List Bool := List.flatten (List.replicate 6 [true, false])

/-- Each of the two posts one cost, as it does alone. -/
theorem runs_do_not_interfere_sample :
    let s := (turns (fun b => runStep decimalPlatform (calculations b)) turnByTurn
      (twoTrades, fun _ => .start)).1
    accountRows "Gadgets" s.inventoryBook.transactions =
        accountRows "Gadgets" (calculateCostOfSalesForAccount decimalPlatform collection (env 9)
          twoTrades "a-gadgets" (some 9)).1.inventoryBook.transactions ∧
      accountRows "Widgets" s.inventoryBook.transactions =
        accountRows "Widgets" (calculateCostOfSalesForAccount decimalPlatform collection (env 9)
          twoTrades "a-widgets" (some 9)).1.inventoryBook.transactions ∧
      (s.financialBook.transactions.filter (costsSale "Gadgets"
        twoTrades.inventoryBook.transactions)).length = 1 := by
  obtain ⟨-, hruns⟩ := runs_do_not_interfere (P := decimalPlatform) calculations_goods turnByTurn
  obtain ⟨hgadgets, -, hcosts⟩ := hruns true (by decide)
  obtain ⟨hwidgets, -⟩ := hruns false (by decide)
  refine ⟨hgadgets, hwidgets, (congrArg List.length hcosts).trans ?_⟩
  decide +kernel

end Sample

end InventoryBot.System
