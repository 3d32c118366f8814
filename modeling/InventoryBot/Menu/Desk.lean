import InventoryBot.Menu.CalculateCostOfSales
import InventoryBot.Lib.Rows
import Mathlib.Logic.Relation

/-!
# The moves of a calculation

An abstract machine for one calculation. Its state, a `Desk`, shows what the batches are
going to write, as if they had been written already: the stored inventory transactions
with the queued updates in place, the inventory transactions to be created and the cost of
sales transactions to be posted. A move applies one credit note to one purchase, takes one
purchase in full or in part for the sale in hand, or opens or closes a sale.

The loops of `CalculateCostOfSalesService` are sequences of such moves
(`InventoryBot.Menu.DeskRefinement`), so a property of every move is a property of every
calculation.
-/

namespace InventoryBot.Menu

open Lib CostOfSalesService

/-- The stored transactions after `b` was written over the one with its id. -/
abbrev overwrite (b : Transaction) (l : List Transaction) : List Transaction :=
  replaceRow Transaction.id b l

/-- The sale in hand and what has been gathered for it. -/
structure SaleInHand where
  sale : Transaction
  soldQuantity : ℚ
  saleCost : ℚ
  purchaseLogEntries : List PurchaseLogEntry

/-- What the batches of a calculation are going to write. -/
structure Desk where
  stored : List Transaction
  created : List Transaction := []
  posted : List Transaction := []
  current : Option SaleInHand := none

/-- The desk at the start of a calculation. -/
def Desk.start (store : List Transaction) : Desk := { stored := store }

/-- What a purchase is worth when a sale reaches it: its cost with the amounts that have not
    been folded in before. -/
structure Valued (P : Platform) (financialBook : Book) (p : Transaction) (amounts : LinkedAmounts)
    (cost : ℚ) : Prop where
  unfolded : unfoldedAmounts P financialBook p = .ok amounts
  cost_eq : ∃ transactionCost, P.newAmount p.totalCost = .ok transactionCost ∧
    cost = transactionCost + amounts.additionalCosts - amounts.creditNotesAmount

/-- No sale has processed the purchase: it carries none of the two properties that a sale leaves
    on it. -/
def Unprocessed (p : Transaction) : Prop := p.creditNote = none ∧ p.additionalCosts = none

instance (p : Transaction) : Decidable (Unprocessed p) :=
  inferInstanceAs (Decidable (_ ∧ _))

/-- The linked amounts depend on the account, the date and the code of the purchase. -/
theorem getAdditionalCostsAndCreditNotes_congr {P : Platform} {fb : Book}
    {p p' : Transaction} (h : SameIdentity p p') :
    getAdditionalCostsAndCreditNotes P fb p' = getAdditionalCostsAndCreditNotes P fb p := by
  unfold getAdditionalCostsAndCreditNotes
  rw [h.debitAccount, h.date, h.purchaseCode]

theorem markProcessed_processed {P : Platform} {p : Transaction} {amounts : LinkedAmounts}
    (quantity : ℚ) : ¬Unprocessed (markProcessed P quantity amounts p) :=
  fun h => by simp [Unprocessed, markProcessed] at h

/-- The quantity `creditNotesQuantity` that the code records with a purchase. -/
def RecordedQuantity (P : Platform) (p : Transaction) (quantity : ℚ) : Prop :=
  ∃ originalQuantity, P.newAmount p.originalQuantity = .ok originalQuantity ∧
    quantity = P.toNumber (originalQuantity - p.amount)

/-- A purchase after a credit note was applied to it. -/
def credited (P : Platform) (note p : Transaction) : Transaction :=
  { p with amount := p.amount - P.toNumber note.amount }

/-- A credit note after it was applied to its purchase. -/
def applied (note : Transaction) : Transaction := { note with checked := true }

/-- A purchase taken in full for a sale. -/
def taken (P : Platform) (sale p : Transaction) (quantity cost : ℚ) (amounts : LinkedAmounts) :
    Transaction :=
  markProcessed P quantity amounts
    (liquidatePurchase cost (getLiquidationLog sale (P.div cost p.amount)) p)

/-- A purchase after `sold` of it was taken for a sale. -/
def reduced (P : Platform) (p : Transaction) (sold quantity cost : ℚ) (amounts : LinkedAmounts) :
    Transaction :=
  markProcessed P quantity amounts
    (reducePurchase (p.amount - sold) (cost - sold * P.div cost p.amount) p)

/-- The record of the part of a purchase that was taken for a sale. -/
def splitOff (P : Platform) (sale p : Transaction) (sold cost : ℚ) (code remoteId : String) :
    Transaction :=
  splitPurchase sold (sold * P.div cost p.amount)
    (getLiquidationLog sale (P.div cost p.amount)) code remoteId p

/-- A transaction of a kind in the listing of an account before a date. -/
structure InListing (kind : Transaction → Bool) (account : String) (before : Date)
    (stored : List Transaction) (t : Transaction) : Prop where
  stored : t ∈ stored
  moves : t.moves account
  date : t.date < before
  kind : kind t

/-- A transaction that stays stored stays in the listing. -/
theorem InListing.keep {kind : Transaction → Bool} {account : String} {before : Date}
    {stored stored' : List Transaction} {t : Transaction}
    (h : InListing kind account before stored t) (ht : t ∈ stored') :
    InListing kind account before stored' t :=
  { h with stored := ht }

/-- One move of a calculation over the listing of `account` before the date `before`, against
    the financial book `fb`. `closes` restricts the quantities that may be left over when a sale
    is closed. -/
inductive Move (P : Platform) (env : RunEnv) (fb : Book) (digits : ℕ) (account : String)
    (before : Date) (closes : ℚ → Prop) : Desk → Desk → Prop
  | creditNote {d : Desk} {p note : Transaction} {code number : String}
      (hp : InListing BotService.isPurchase account before d.stored p)
      (hunchecked : p.checked = false) (hcode : p.purchaseCode = some code)
      (hnote : InListing BotService.isCreditNote account before d.stored note)
      (hopen : note.checked = false) (hother : note.id ≠ p.id)
      (hlink : note.purchaseCode = some code) (hnumber : note.creditNote = some number)
      (hleft : 0 < P.toNumber (p.amount - P.toNumber note.amount)) (hidle : d.current = none) :
      Move P env fb digits account before closes d
        { d with
          stored := overwrite (applied note) (overwrite (credited P note p) d.stored)
          created := d.created ++ [splitCreditNote (P.toNumber note.amount) code number p] }
  | openSale {d : Desk} {sale : Transaction}
      (hsale : InListing BotService.isSale account before d.stored sale)
      (hopen : sale.checked = false) (hidle : d.current = none) :
      Move P env fb digits account before closes d
        { d with current := some ⟨sale, sale.amount, 0, []⟩ }
  | take {d : Desk} {c : SaleInHand} {p : Transaction} {quantity cost : ℚ}
      {amounts : LinkedAmounts} (hcurrent : d.current = some c)
      (hp : InListing BotService.isPurchase account before d.stored p)
      (hunchecked : p.checked = false) (hquantity : RecordedQuantity P p quantity)
      (hvalued : Valued P fb p amounts cost)
      (hamount : p.amount ≠ 0) (hsold : c.soldQuantity = c.sale.amount ∨ c.soldQuantity ≠ 0)
      (hle : p.amount ≤ c.soldQuantity) :
      Move P env fb digits account before closes d
        { d with
          stored := overwrite (taken P c.sale p quantity cost amounts) d.stored
          current := some
            { c with
              soldQuantity := c.soldQuantity - p.amount
              saleCost := c.saleCost + cost
              purchaseLogEntries := c.purchaseLogEntries ++
                [getPurchaseLog p.amount (P.div cost p.amount) p] } }
  | split {d : Desk} {c : SaleInHand} {p : Transaction} {quantity cost : ℚ}
      {amounts : LinkedAmounts} {code : String} {k : ℕ} (hcurrent : d.current = some c)
      (hp : InListing BotService.isPurchase account before d.stored p)
      (hunchecked : p.checked = false) (hquantity : RecordedQuantity P p quantity)
      (hvalued : Valued P fb p amounts cost)
      (hamount : p.amount ≠ 0) (hsold : c.soldQuantity = c.sale.amount ∨ c.soldQuantity ≠ 0)
      (hlt : c.soldQuantity < p.amount) (hcode : p.purchaseCode = some code) :
      Move P env fb digits account before closes d
        { d with
          stored := overwrite (reduced P p c.soldQuantity quantity cost amounts) d.stored
          created := d.created ++ [splitOff P c.sale p c.soldQuantity cost code (env.uuid k)]
          current := some
            { c with
              soldQuantity := 0
              saleCost := c.saleCost + c.soldQuantity * P.div cost p.amount
              purchaseLogEntries := c.purchaseLogEntries ++
                [getPurchaseLog c.soldQuantity (P.div cost p.amount) p] } }
  | closeSale {d : Desk} {c : SaleInHand} (hcurrent : d.current = some c)
      (hsale : InListing BotService.isSale account before d.stored c.sale)
      (hopen : c.sale.checked = false) (hcloses : closes c.soldQuantity) :
      Move P env fb digits account before closes d
        { d with
          stored := if P.round c.soldQuantity digits = 0 then
              overwrite (settleSale c.saleCost c.purchaseLogEntries c.sale) d.stored
            else d.stored
          posted := d.posted ++ [costOfSaleTransaction P env fb c.sale c.saleCost]
          current := none }

/-- A sequence of moves. -/
abbrev Moves (P : Platform) (env : RunEnv) (fb : Book) (digits : ℕ) (account : String)
    (before : Date) (closes : ℚ → Prop) : Desk → Desk → Prop :=
  Relation.ReflTransGen (Move P env fb digits account before closes)

/-! ## What every move keeps -/

section Moves

variable {P : Platform} {env : RunEnv} {fb : Book} {digits : ℕ} {account : String} {before : Date}
  {closes : ℚ → Prop} {d d' : Desk}

/-- What every move keeps is kept by a sequence of moves. -/
theorem Moves.preserves {I : Desk → Prop}
    (hstep : ∀ d d', Move P env fb digits account before closes d d' → I d → I d')
    (h : Moves P env fb digits account before closes d d') (hd : I d) : I d' := by
  induction h with
  | refl => exact hd
  | tail _ hmove ih => exact hstep _ _ hmove ih

/-- Moves keep the stored ids and their order. -/
theorem Move.ids (h : Move P env fb digits account before closes d d') :
    d'.stored.map Transaction.id = d.stored.map Transaction.id := by
  cases h with
  | creditNote => simp
  | openSale => rfl
  | take => simp
  | split => simp
  | closeSale =>
    dsimp only
    split <;> simp

theorem Moves.ids (h : Moves P env fb digits account before closes d d') :
    d'.stored.map Transaction.id = d.stored.map Transaction.id :=
  h.preserves (I := fun e => e.stored.map Transaction.id = d.stored.map Transaction.id)
    (fun _ _ hmove he => hmove.ids.trans he) rfl

@[simp] theorem settleSale_id (cost : ℚ) (entries : List PurchaseLogEntry) (sale : Transaction) :
    (settleSale cost entries sale).id = sale.id := by
  unfold settleSale
  split <;> rfl

theorem settleSale_cases (cost : ℚ) (entries : List PurchaseLogEntry) (sale : Transaction) :
    settleSale cost entries sale = sale ∨ settleSale cost entries sale =
      { sale with totalCost := some cost, purchaseLog := some entries, checked := true } := by
  unfold settleSale
  split
  · exact Or.inr rfl
  · exact Or.inl rfl

theorem mem_overwrite {b t : Transaction} {l : List Transaction} (h : t ∈ overwrite b l) :
    t = b ∨ t ∈ l := by
  rcases mem_replaceRow.1 h with ⟨rfl, -⟩ | ⟨ht, -⟩
  · exact Or.inl rfl
  · exact Or.inr ht

/-- How a move rewrites a stored transaction. -/
inductive Written (P : Platform) : Transaction → Transaction → Prop
  | credited {p note : Transaction} (hp : BotService.isPurchase p) (hunchecked : p.checked = false)
      (hleft : 0 < P.toNumber (p.amount - P.toNumber note.amount)) : Written P p (credited P note p)
  | applied {note : Transaction} (hnote : BotService.isCreditNote note)
      (hopen : note.checked = false) : Written P note (applied note)
  | taken {p sale : Transaction} {quantity cost : ℚ} {amounts : LinkedAmounts}
      (hp : BotService.isPurchase p) (hunchecked : p.checked = false) :
      Written P p (taken P sale p quantity cost amounts)
  | reduced {p : Transaction} {sold quantity cost : ℚ} {amounts : LinkedAmounts}
      (hp : BotService.isPurchase p) (hunchecked : p.checked = false) (hlt : sold < p.amount) :
      Written P p (reduced P p sold quantity cost amounts)
  | settled {sale : Transaction} {cost : ℚ} {entries : List PurchaseLogEntry}
      (hsale : BotService.isSale sale) (hopen : sale.checked = false) :
      Written P sale (settleSale cost entries sale)

/-- How a move splits a transaction off a purchase. -/
inductive SplitFrom (P : Platform) : Transaction → Transaction → Prop
  | creditNote {p : Transaction} {quantity : ℚ} {code number : String}
      (hp : BotService.isPurchase p) : SplitFrom P p (splitCreditNote quantity code number p)
  | sale {p sale : Transaction} {sold cost : ℚ} {code remoteId : String}
      (hp : BotService.isPurchase p) (hlt : sold < p.amount) :
      SplitFrom P p (splitOff P sale p sold cost code remoteId)

/-- A stored transaction after a move was stored before, or is one rewritten. -/
theorem Move.stored_cases (h : Move P env fb digits account before closes d d') {t : Transaction}
    (ht : t ∈ d'.stored) : t ∈ d.stored ∨ ∃ p ∈ d.stored, Written P p t := by
  cases h with
  | creditNote hp hunchecked _ hnote hopen _ _ _ hleft =>
    rcases mem_overwrite ht with rfl | ht
    · exact Or.inr ⟨_, hnote.stored, .applied hnote.kind hopen⟩
    · rcases mem_overwrite ht with rfl | ht
      · exact Or.inr ⟨_, hp.stored, .credited hp.kind hunchecked hleft⟩
      · exact Or.inl ht
  | openSale => exact Or.inl ht
  | take _ hp hunchecked =>
    rcases mem_overwrite ht with rfl | ht
    · exact Or.inr ⟨_, hp.stored, .taken hp.kind hunchecked⟩
    · exact Or.inl ht
  | split _ hp hunchecked _ _ _ _ hlt =>
    rcases mem_overwrite ht with rfl | ht
    · exact Or.inr ⟨_, hp.stored, .reduced hp.kind hunchecked hlt⟩
    · exact Or.inl ht
  | closeSale _ hsale hopen =>
    dsimp only at ht
    split at ht
    · rcases mem_overwrite ht with rfl | ht
      · exact Or.inr ⟨_, hsale.stored, .settled hsale.kind hopen⟩
      · exact Or.inl ht
    · exact Or.inl ht

/-- What rewriting does not change about the stored transactions can be read before a move. -/
theorem Move.map_stored {β : Type} {g : Transaction → β}
    (hids : (d.stored.map Transaction.id).Nodup)
    (hg : ∀ p ∈ d.stored, p.moves account → ∀ t, Written P p t → g t = g p)
    (h : Move P env fb digits account before closes d d') : d'.stored.map g = d.stored.map g := by
  have hone : ∀ {l : List Transaction} {p b : Transaction}, (l.map Transaction.id).Nodup → p ∈ l →
      p.id = b.id → g b = g p → (overwrite b l).map g = l.map g := by
    intro l p b hl hp hid hb
    refine map_replaceRow_congr g fun a ha hk => ?_
    obtain rfl : a = p := List.inj_on_of_nodup_map hl ha hp (hk.trans hid.symm)
    exact hb.symm
  cases h with
  | @creditNote p note code number hp hunchecked _ hnote hopen hother _ _ hleft =>
    have hnodup : ((overwrite (credited P note p) d.stored).map Transaction.id).Nodup := by
      simpa using hids
    have hstill : note ∈ overwrite (credited P note p) d.stored :=
      mem_replaceRow_of_ne hnote.stored hother
    refine (hone (b := applied note) hnodup hstill rfl ?_).trans
      (hone (b := credited P note p) hids hp.stored rfl ?_)
    · exact hg _ hnote.stored hnote.moves _ (.applied hnote.kind hopen)
    · exact hg _ hp.stored hp.moves _ (.credited hp.kind hunchecked hleft)
  | openSale => rfl
  | take _ hp hunchecked =>
    exact hone hids hp.stored rfl (hg _ hp.stored hp.moves _ (.taken hp.kind hunchecked))
  | split _ hp hunchecked _ _ _ _ hlt =>
    exact hone hids hp.stored rfl (hg _ hp.stored hp.moves _ (.reduced hp.kind hunchecked hlt))
  | closeSale _ hsale hopen =>
    dsimp only
    split
    · exact hone hids hsale.stored (settleSale_id _ _ _).symm
        (hg _ hsale.stored hsale.moves _ (.settled hsale.kind hopen))
    · rfl

/-- A transaction to be created after a move was to be created before, or is split off. -/
theorem Move.created_cases (h : Move P env fb digits account before closes d d') {t : Transaction}
    (ht : t ∈ d'.created) : t ∈ d.created ∨ ∃ p ∈ d.stored, SplitFrom P p t := by
  cases h with
  | creditNote hp =>
    rcases List.mem_append.1 ht with ht | ht
    · exact Or.inl ht
    · rw [List.mem_singleton.1 ht]
      exact Or.inr ⟨_, hp.stored, .creditNote hp.kind⟩
  | openSale => exact Or.inl ht
  | take => exact Or.inl ht
  | split _ hp _ _ _ _ _ hlt =>
    rcases List.mem_append.1 ht with ht | ht
    · exact Or.inl ht
    · rw [List.mem_singleton.1 ht]
      exact Or.inr ⟨_, hp.stored, .sale hp.kind hlt⟩
  | closeSale => exact Or.inl ht

/-- A stored transaction comes by rewriting from one that was stored before. -/
theorem Moves.stored_trace (h : Moves P env fb digits account before closes d d') :
    ∀ t' ∈ d'.stored, ∃ t ∈ d.stored, Relation.ReflTransGen (Written P) t t' := by
  induction h with
  | refl => exact fun t ht => ⟨t, ht, .refl⟩
  | tail _ hmove ih =>
    intro t' ht'
    rcases hmove.stored_cases ht' with ht | ⟨p, hp, hw⟩
    · exact ih t' ht
    · obtain ⟨t, ht, htrace⟩ := ih p hp
      exact ⟨t, ht, htrace.tail hw⟩

/-- What rewriting and splitting keep holds of all inventory transactions of a desk. -/
theorem Moves.forall_rows {Q : Transaction → Prop} (hwritten : ∀ p t, Written P p t → Q p → Q t)
    (hsplit : ∀ p t, SplitFrom P p t → Q p → Q t)
    (h : Moves P env fb digits account before closes d d')
    (hd : ∀ t, t ∈ d.stored ∨ t ∈ d.created → Q t) : ∀ t, t ∈ d'.stored ∨ t ∈ d'.created → Q t := by
  refine h.preserves (I := fun e => ∀ t, t ∈ e.stored ∨ t ∈ e.created → Q t) ?_ hd
  rintro d d' hmove hd t (ht | ht)
  · rcases hmove.stored_cases ht with ht | ⟨p, hp, hw⟩
    · exact hd t (Or.inl ht)
    · exact hwritten p t hw (hd p (Or.inl hp))
  · rcases hmove.created_cases ht with ht | ⟨p, hp, hs⟩
    · exact hd t (Or.inr ht)
    · exact hsplit p t hs (hd p (Or.inl hp))

/-- Rewriting keeps the identity of a transaction. -/
theorem Written.sameIdentity {p t : Transaction} (h : Written P p t) : SameIdentity p t := by
  cases h with
  | settled =>
    unfold settleSale
    split <;> exact ⟨rfl, rfl, rfl, rfl, rfl, rfl, rfl, rfl, rfl, rfl⟩
  | _ => exact ⟨rfl, rfl, rfl, rfl, rfl, rfl, rfl, rfl, rfl, rfl⟩

/-- Only unchecked transactions are rewritten. -/
theorem Written.unchecked {p t : Transaction} (h : Written P p t) : p.checked = false := by
  cases h <;> assumption

/-- A rewritten transaction is a purchase, a credit note or a sale. -/
theorem Written.kind {p t : Transaction} (h : Written P p t) :
    BotService.isPurchase p ∨ BotService.isCreditNote p ∨ BotService.isSale p := by
  cases h with
  | credited hp => exact Or.inl hp
  | applied hnote => exact Or.inr (Or.inl hnote)
  | taken hp => exact Or.inl hp
  | reduced hp => exact Or.inl hp
  | settled hsale => exact Or.inr (Or.inr hsale)

/-- What a split takes over from its purchase, and what it lacks. -/
structure IsSplit (p t : Transaction) : Prop where
  creditAccount : t.creditAccount = p.creditAccount
  debitAccount : t.debitAccount = p.debitAccount
  date : t.date = p.date
  parentId : t.parentId = some p.id
  checked : t.checked = true
  originalQuantity : t.originalQuantity = none
  goodPurchaseCost : t.goodPurchaseCost = none
  purchaseLog : t.purchaseLog = none
  additionalCosts : t.additionalCosts = none

theorem SplitFrom.isSplit {p t : Transaction} (h : SplitFrom P p t) : IsSplit p t := by
  cases h <;> exact ⟨rfl, rfl, rfl, rfl, rfl, rfl, rfl, rfl, rfl⟩

theorem SplitFrom.isPurchase {p t : Transaction} (h : SplitFrom P p t) :
    BotService.isPurchase p := by
  cases h <;> assumption

theorem IsSplit.moves {p t : Transaction} (h : IsSplit p t) (account : String) :
    t.moves account = p.moves account := by
  rw [Transaction.moves, Transaction.moves, h.creditAccount, h.debitAccount]

theorem sameIdentity_of_trace {t t' : Transaction} (h : Relation.ReflTransGen (Written P) t t') :
    SameIdentity t t' := by
  induction h with
  | refl => exact .refl t
  | tail _ hw ih => exact ih.trans hw.sameIdentity

/-- Rewriting keeps what a transaction is sorted by. -/
theorem order_of_trace {t t' : Transaction} (h : Relation.ReflTransGen (Written P) t t') :
    t'.order = t.order ∧ t'.createdAt = t.createdAt := by
  induction h with
  | refl => exact ⟨rfl, rfl⟩
  | tail _ hw ih =>
    cases hw with
    | settled =>
      unfold settleSale
      split <;> exact ih
    | _ => exact ih

/-- A transaction that moves are going to create is a split of a stored purchase. -/
theorem Moves.created_trace (h : Moves P env fb digits account before closes d d') :
    ∀ t ∈ d'.created, t ∈ d.created ∨
      ∃ p ∈ d.stored, ∃ p', SameIdentity p p' ∧ SplitFrom P p' t := by
  induction h with
  | refl => exact fun t ht => Or.inl ht
  | tail hmoves hmove ih =>
    intro t ht
    rcases hmove.created_cases ht with ht | ⟨p', hp', hs⟩
    · exact ih t ht
    · obtain ⟨p, hp, htrace⟩ := Moves.stored_trace hmoves p' hp'
      exact Or.inr ⟨p, hp, p', sameIdentity_of_trace htrace, hs⟩

end Moves

end InventoryBot.Menu
