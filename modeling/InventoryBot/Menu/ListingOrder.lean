import InventoryBot.Menu.FifoOrder
import InventoryBot.Menu.Retry

/-!
# The order of the listing does not matter

The iterator may yield the transactions of an account in any order. With different purchase
codes, different numbers of credit notes and a comparator that orders the open sales and the open
purchases, a calculation ends alike on all of them and writes the same.

* `processCreditNotes_updates`: which updates the loop over the credit notes queues.
* `FifoTotal`, `sortFIFO_eq_of_perm`: sorting forgets the order of the listing.
* `planListing_reordered`: the plans on two orders of a listing.
* `listing_order_independent`: the calculations on two orders of the inventory transactions.
-/

namespace InventoryBot.Menu

open Lib CostOfSalesService

/-! ## What the credit notes queue -/

section CreditNotes

variable {P : Platform} {env : RunEnv} {account : String} {before : Date} {store : List Transaction}
  {numbers : List String}

/-- The updates after one credit note was applied to a purchase. -/
theorem get_afterCreditNote (note p : Transaction) (code number id : String)
    (processor : CalculateCostOfSalesProcessor) :
    (afterCreditNote P note p code number processor).inventoryBookTransactionsToUpdateMap.get id =
      if id = note.id then some (applied note)
      else if id = p.id then some (credited P note p)
      else processor.inventoryBookTransactionsToUpdateMap.get id :=
  (OrderedMap.get_set _ _ _ _).trans (if_congr Iff.rfl rfl (OrderedMap.get_set _ _ _ _))

/-- A purchase that no credit note names stays as it is, the others are queued as the loop leaves
    them, and nothing else is queued but the credit notes. -/
theorem processCreditNotes_updates :
    ∀ {notes : List (Option String × Transaction)}
      {purchases purchases' : OrderedMap (Option String) Transaction}
      {processor processor' : CalculateCostOfSalesProcessor} {d : Desk},
      processCreditNotes P notes purchases processor = .ok (.done purchases' processor') →
      NotesInvariant env account before store numbers notes purchases processor d →
      (∀ k, (∀ e ∈ notes, e.2.purchaseCode ≠ k) → purchases'.get k = purchases.get k) ∧
        (∀ k p, purchases.get k = some p → (∃ e ∈ notes, e.2.purchaseCode = k) →
          processor'.inventoryBookTransactionsToUpdateMap.get p.id = purchases'.get k) ∧
        ∀ id, (∀ e ∈ notes, e.2.purchaseCode ∈ purchases.keys → e.2.id ≠ id) →
          (∀ k p, purchases.get k = some p → p.id = id → ∀ e ∈ notes, e.2.purchaseCode ≠ k) →
          processor'.inventoryBookTransactionsToUpdateMap.get id =
            processor.inventoryBookTransactionsToUpdateMap.get id := by
  intro notes
  induction notes with
  | nil =>
    intro purchases purchases' processor processor' d h _
    cases h
    exact ⟨fun _ _ => rfl, by simp, fun _ _ _ => rfl⟩
  | cons e notes ih =>
    obtain ⟨creditNote, note⟩ := e
    intro purchases purchases' processor processor' d h hd
    have hnodup := hd.nodup
    rw [List.map_cons, List.nodup_middle, List.nodup_cons, List.mem_append, not_or] at hnodup
    obtain ⟨⟨hnotep, -⟩, hnodup⟩ := hnodup
    simp only [List.forall_mem_cons, List.exists_mem_cons_iff]
    rcases processCreditNotes_cons h with ⟨hnone, h⟩ | ⟨p, code, hp, hcode, -, h⟩
    · -- the purchase of the credit note is not listed
      obtain ⟨hget, hqueued, hframe⟩ := ih h hd.skip
      refine ⟨fun k hk => hget k hk.2, fun k q hq hnamed => hqueued k q hq ?_, fun id hid hids => ?_⟩
      · refine hnamed.resolve_left ?_
        rintro rfl
        rw [hnone] at hq
        cases hq
      · exact hframe id hid.2 fun k q hq hqid => (hids k q hq hqid).2
    · obtain ⟨-, -, number, -, hkey, -⟩ := hd.waiting _ List.mem_cons_self
      obtain rfl : creditNote = some number := hkey
      rw [Option.getD_some] at h
      obtain ⟨hget, hqueued, hframe⟩ := ih h (hd.next hp)
      have hset : ∀ k, (purchases.set (some code) (credited P note p)).get k =
          if k = some code then some (credited P note p) else purchases.get k :=
        fun k => OrderedMap.get_set _ _ k _
      -- the purchases have different ids
      have hother : ∀ k q, purchases.get k = some q → q.id = p.id → k = some code := by
        intro k q hq hid
        have hsame : q = p := List.inj_on_of_nodup_map (List.nodup_append.1 hnodup).1
          (OrderedMap.mem_values_of_get hq) (OrderedMap.mem_values_of_get hp) hid
        rw [← (hd.offered k q hq).2.2, hsame, (hd.offered _ p hp).2.2]
      have hpnote : p.id ≠ note.id := fun hid =>
        hnotep (hid ▸ List.mem_map_of_mem (OrderedMap.mem_values_of_get hp))
      refine ⟨fun k hk => ?_, fun k q hq hnamed => ?_, fun id hid hids => ?_⟩
      · rw [hget k hk.2, hset, if_neg fun he => hk.1 (hcode.trans he.symm)]
      · by_cases hlater : ∃ e ∈ notes, e.2.purchaseCode = k
        · by_cases hk : k = some code
          · obtain rfl : q = p := Option.some.inj (hq.symm.trans (hk ▸ hp))
            exact hqueued k (credited P note q) (by rw [hset, if_pos hk]) hlater
          · exact hqueued k q (by rw [hset, if_neg hk, hq]) hlater
        · push Not at hlater
          obtain rfl : k = some code := by
            rcases hnamed with hhead | ⟨e, he, hek⟩
            · exact hhead.symm.trans hcode
            · exact absurd hek (hlater e he)
          obtain rfl : q = p := Option.some.inj (hq.symm.trans hp)
          rw [hget _ hlater, hset, if_pos rfl, hframe q.id ?_ ?_, get_afterCreditNote,
            if_neg hpnote, if_pos rfl]
          · intro e he _ hid
            exact (List.nodup_append.1 hnodup).2.2 _
              (List.mem_map_of_mem (OrderedMap.mem_values_of_get hp)) _ (List.mem_map_of_mem he)
              hid.symm
          · intro k r hr hid
            rw [hset] at hr
            split_ifs at hr with hk
            · exact hk ▸ hlater
            · exact absurd (hother k r hr hid) hk
      · rw [hframe id ?_ ?_, get_afterCreditNote, if_neg ?_, if_neg ?_]
        · rintro rfl
          exact (hids (some code) p hp rfl).1 hcode
        · rintro rfl
          exact hid.1 (hcode ▸ OrderedMap.mem_keys_of_get hp) rfl
        · intro e he hkey
          rw [OrderedMap.mem_keys_set] at hkey
          refine hid.2 e he (hkey.elim (fun hk => ?_) fun hk => hk)
          exact hk ▸ OrderedMap.mem_keys_of_get hp
        · intro k q hq hqid
          rw [hset] at hq
          split_ifs at hq with hk
          · cases hq
            exact hk ▸ (hids (some code) p hp hqid).2
          · exact (hids k q hq hqid).2

/-- The loop meets a locked transaction exactly if a credit note of a listed purchase is locked, or
    that purchase is. -/
theorem processCreditNotes_locked :
    ∀ {notes : List (Option String × Transaction)}
      {purchases purchases' : OrderedMap (Option String) Transaction}
      {processor processor' : CalculateCostOfSalesProcessor},
      processCreditNotes P notes purchases processor = .ok (.done purchases' processor') →
      processor'.financialBookTransactionsToCreateMap =
          processor.financialBookTransactionsToCreateMap ∧
        (processor'.isAnyTransactionLocked = true ↔ processor.isAnyTransactionLocked = true ∨
          ∃ e ∈ notes, ∃ p, purchases.get e.2.purchaseCode = some p ∧
            (e.2.locked = true ∨ p.locked = true)) := by
  intro notes
  induction notes with
  | nil =>
    intro purchases purchases' processor processor' h
    cases h
    exact ⟨rfl, by simp⟩
  | cons e notes ih =>
    obtain ⟨creditNote, note⟩ := e
    intro purchases purchases' processor processor' h
    simp only [List.exists_mem_cons_iff]
    rcases processCreditNotes_cons h with ⟨hnone, h⟩ | ⟨p, code, hp, hcode, -, h⟩
    · obtain ⟨hposted, hlocked⟩ := ih h
      refine ⟨hposted, hlocked.trans (or_congr_right ?_)⟩
      simp [hnone]
    · obtain ⟨hposted, hlocked⟩ := ih h
      refine ⟨hposted, hlocked.trans ?_⟩
      have hafter : (afterCreditNote P note p code (creditNote.getD "undefined")
          processor).isAnyTransactionLocked = true ↔
            processor.isAnyTransactionLocked = true ∨ note.locked = true ∨ p.locked = true := by
        have hsplit : (splitCreditNote (P.toNumber note.amount) code
            (creditNote.getD "undefined") p).locked = false := rfl
        have hflag : (afterCreditNote P note p code (creditNote.getD "undefined")
            processor).isAnyTransactionLocked =
              (((processor.isAnyTransactionLocked || (splitCreditNote (P.toNumber note.amount) code
                (creditNote.getD "undefined") p).locked) || p.locked) || note.locked) := rfl
        rw [hflag, hsplit, Bool.or_false, Bool.or_eq_true, Bool.or_eq_true, or_assoc,
          or_comm (a := p.locked = true)]
      -- a purchase keeps its lock when it is reduced
      have hrest : (∃ e ∈ notes, ∃ q, (purchases.set (some code) (credited P note p)).get
          e.2.purchaseCode = some q ∧ (e.2.locked = true ∨ q.locked = true)) ↔
            ∃ e ∈ notes, ∃ q, purchases.get e.2.purchaseCode = some q ∧
              (e.2.locked = true ∨ q.locked = true) := by
        refine exists_congr fun e => and_congr_right fun _ => ?_
        rw [OrderedMap.get_set]
        split_ifs with hk
        · rw [hk, hp]
          simp [credited]
        · exact Iff.rfl
      have hhead : (∃ q, purchases.get note.purchaseCode = some q ∧
          (note.locked = true ∨ q.locked = true)) ↔ note.locked = true ∨ p.locked = true := by
        rw [hcode, hp]
        simp
      rw [hafter, hrest, hhead, or_assoc]

end CreditNotes

/-! ## The comparator on a listing -/

/-- `compareToFIFO` puts `a` before `b`. -/
def fifoLt (P : Platform) (a b : Transaction) : Prop := ¬BotService.fifoLe P b a

/-- `compareToFIFO` is a strict total order on some transactions. -/
structure FifoTotal (P : Platform) (l : List Transaction) : Prop where
  irrefl : ∀ a ∈ l, ¬fifoLt P a a
  trans : ∀ a ∈ l, ∀ b ∈ l, ∀ c ∈ l, fifoLt P a b → fifoLt P b c → fifoLt P a c
  total : ∀ a ∈ l, ∀ b ∈ l, a ≠ b → fifoLt P a b ∨ fifoLt P b a

/-- What a transaction is sorted by. -/
def sortData (t : Transaction) : Date × Option String × Option ℕ := (t.date, t.order, t.createdAt)

section Sorting

variable {P : Platform} {a b c d : Transaction} {l l' : List Transaction}

theorem fifoLe_congr (ha : sortData a = sortData c) (hb : sortData b = sortData d) :
    BotService.fifoLe P a b ↔ BotService.fifoLe P c d := by
  simp only [sortData, Prod.mk.injEq] at ha hb
  unfold BotService.fifoLe BotService.compareToFIFO BotService.orderValue
  rw [ha.1, ha.2.1, ha.2.2, hb.1, hb.2.1, hb.2.2]

theorem fifoLt_congr (ha : sortData a = sortData c) (hb : sortData b = sortData d) :
    fifoLt P a b ↔ fifoLt P c d :=
  not_congr (fifoLe_congr hb ha)

theorem FifoTotal.of_perm (h : FifoTotal P l) (hl : l'.Perm l) : FifoTotal P l' where
  irrefl := fun a ha => h.irrefl a (hl.subset ha)
  trans := fun a ha b hb c hc => h.trans a (hl.subset ha) b (hl.subset hb) c (hl.subset hc)
  total := fun a ha b hb => h.total a (hl.subset ha) b (hl.subset hb)

/-- Transactions that differ only if their originals do are ordered as these are. -/
theorem FifoTotal.of_originals (h : FifoTotal P l)
    (horiginal : ∀ a ∈ l', ∃ b ∈ l, b.id = a.id ∧ sortData b = sortData a)
    (hids : (l'.map Transaction.id).Nodup) : FifoTotal P l' where
  irrefl := by
    intro a ha
    obtain ⟨b, hb, -, hsort⟩ := horiginal a ha
    exact fun hlt => h.irrefl b hb ((fifoLt_congr hsort hsort).2 hlt)
  trans := by
    intro a ha b hb c hc hab hbc
    obtain ⟨a₀, ha₀, -, hasort⟩ := horiginal a ha
    obtain ⟨b₀, hb₀, -, hbsort⟩ := horiginal b hb
    obtain ⟨c₀, hc₀, -, hcsort⟩ := horiginal c hc
    exact (fifoLt_congr hasort hcsort).1 (h.trans a₀ ha₀ b₀ hb₀ c₀ hc₀
      ((fifoLt_congr hasort hbsort).2 hab) ((fifoLt_congr hbsort hcsort).2 hbc))
  total := by
    intro a ha b hb hne
    obtain ⟨a₀, ha₀, haid, hasort⟩ := horiginal a ha
    obtain ⟨b₀, hb₀, hbid, hbsort⟩ := horiginal b hb
    have hne₀ : a₀ ≠ b₀ := by
      rintro rfl
      exact hne (List.inj_on_of_nodup_map hids ha hb (haid.symm.trans hbid))
    exact (h.total a₀ ha₀ b₀ hb₀ hne₀).imp (fifoLt_congr hasort hbsort).1
      (fifoLt_congr hbsort hasort).1

/-- A comparator that orders the transactions is consistent. -/
theorem FifoTotal.consistent (h : FifoTotal P l) : ConsistentOn (fifoCompare P) l where
  antisymm := fun a _ b _ => fifoCompare_swap P a b
  lt_trans := fun _ _ _ _ _ _ => fifoCompare_lt_trans
  eq_trans := by
    intro a ha b hb c hc hab hbc
    have hsame : ∀ x ∈ l, ∀ y ∈ l, fifoCompare P x y = .eq → x = y := by
      intro x hx y hy hxy
      by_contra hne
      have hyx : fifoCompare P y x = .eq := by rw [fifoCompare_swap P x y, hxy]; rfl
      rcases h.total x hx y hy hne with hlt | hlt
      · exact hlt (fifoLe_iff_ne_gt.2 (by rw [hyx]; decide))
      · exact hlt (fifoLe_iff_ne_gt.2 (by rw [hxy]; decide))
    rw [hsame a ha b hb hab]
    exact hbc

/-- Where the comparator orders the transactions, sorting forgets the order of the listing. -/
theorem sortFIFO_eq_of_perm (h : FifoTotal P l) (hl : l.Perm l') :
    BotService.sortFIFO P l = BotService.sortFIFO P l' := by
  have h' : ConsistentOn (fifoCompare P) l' :=
    ⟨fun a _ b _ => fifoCompare_swap P a b, fun _ _ _ _ _ _ => fifoCompare_lt_trans,
      fun a ha b hb c hc => h.consistent.eq_trans a (hl.mem_iff.2 ha) b (hl.mem_iff.2 hb) c
        (hl.mem_iff.2 hc)⟩
  rw [sortFIFO_eq_insertionSort h.consistent, sortFIFO_eq_insertionSort h']
  have hle : ∀ a ∈ l, ∀ b ∈ l, BotService.fifoLe P a b → a = b ∨ fifoLt P a b := by
    intro a ha b hb hab
    by_cases hne : a = b
    · exact Or.inl hne
    · exact Or.inr ((h.total a ha b hb hne).resolve_right fun hlt => hlt hab)
  have hasymm : ∀ a ∈ l, ∀ b ∈ l, fifoLt P a b → ¬fifoLt P b a := fun a ha b hb hab hba =>
    h.irrefl a ha (h.trans a ha b hb a ha hab hba)
  refine insertionSort_eq_of_perm hl ?_ ?_ ?_
  · intro a ha b hb
    by_contra hno
    push Not at hno
    exact hasymm b hb a ha hno.1 hno.2
  · intro a ha b hb c hc hab hbc
    rcases hle a ha b hb hab with rfl | hab
    · exact hbc
    · rcases hle b hb c hc hbc with rfl | hbc
      · exact not_not.1 (hasymm a ha b hb hab)
      · exact not_not.1 (hasymm a ha c hc (h.trans a ha b hb c hc hab hbc))
  · intro a ha b hb hab hba
    rcases hle a ha b hb hab with heq | hlt
    · exact heq
    · exact absurd hba hlt

end Sorting

/-! ## The queues of two runs -/

/-- A queued split without the remote id that was generated for it; the split for a credit note
    has the number of the credit note there. -/
def ungenerated (t : Transaction) : Transaction := if t.creditNote = none then unnamed t else t

/-- Two processors have queued the same but for the order and for generated remote ids. -/
structure PermutedQueues (env env' : RunEnv) (numbers : List String)
    (processor processor' : CalculateCostOfSalesProcessor) : Prop where
  created : (processor'.inventoryBookTransactionsToCreateMap.values.map ungenerated).Perm
    (processor.inventoryBookTransactionsToCreateMap.values.map ungenerated)
  updated : ∀ id, processor'.inventoryBookTransactionsToUpdateMap.get id =
    processor.inventoryBookTransactionsToUpdateMap.get id
  posted : processor'.financialBookTransactionsToCreateMap =
    processor.financialBookTransactionsToCreateMap
  locked : processor'.isAnyTransactionLocked = processor.isAnyTransactionLocked
  named : Named env numbers processor
  named' : Named env' numbers processor'

section Queues

variable {P : Platform} {env env' : RunEnv} {numbers : List String}

theorem queueRelation_permutedQueues (hfresh : Book.FreshIds env.uuid numbers)
    (hfresh' : Book.FreshIds env'.uuid numbers) :
    QueueRelation env env' (PermutedQueues env env' numbers) where
  update := fun h t =>
    { created := h.created
      updated := fun id => by
        refine (OrderedMap.get_set _ _ _ _).trans (Eq.trans ?_ (OrderedMap.get_set _ _ _ _).symm)
        exact if_congr Iff.rfl rfl (h.updated id)
      posted := h.posted
      locked := congrArg (· || t.locked) h.locked
      named := h.named
      named' := h.named' }
  post := fun h t =>
    { created := h.created
      updated := h.updated
      posted := congrArg
        (fun m => OrderedMap.set m (CalculateCostOfSalesProcessor.getRemoteId t) t) h.posted
      locked := congrArg (· || t.locked) h.locked
      named := h.named
      named' := h.named' }
  split := by
    intro processor processor' h t t' ht ht' hnote hsame
    have hnote' : t'.creditNote = none := by
      have hnotes : (unnamed t').creditNote = (unnamed t).creditNote := by rw [hsame]
      exact hnotes.trans hnote
    have hlocked : (unnamed t').locked = (unnamed t).locked := by rw [hsame]
    have hblank : ungenerated t' = ungenerated t := by
      rw [ungenerated, ungenerated, if_pos hnote, if_pos hnote', hsame]
    refine ⟨?_, h.updated, h.posted, congrArg₂ (· || ·) h.locked hlocked, h.named.split ht,
      h.named'.split ht'⟩
    rw [values_split (ht' ▸ h.named'.new hfresh'), values_split (ht ▸ h.named.new hfresh),
      List.map_append, List.map_append, List.map_singleton, List.map_singleton, hblank]
    exact h.created.append_right _
  locked := fun h => h.locked

/-- The credit notes in another order leave the same purchases and queue the same. -/
theorem creditNotes_reordered (hP : P.Exact) {account : String} {before : Date}
    {store store' : List Transaction} {listed listed' : List String}
    {notes notes' : List (Option String × Transaction)}
    {purchases purchases' rest rest' : OrderedMap (Option String) Transaction}
    {processor processor' : CalculateCostOfSalesProcessor} {d d' : Desk}
    (hnotes : notes'.Perm notes) (hpurchases : ∀ k, purchases'.get k = purchases.get k)
    (h : processCreditNotes P notes purchases {} = .ok (.done rest processor))
    (h' : processCreditNotes P notes' purchases' {} = .ok (.done rest' processor'))
    (hd : NotesInvariant env account before store listed notes purchases {} d)
    (hd' : NotesInvariant env' account before store' listed' notes' purchases' {} d')
    (hnamed : Named env numbers processor) (hnamed' : Named env' numbers processor') :
    (∀ k, rest'.get k = rest.get k) ∧ PermutedQueues env env' numbers processor processor' := by
  have hexact : ∀ (l : List (Option String × Transaction)), ∀ e ∈ l,
      P.toNumber e.2.amount = e.2.amount := fun _ e _ => hP.toNumber e.2.amount
  obtain ⟨hget, hcreated, -, hchecked⟩ := processCreditNotes_applied h hd (hexact notes)
  obtain ⟨hget', hcreated', -, hchecked'⟩ := processCreditNotes_applied h' hd' (hexact notes')
  obtain ⟨-, hqueued, hframe⟩ := processCreditNotes_updates h hd
  obtain ⟨-, hqueued', hframe'⟩ := processCreditNotes_updates h' hd'
  obtain ⟨hposted, hlocked⟩ := processCreditNotes_locked h
  obtain ⟨hposted', hlocked'⟩ := processCreditNotes_locked h'
  have hkeys : ∀ k, k ∈ purchases'.keys ↔ k ∈ purchases.keys := by
    intro k
    rw [← not_iff_not, ← OrderedMap.get_eq_none, ← OrderedMap.get_eq_none, hpurchases]
  have hrest : ∀ k, rest'.get k = rest.get k := by
    intro k
    rw [hget, hget', hpurchases, returned_perm k (hnotes.map Prod.snd)]
  refine ⟨hrest, ?_, fun id => ?_, hposted'.trans hposted.symm, ?_, hnamed, hnamed'⟩
  · have hsplit : splitOf P purchases' = splitOf P purchases := by
      funext e
      rw [splitOf, splitOf, hpurchases]
    rw [hcreated, hcreated', hsplit]
    exact ((hnotes.filterMap _).append_left _).map _
  · by_cases hnote : ∃ e ∈ notes, e.2.purchaseCode ∈ purchases.keys ∧ e.2.id = id
    · obtain ⟨e, he, hkey, rfl⟩ := hnote
      rw [hchecked e he hkey, hchecked' e (hnotes.mem_iff.2 he) ((hkeys _).2 hkey)]
    · by_cases hpurchase : ∃ k p, purchases.get k = some p ∧ p.id = id ∧
          ∃ e ∈ notes, e.2.purchaseCode = k
      · obtain ⟨k, p, hp, rfl, e, he, hk⟩ := hpurchase
        rw [hqueued k p hp ⟨e, he, hk⟩, hqueued' k p ((hpurchases k).trans hp)
          ⟨e, hnotes.mem_iff.2 he, hk⟩, hrest]
      · rw [hframe id, hframe' id]
        · intro e he hkey hid
          exact hnote ⟨e, hnotes.mem_iff.1 he, (hkeys _).1 hkey, hid⟩
        · intro k p hp hid e he hk
          exact hpurchase ⟨k, p, (hpurchases k).symm.trans hp, hid, e, hnotes.mem_iff.1 he, hk⟩
        · exact fun e he hkey hid => hnote ⟨e, he, hkey, hid⟩
        · exact fun k p hp hid e he hk => hpurchase ⟨k, p, hp, hid, e, he, hk⟩
  · rw [Bool.eq_iff_iff, hlocked, hlocked']
    simp only [hpurchases, hnotes.mem_iff]

end Queues

/-! ## Plans -/

/-- The same books with the inventory transactions in another order. -/
def reordered (s : State) (l : List Transaction) : State :=
  { s with inventoryBook := { s.inventoryBook with transactions := l } }

/-- A listing whose order does not matter: the open transactions have positive amounts, the open
    purchases different codes and the open credit notes different numbers, and the comparator
    orders the open sales and the open purchases. -/
structure Orderable (P : Platform) (txs : List Transaction) : Prop where
  positive : PositiveListing txs
  coded : ∀ p ∈ txs.filter isOpenPurchase, p.purchaseCode ≠ none
  codes : ((txs.filter isOpenPurchase).map Transaction.purchaseCode).Nodup
  numbers : ((txs.filter isOpenCreditNote).map Transaction.creditNote).Nodup
  sales : FifoTotal P (txs.filter isOpenSale)
  purchases : FifoTotal P (txs.filter isOpenPurchase)

/-- Two calculations are about to do the same. -/
inductive PlansAlike (env env' : RunEnv) (numbers : List String) :
    CalculationPlan → CalculationPlan → Prop
  | stop {summary : Summary} : PlansAlike env env' numbers (.stop summary) (.stop summary)
  | creditNote {number number' : String} : PlansAlike env env' numbers
      (.stop (.creditNoteQuantityError number)) (.stop (.creditNoteQuantityError number'))
  | reset : PlansAlike env env' numbers .reset .reset
  | fire {goodAccount : Account} {sales : List Transaction}
      {processor processor' : CalculateCostOfSalesProcessor}
      (hqueues : PermutedQueues env env' numbers processor processor') :
      PlansAlike env env' numbers (.fire goodAccount sales processor)
        (.fire goodAccount sales processor')

section Plans

variable {P : Platform} {env env' : RunEnv} {s : State} {l txs txs' : List Transaction}
  {goodAccount : Account} {day : Date}

theorem Orderable.returnable (h : Orderable P txs) (hP : P.Exact) : Returnable P txs :=
  ⟨h.positive, h.coded, h.codes, fun note _ => hP.toNumber note.amount⟩

theorem Orderable.of_perm (h : Orderable P txs) (hl : txs'.Perm txs) : Orderable P txs' where
  positive := fun t ht => h.positive t (hl.subset ht)
  coded := fun p hp => h.coded p ((hl.filter _).subset hp)
  codes := (((hl.filter _).map _).nodup_iff).2 h.codes
  numbers := (((hl.filter _).map _).nodup_iff).2 h.numbers
  sales := h.sales.of_perm (hl.filter _)
  purchases := h.purchases.of_perm (hl.filter _)

/-- The purchases that the credit notes leave are ordered as those of the listing. -/
theorem Orderable.rest (h : Orderable P txs) {account : String} {before : Date}
    {store : List Transaction} {numbers : List String} {d : Desk}
    {rest : OrderedMap (Option String) Transaction} {processor : CalculateCostOfSalesProcessor}
    (hP : P.Exact)
    (hnotes : processCreditNotes P (collect P txs).goodAccountCreditNoteTransactionsMap.entries
      (collect P txs).goodAccountPurchaseTransactionsMap {} = .ok (.done rest processor))
    (hd : NotesInvariant env account before store numbers
      (collect P txs).goodAccountCreditNoteTransactionsMap.entries
      (collect P txs).goodAccountPurchaseTransactionsMap {} d) : FifoTotal P rest.values := by
  obtain ⟨hget, -⟩ := processCreditNotes_applied hnotes hd fun e _ => hP.toNumber e.2.amount
  refine h.purchases.of_originals (fun a ha => ?_) ?_
  · obtain ⟨k, hk⟩ := OrderedMap.mem_values_iff.1 ha
    rw [hget, Option.map_eq_some_iff] at hk
    obtain ⟨p, hp, rfl⟩ := hk
    exact ⟨p, (mem_of_get_collect hp).1, rfl, rfl⟩
  · rw [(processCreditNotes_frame hnotes).1]
    exact (List.nodup_append.1 hd.nodup).1

/-- The loop over the sales reads the number of digits off the inventory book only. -/
theorem processSales_book {fb ib ib' : Book} (hinfo : ib'.info = ib.info) :
    ∀ (sales ps : List Transaction) (processor : CalculateCostOfSalesProcessor),
      processSales P env fb ib' sales ps processor = processSales P env fb ib sales ps processor := by
  intro sales
  induction sales with
  | nil => exact fun _ _ => rfl
  | cons sale sales ih =>
    intro ps processor
    have hsale : processSale P env fb ib' sale ps processor =
        processSale P env fb ib sale ps processor := by
      unfold processSale
      rw [hinfo]
    rw [processSales, processSales, hsale]
    simp only [ih]

/-- On two orders of the inventory transactions a listing leads to the same plan. -/
theorem planListing_reordered (hP : P.Exact) (hl : l.Perm s.inventoryBook.transactions)
    (hids : (s.inventoryBook.transactions.map Transaction.id).Nodup)
    (hkind : ∀ t ∈ s.inventoryBook.transactions, t.moves goodAccount.name → OneKind t)
    (hfresh : Book.FreshIds env.uuid (creditNoteNumbers s.inventoryBook))
    (hfresh' : Book.FreshIds env'.uuid (creditNoteNumbers s.inventoryBook))
    (hcogs : env'.cogsAccountId = env.cogsAccountId)
    (h : Orderable P (listTransactions s.inventoryBook goodAccount day)) :
    Agree (PlansAlike env env' (creditNoteNumbers s.inventoryBook))
      (planListing P env (costOfSalesBook env s) s.inventoryBook goodAccount
        (listingOf P s.inventoryBook goodAccount day))
      (planListing P env' (costOfSalesBook env' s) (reordered s l).inventoryBook goodAccount
        (listingOf P (reordered s l).inventoryBook goodAccount day)) := by
  have htxs : (listTransactions (reordered s l).inventoryBook goodAccount day).Perm
      (listTransactions s.inventoryBook goodAccount day) := hl.filter _
  have h' := h.of_perm htxs
  have hids' : ((reordered s l).inventoryBook.transactions.map Transaction.id).Nodup :=
    (hl.map _).nodup_iff.2 hids
  have hkind' : ∀ t ∈ (reordered s l).inventoryBook.transactions,
      t.moves goodAccount.name → OneKind t := fun t ht => hkind t (hl.subset ht)
  have hstart := notesInvariant_start P env day hids hkind
  have hstart' := notesInvariant_start P env' day hids' hkind'
  obtain ⟨hstops, hdone⟩ := listing_stops_iff hP.keepsSign (h.returnable hP)
  obtain ⟨hstops', hdone'⟩ := listing_stops_iff hP.keepsSign (h'.returnable hP)
  -- the loops over the credit notes stop for the same listings
  have hkept : (keptCreditNotes (listTransactions (reordered s l).inventoryBook goodAccount
      day)).Perm (keptCreditNotes (listTransactions s.inventoryBook goodAccount day)) := by
    unfold keptCreditNotes
    rw [OrderedMap.lastOf_of_nodup h.numbers, OrderedMap.lastOf_of_nodup h'.numbers]
    exact htxs.filter _
  simp only [(htxs.filter _).mem_iff, returned_perm _ hkept] at hstops' hdone'
  unfold planListing
  by_cases hstop : ∃ p ∈ (listTransactions s.inventoryBook goodAccount day).filter isOpenPurchase,
      p.amount ≤ returned p.purchaseCode
        (keptCreditNotes (listTransactions s.inventoryBook goodAccount day))
  · obtain ⟨number, hnotes⟩ := hstops.2 hstop
    obtain ⟨number', hnotes'⟩ := hstops'.2 hstop
    rw [hnotes, hnotes']
    exact agree_pure .creditNote
  · obtain ⟨rest, processor, hnotes⟩ := hdone hstop
    obtain ⟨rest', processor', hnotes'⟩ := hdone' hstop
    have hnumbers : ∀ number, number ∈ creditNoteNumbers (reordered s l).inventoryBook ↔
        number ∈ creditNoteNumbers s.inventoryBook := fun number => (hl.filterMap _).mem_iff
    have hnamed : Named env' (creditNoteNumbers s.inventoryBook) processor' := fun k hk =>
      (named_of_notes env' hids' hkind' hnotes' k hk).imp_left (hnumbers k).1
    have hentries : (listingOf P (reordered s l).inventoryBook goodAccount
        day).goodAccountCreditNoteTransactionsMap.entries.Perm (listingOf P s.inventoryBook
          goodAccount day).goodAccountCreditNoteTransactionsMap.entries := by
      rw [listingOf, listingOf, collect_creditNotes, collect_creditNotes]
      exact OrderedMap.entries_perm_of_get_eq
        (OrderedMap.get_ofList_of_perm h.numbers (htxs.filter _))
    have hlisted : ∀ k, (listingOf P (reordered s l).inventoryBook goodAccount
        day).goodAccountPurchaseTransactionsMap.get k = (listingOf P s.inventoryBook goodAccount
          day).goodAccountPurchaseTransactionsMap.get k := by
      rw [listingOf, listingOf, collect_purchases, collect_purchases]
      exact OrderedMap.get_ofList_of_perm h.codes (htxs.filter _)
    obtain ⟨hrest, hqueues⟩ := creditNotes_reordered hP hentries hlisted hnotes hnotes' hstart
      hstart' (named_of_notes env hids hkind hnotes) hnamed
    -- the sales and the purchases are sorted alike
    have hpurchases : BotService.sortFIFO P rest'.values = BotService.sortFIFO P rest.values :=
      (sortFIFO_eq_of_perm (h.rest hP hnotes hstart)
        (OrderedMap.values_perm_of_get_eq hrest).symm).symm
    have hsales : BotService.sortFIFO P (listingOf P (reordered s l).inventoryBook goodAccount
        day).goodAccountSaleTransactions = BotService.sortFIFO P (listingOf P s.inventoryBook
          goodAccount day).goodAccountSaleTransactions := by
      rw [listingOf, listingOf, collect_sales, collect_sales]
      exact (sortFIFO_eq_of_perm h.sales (htxs.filter _).symm).symm
    have hcreated : costOfSalesBook env' s = costOfSalesBook env s :=
      createCostOfSalesAccount_congr hcogs s.financialBook
    rw [hnotes, hnotes', hcreated]
    show Agree _ (processSales P env (costOfSalesBook env s) s.inventoryBook _ _ processor >>= _)
      (processSales P env' (costOfSalesBook env s) (reordered s l).inventoryBook _ _ processor' >>= _)
    have hbook : ∀ sales ps processor, processSales P env' (costOfSalesBook env s)
        (reordered s l).inventoryBook sales ps processor =
          processSales P env' (costOfSalesBook env s) s.inventoryBook sales ps processor :=
      processSales_book rfl
    rw [hsales, hpurchases, hbook]
    refine agree_bind (processSales_alike (queueRelation_permutedQueues hfresh hfresh') hcogs _ _
      hqueues) ?_
    intro result result' hresult
    cases hresult with
    | none => exact agree_pure .stop
    | some hsame => exact agree_pure (.fire hsame.2)

/-- On two orders of the inventory transactions a calculation has the same plan. -/
theorem planCalculation_reordered (hP : P.Exact) (collection : Option (List BookInfo))
    {goodAccountId : String} {toDate : Option Date} (hwf : WellFormed s.inventoryBook)
    (hl : l.Perm s.inventoryBook.transactions)
    (hfresh : Book.FreshIds env.uuid (creditNoteNumbers s.inventoryBook))
    (hfresh' : Book.FreshIds env'.uuid (creditNoteNumbers s.inventoryBook))
    (hcogs : env'.cogsAccountId = env.cogsAccountId)
    (hday : toDate.getD env'.today = toDate.getD env.today)
    (haccount : s.inventoryBook.getAccount goodAccountId = some goodAccount)
    (h : Orderable P (listTransactions s.inventoryBook goodAccount (toDate.getD env.today))) :
    Agree (PlansAlike env env' (creditNoteNumbers s.inventoryBook))
      (planCalculation P collection env s goodAccountId toDate)
      (planCalculation P collection env' (reordered s l) goodAccountId toDate) := by
  have hopen' : openAccount collection (reordered s l) goodAccountId =
      openAccount collection s goodAccountId := rfl
  unfold planCalculation
  rw [hopen', hday]
  cases hopen : openAccount collection s goodAccountId with
  | error e => exact agree_throw e
  | ok r =>
    obtain ⟨a, book⟩ := r
    obtain ⟨ha, hbook⟩ := openAccount_ok hopen
    obtain rfl : a = goodAccount := Option.some.inj (ha.symm.trans haccount)
    simp only [bind, Except.bind]
    by_cases hrebuild : GoodAccount.needsRebuild a = true
    · rw [if_pos hrebuild, if_pos hrebuild]
      exact agree_pure .reset
    · rw [if_neg hrebuild, if_neg hrebuild]
      cases book with
      | none => exact agree_pure .stop
      | some fb =>
        obtain ⟨rfl, hin, hout⟩ := hbook fb rfl
        have hkind : ∀ t ∈ s.inventoryBook.transactions, t.moves a.name → OneKind t :=
          fun t ht hm => hwf.oneKind ha hin hout ht hm
        have htxs : (listTransactions (reordered s l).inventoryBook a (toDate.getD env.today)).Perm
            (listTransactions s.inventoryBook a (toDate.getD env.today)) := hl.filter _
        -- the totals of the guard are sums
        have hsold : (collect P (listTransactions (reordered s l).inventoryBook a
            (toDate.getD env.today))).totalSalesQuantity = (collect P (listTransactions
              s.inventoryBook a (toDate.getD env.today))).totalSalesQuantity := by
          rw [(collect_totals _ hP).1, (collect_totals _ hP).1, amounts_perm (htxs.filter _)]
        have hbought : (collect P (listTransactions (reordered s l).inventoryBook a
            (toDate.getD env.today))).totalPurchasedQuantity = (collect P (listTransactions
              s.inventoryBook a (toDate.getD env.today))).totalPurchasedQuantity := by
          rw [(collect_totals _ hP).2, (collect_totals _ hP).2,
            amounts_perm (htxs.filter isOpenPurchase), amounts_perm (htxs.filter isOpenCreditNote)]
        simp only [hsold, hbought]
        split
        · exact agree_pure .stop
        · split
          · exact agree_pure .stop
          · exact planListing_reordered hP hl hwf.ids hkind hfresh hfresh' hcogs h

end Plans

/-! ## Calculations -/

/-- Two outcomes of one kind: the numbers of the credit notes, and the exceptions, may differ. -/
inductive SameKind : Outcome → Outcome → Prop
  | same {outcome : Outcome} : SameKind outcome outcome
  | creditNote {number number' : String} :
      SameKind (.returned (.creditNoteQuantityError number))
        (.returned (.creditNoteQuantityError number'))
  | threw {exception exception' : Exception} : SameKind (.threw exception) (.threw exception')

/-- From `s` to `r` and from `s'` to `r'` the same is written: the same updates of the inventory
    transactions, the same splits and the same costs of sales but for generated ids, and the same
    accounts with their properties. -/
structure SameWrites (env env' : RunEnv) (s s' r r' : State) : Prop where
  inventory : ∃ (update : Transaction → Transaction) (created created' : List Transaction),
    r.inventoryBook.transactions = s.inventoryBook.transactions.map update ++
        Book.postAll env.inventoryId env.now created ∧
      r'.inventoryBook.transactions = s'.inventoryBook.transactions.map update ++
        Book.postAll env'.inventoryId env'.now created' ∧
      (created'.map ungenerated).Perm (created.map ungenerated)
  financial : ∃ posted : List Transaction,
    r.financialBook.transactions = s.financialBook.transactions ++
        Book.postAll env.financialId env.now posted ∧
      r'.financialBook.transactions = s'.financialBook.transactions ++
        Book.postAll env'.financialId env'.now posted
  accounts : r'.inventoryBook.accounts = r.inventoryBook.accounts
  financialAccounts : r'.financialBook.accounts = r.financialBook.accounts

section Calculations

variable {P : Platform} {collection : Option (List BookInfo)} {env env' : RunEnv} {s : State}
  {l : List Transaction} {goodAccountId : String} {toDate : Option Date} {goodAccount : Account}

variable (P collection goodAccountId) in
/-- A reset throws on both orders of the inventory transactions or on none. -/
theorem reset_throws_reordered (hl : l.Perm s.inventoryBook.transactions) :
    (∃ e, (resetCostOfSalesForAccount P collection (reordered s l) goodAccountId).2 = .threw e) ↔
      ∃ e, (resetCostOfSalesForAccount P collection s goodAccountId).2 = .threw e := by
  cases haccount : s.inventoryBook.getAccount goodAccountId with
  | none =>
    have hthrows : ∀ s : State, s.inventoryBook.getAccount goodAccountId = none →
        (resetCostOfSalesForAccount P collection s goodAccountId).2 = .threw .typeError := by
      intro s h
      unfold resetCostOfSalesForAccount planReset openAccount
      rw [h]
      rfl
    exact iff_of_true ⟨_, hthrows (reordered s l) haccount⟩ ⟨_, hthrows s haccount⟩
  | some a =>
    rw [reset_throws_iff haccount,
      reset_throws_iff (show (reordered s l).inventoryBook.getAccount goodAccountId = some a
        from haccount)]
    simp only [reordered, hl.mem_iff]

/-- The accounts after a calculation do not depend on the inventory transactions. -/
theorem storeLastCalcTxDate_accounts {b b' : Book} (h : b'.accounts = b.accounts) (a : Account)
    (sales : List Transaction) :
    (storeLastCalcTxDate P b' a sales).accounts = (storeLastCalcTxDate P b a sales).accounts := by
  have hstored : ∀ account,
      (b'.updateAccount account).accounts = (b.updateAccount account).accounts := by
    intro account
    unfold Book.updateAccount
    rw [h]
  unfold storeLastCalcTxDate
  cases sales.getLast? with
  | none => exact h
  | some lastSaleTx =>
    rcases GoodAccount.getCOGSCalculationDateValue P a with _ | _ | date
    · exact hstored _
    · exact h
    · by_cases hlt : date < lastSaleTx.date
      · simp only [hlt, if_true]
        exact hstored _
      · simp only [hlt, if_false]
        exact h

theorem WellFormed.reordered (hwf : WellFormed s.inventoryBook)
    (hl : l.Perm s.inventoryBook.transactions) :
    WellFormed (Menu.reordered s l).inventoryBook where
  ids := (hl.map _).nodup_iff.2 hwf.ids
  refs := fun t ht => hwf.refs t (hl.subset ht)

/-- The batches of two runs that queue the same write the same. -/
theorem sameWrites_of_fire {sales : List Transaction}
    {processor processor' : CalculateCostOfSalesProcessor} (hwf : WellFormed s.inventoryBook)
    (hl : l.Perm s.inventoryBook.transactions) (hfresh : env.Fresh s)
    (hfresh' : env'.Fresh (reordered s l)) (hcogs : env'.cogsAccountId = env.cogsAccountId)
    (hplan : planCalculation P collection env s goodAccountId toDate =
      .ok (.fire goodAccount sales processor))
    (hplan' : planCalculation P collection env' (reordered s l) goodAccountId toDate =
      .ok (.fire goodAccount sales processor'))
    (hqueues : PermutedQueues env env' (creditNoteNumbers s.inventoryBook) processor processor') :
    SameWrites env env' s (reordered s l)
      (calculateCostOfSalesForAccount P collection env s goodAccountId toDate).1
      (calculateCostOfSalesForAccount P collection env' (reordered s l) goodAccountId toDate).1 := by
  have hwf' := hwf.reordered hl
  obtain ⟨hinventory, hfinancial⟩ := fired_books hwf hfresh hplan
  obtain ⟨hinventory', hfinancial'⟩ := fired_books hwf' hfresh' hplan'
  obtain ⟨hkeyed, -⟩ := fired_inventory hwf hfresh hplan
  obtain ⟨hkeyed', -⟩ := fired_inventory hwf' hfresh' hplan'
  have hupdate : Book.updated processor'.inventoryBookTransactionsToUpdateMap.values =
      Book.updated processor.inventoryBookTransactionsToUpdateMap.values := by
    funext t
    rw [Book.updated_values hkeyed, Book.updated_values hkeyed', hqueues.updated]
  refine ⟨⟨_, _, _, hinventory, hupdate ▸ hinventory', hqueues.created⟩,
    ⟨_, hfinancial, hqueues.posted ▸ hfinancial'⟩, ?_, ?_⟩
  · rw [calculate_of_fire hplan, calculate_of_fire hplan']
    refine storeLastCalcTxDate_accounts ?_ goodAccount sales
    rfl
  · rw [calculate_of_fire hplan, calculate_of_fire hplan']
    exact createCostOfSalesAccount_accounts hcogs rfl

/-- **The result does not depend on the order of the listing.** On two orders of the inventory
    transactions, in exact arithmetic, a calculation has an outcome of the same kind, and if it
    calculates it writes the same but for generated ids. -/
theorem listing_order_independent (hP : P.Exact) (hwf : WellFormed s.inventoryBook)
    (hl : l.Perm s.inventoryBook.transactions) (hfresh : env.Fresh s)
    (hfresh' : env'.Fresh (reordered s l)) (hcogs : env'.cogsAccountId = env.cogsAccountId)
    (hday : toDate.getD env'.today = toDate.getD env.today)
    (haccount : s.inventoryBook.getAccount goodAccountId = some goodAccount)
    (h : Orderable P (listTransactions s.inventoryBook goodAccount (toDate.getD env.today))) :
    SameKind (calculateCostOfSalesForAccount P collection env s goodAccountId toDate).2
        (calculateCostOfSalesForAccount P collection env' (reordered s l) goodAccountId toDate).2 ∧
      ((calculateCostOfSalesForAccount P collection env s goodAccountId toDate).2 =
          .returned .calculatingAsync →
        SameWrites env env' s (reordered s l)
          (calculateCostOfSalesForAccount P collection env s goodAccountId toDate).1
          (calculateCostOfSalesForAccount P collection env' (reordered s l) goodAccountId
            toDate).1) := by
  have huuids' : Book.FreshIds env'.uuid (creditNoteNumbers s.inventoryBook) :=
    ⟨hfresh'.uuids.injective, fun k hk => hfresh'.uuids.new k ((hl.filterMap _).mem_iff.2 hk)⟩
  have hplans := planCalculation_reordered hP collection hwf hl hfresh.uuids huuids'
    hcogs hday haccount h
  cases hplan : planCalculation P collection env s goodAccountId toDate with
  | error e =>
    cases hplan' : planCalculation P collection env' (reordered s l) goodAccountId toDate with
    | ok plan' =>
      rw [hplan, hplan'] at hplans
      exact hplans.elim
    | error e' =>
      unfold calculateCostOfSalesForAccount
      rw [hplan, hplan']
      exact ⟨.threw, fun hrun => nomatch hrun⟩
  | ok plan =>
    rw [hplan] at hplans
    obtain ⟨plan', hplan', hsame⟩ := hplans.of_ok
    cases hsame with
    | stop =>
      have hstop := planCalculation_stop hplan
      unfold calculateCostOfSalesForAccount
      rw [hplan, hplan']
      exact ⟨.same, fun hrun => absurd (Outcome.returned.inj hrun) hstop⟩
    | creditNote =>
      unfold calculateCostOfSalesForAccount
      rw [hplan, hplan']
      exact ⟨.creditNote, fun hrun => nomatch hrun⟩
    | reset =>
      have hthrows := reset_throws_reordered P collection goodAccountId hl
      unfold calculateCostOfSalesForAccount
      rw [hplan, hplan']
      dsimp only
      generalize resetCostOfSalesForAccount P collection s goodAccountId = r at hthrows ⊢
      generalize resetCostOfSalesForAccount P collection (reordered s l) goodAccountId = r'
        at hthrows ⊢
      obtain ⟨_, outcome⟩ := r
      obtain ⟨_, outcome'⟩ := r'
      cases outcome with
      | threw e =>
        obtain ⟨e', rfl⟩ := hthrows.2 ⟨e, rfl⟩
        exact ⟨.threw, fun hrun => nomatch hrun⟩
      | returned summary =>
        cases outcome' with
        | threw e' =>
          obtain ⟨e, he⟩ := hthrows.1 ⟨e', rfl⟩
          cases he
        | returned summary' => exact ⟨.same, fun hrun => nomatch hrun⟩
    | fire hqueues =>
      obtain rfl := Option.some.inj ((planCalculation_fire hplan).1.account.symm.trans haccount)
      refine ⟨?_, fun _ => sameWrites_of_fire hwf hl hfresh hfresh' hcogs hplan hplan'
        hqueues⟩
      unfold calculateCostOfSalesForAccount
      rw [hplan, hplan']
      exact .same

end Calculations

namespace Sample

/-- Two purchases, a credit note for the first one and two sales. -/
def orderRows : List Transaction :=
  [purchase "1" "P1" 1 10 100, purchase "2" "P2" 2 10 90, creditNote "3" "N1" "P1" 3 4,
    sale "4" "S1" 3 5 80, sale "5" "S2" 4 6 90]

end Sample

/-- The sample rows in reverse order, with other generated ids. -/
theorem listing_order_independent_sample :
    SameWrites (Sample.env 9) Sample.retryEnv (Sample.state Sample.orderRows [])
      (reordered (Sample.state Sample.orderRows []) Sample.orderRows.reverse)
      (calculateCostOfSalesForAccount exactPlatform Sample.collection (Sample.env 9)
        (Sample.state Sample.orderRows []) "a-widgets" none).1
      (calculateCostOfSalesForAccount exactPlatform Sample.collection Sample.retryEnv
        (reordered (Sample.state Sample.orderRows []) Sample.orderRows.reverse) "a-widgets"
          none).1 := by
  have hfresh : (Sample.env 9).Fresh (Sample.state Sample.orderRows []) :=
    ⟨Book.freshIds_unaryId (by decide), Book.freshIds_unaryId (by decide),
      Book.freshIds_unaryId (by decide)⟩
  have hfresh' : Sample.retryEnv.Fresh
      (reordered (Sample.state Sample.orderRows []) Sample.orderRows.reverse) :=
    ⟨Book.freshIds_unaryId (by decide +kernel), Book.freshIds_unaryId (by decide +kernel),
      Book.freshIds_unaryId (by decide +kernel)⟩
  have hordered : Orderable exactPlatform (listTransactions
      (Sample.state Sample.orderRows []).inventoryBook Sample.good 9) :=
    { positive := by
        unfold PositiveListing
        decide +kernel
      coded := by decide +kernel
      codes := by decide +kernel
      numbers := by decide +kernel
      sales := ⟨by unfold fifoLt; decide +kernel, by unfold fifoLt; decide +kernel,
        by unfold fifoLt; decide +kernel⟩
      purchases := ⟨by unfold fifoLt; decide +kernel, by unfold fifoLt; decide +kernel,
        by unfold fifoLt; decide +kernel⟩ }
  exact (listing_order_independent exactPlatform_exact ⟨by decide, by decide⟩
    (List.reverse_perm _) hfresh hfresh' rfl rfl (by rfl) hordered).2 (by decide +kernel)

end InventoryBot.Menu
