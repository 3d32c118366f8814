import InventoryBot.Lib.Rows
import Mathlib.Data.List.Induction

/-!
# Insertion-ordered maps

The semantics of the ECMAScript `Map`: `set` on a present key replaces the value
and keeps the position of the entry, `set` on an absent key appends an entry, and
`values()` lists the values in the order of their entries. Keys are unique in every
value of the type.

* `get_set`: reading after writing.
* `values_set_of_absent`, `entries_set_of_present`: the listing after writing.
* `map_values_set`, `sum_values_set`: what overwriting a value does to the listing.
* `mem_values_iff`: what is listed is what can be read.
* `ofList`: the map filled from a list; `values_ofList_perm`: what it keeps of the list.
-/

namespace InventoryBot.Lib

/-- Replaces the value of key `k`, or appends the entry `(k, v)`. -/
def setEntry {κ α : Type*} [DecidableEq κ] (k : κ) (v : α) : List (κ × α) → List (κ × α)
  | [] => [(k, v)]
  | e :: es => if e.1 = k then (k, v) :: es else e :: setEntry k v es

/-- The value of the first entry with key `k`. -/
def getEntry {κ α : Type*} [DecidableEq κ] (k : κ) : List (κ × α) → Option α
  | [] => none
  | e :: es => if e.1 = k then some e.2 else getEntry k es

section Entries

variable {κ α : Type*} [DecidableEq κ]

theorem mem_map_fst_setEntry {k j : κ} {v : α} {es : List (κ × α)} :
    j ∈ (setEntry k v es).map Prod.fst ↔ j = k ∨ j ∈ es.map Prod.fst := by
  induction es with
  | nil => simp [setEntry]
  | cons e es ih =>
    by_cases h : e.1 = k
    · simp only [setEntry, h, ite_true, List.map_cons, List.mem_cons]
      tauto
    · simp only [setEntry, h, ite_false, List.map_cons, List.mem_cons, ih]
      tauto

theorem nodup_setEntry {k : κ} {v : α} {es : List (κ × α)} (h : (es.map Prod.fst).Nodup) :
    ((setEntry k v es).map Prod.fst).Nodup := by
  induction es with
  | nil => simp [setEntry]
  | cons e es ih =>
    rw [List.map_cons, List.nodup_cons] at h
    by_cases he : e.1 = k
    · rw [setEntry, if_pos he, List.map_cons, List.nodup_cons]
      exact ⟨he ▸ h.1, h.2⟩
    · rw [setEntry, if_neg he, List.map_cons, List.nodup_cons, mem_map_fst_setEntry]
      exact ⟨fun hm => hm.elim he h.1, ih h.2⟩

theorem getEntry_setEntry {k j : κ} {v : α} {es : List (κ × α)} :
    getEntry j (setEntry k v es) = if j = k then some v else getEntry j es := by
  induction es with
  | nil => simp [setEntry, getEntry, eq_comm]
  | cons e es ih =>
    by_cases he : e.1 = k
    · by_cases hj : j = k
      · simp [setEntry, getEntry, he, hj]
      · have hkj : k ≠ j := fun h => hj h.symm
        simp [setEntry, getEntry, he, hj, hkj]
    · by_cases hj : j = k
      · subst hj
        simp [setEntry, getEntry, he, ih]
      · simp [setEntry, getEntry, he, hj, ih]

theorem setEntry_setEntry (k : κ) (v w : α) (es : List (κ × α)) :
    setEntry k w (setEntry k v es) = setEntry k w es := by
  induction es with
  | nil => simp [setEntry]
  | cons e es ih =>
    by_cases h : e.1 = k
    · simp [setEntry, h]
    · simp [setEntry, h, ih]

theorem setEntry_of_notMem {k : κ} {v : α} {es : List (κ × α)} (h : k ∉ es.map Prod.fst) :
    setEntry k v es = es ++ [(k, v)] := by
  induction es with
  | nil => rfl
  | cons e es ih =>
    simp only [List.map_cons, List.mem_cons, not_or] at h
    rw [setEntry, if_neg (fun he => h.1 he.symm), ih h.2, List.cons_append]

theorem setEntry_of_mem {k : κ} {v : α} {es : List (κ × α)} (hn : (es.map Prod.fst).Nodup)
    (h : k ∈ es.map Prod.fst) : setEntry k v es = replaceRow Prod.fst (k, v) es := by
  induction es with
  | nil => simp at h
  | cons e es ih =>
    rw [List.map_cons, List.nodup_cons] at hn
    rw [replaceRow_cons]
    by_cases he : e.1 = k
    · rw [setEntry, if_pos he, if_pos he, replaceRow_of_notMem (he ▸ hn.1)]
    · have hk : k ∈ es.map Prod.fst := (List.mem_cons.1 h).resolve_left fun hk => he hk.symm
      rw [setEntry, if_neg he, if_neg he, ih hn.2 hk]

theorem getEntry_eq_none {k : κ} {es : List (κ × α)} :
    getEntry k es = none ↔ k ∉ es.map Prod.fst := by
  induction es with
  | nil => simp [getEntry]
  | cons e es ih =>
    by_cases he : e.1 = k
    · simp [getEntry, he]
    · have hk : k ≠ e.1 := fun h => he h.symm
      simp only [getEntry, he, ite_false, ih, List.map_cons, List.mem_cons, hk, false_or]

theorem mem_of_getEntry {k : κ} {v : α} {es : List (κ × α)} (h : getEntry k es = some v) :
    (k, v) ∈ es := by
  induction es with
  | nil => simp [getEntry] at h
  | cons e es ih =>
    by_cases he : e.1 = k
    · simp only [getEntry, he, ite_true, Option.some.injEq] at h
      subst he h
      exact List.mem_cons_self
    · simp only [getEntry, he, ite_false] at h
      exact List.mem_cons_of_mem _ (ih h)

theorem getEntry_of_mem {k : κ} {v : α} {es : List (κ × α)} (hn : (es.map Prod.fst).Nodup)
    (h : (k, v) ∈ es) : getEntry k es = some v := by
  induction es with
  | nil => simp at h
  | cons e es ih =>
    rw [List.map_cons, List.nodup_cons] at hn
    rcases List.mem_cons.1 h with rfl | h
    · simp [getEntry]
    · have he : e.1 ≠ k := fun he => hn.1 (he ▸ List.mem_map_of_mem (f := Prod.fst) h)
      simpa [getEntry, he] using ih hn.2 h

theorem getEntry_filter_ne {k j : κ} {es : List (κ × α)} :
    getEntry j (es.filter fun e => e.1 ≠ k) = if j = k then none else getEntry j es := by
  induction es with
  | nil => simp [getEntry]
  | cons e es ih =>
    by_cases he : e.1 = k
    · by_cases hj : j = k
      · simpa [he, hj] using ih
      · have hkj : k ≠ j := fun h => hj h.symm
        simpa [he, hj, getEntry, hkj] using ih
    · by_cases hj : j = k
      · have hej : e.1 ≠ j := fun h => he (h.trans hj)
        simpa [he, getEntry, hj, hej] using ih
      · by_cases hej : e.1 = j
        · simp [getEntry, hj, hej]
        · simpa [he, getEntry, hj, hej] using ih

end Entries

/-- A finite map that remembers the order in which its keys were first set. -/
structure OrderedMap (κ α : Type*) where
  entries : List (κ × α)
  nodup_keys : (entries.map Prod.fst).Nodup

namespace OrderedMap

variable {κ α : Type*}

/-- `new Map()`. -/
def empty : OrderedMap κ α := ⟨[], List.nodup_nil⟩

instance : EmptyCollection (OrderedMap κ α) := ⟨empty⟩

instance : Inhabited (OrderedMap κ α) := ⟨empty⟩

/-- The keys in the order they were first set. -/
def keys (m : OrderedMap κ α) : List κ := m.entries.map Prod.fst

/-- `Map.prototype.values`. -/
def values (m : OrderedMap κ α) : List α := m.entries.map Prod.snd

@[ext] theorem ext {m n : OrderedMap κ α} (h : m.entries = n.entries) : m = n := by
  cases m; cases n; cases h; rfl

@[simp] theorem entries_empty : (∅ : OrderedMap κ α).entries = [] := rfl

@[simp] theorem keys_empty : (∅ : OrderedMap κ α).keys = [] := rfl

@[simp] theorem values_empty : (∅ : OrderedMap κ α).values = [] := rfl

variable [DecidableEq κ]

/-- `Map.prototype.set`. -/
def set (m : OrderedMap κ α) (k : κ) (v : α) : OrderedMap κ α :=
  ⟨setEntry k v m.entries, nodup_setEntry m.nodup_keys⟩

/-- `Map.prototype.get`. -/
def get (m : OrderedMap κ α) (k : κ) : Option α := getEntry k m.entries

/-- `Map.prototype.delete`. -/
def erase (m : OrderedMap κ α) (k : κ) : OrderedMap κ α :=
  ⟨m.entries.filter fun e => e.1 ≠ k,
    m.nodup_keys.sublist (List.Sublist.map Prod.fst List.filter_sublist)⟩

@[simp] theorem get_empty (k : κ) : (∅ : OrderedMap κ α).get k = none := rfl

theorem get_set (m : OrderedMap κ α) (k j : κ) (v : α) :
    (m.set k v).get j = if j = k then some v else m.get j :=
  getEntry_setEntry

@[simp] theorem get_set_self (m : OrderedMap κ α) (k : κ) (v : α) : (m.set k v).get k = some v := by
  simp [get_set]

theorem get_set_of_ne (m : OrderedMap κ α) {k j : κ} (v : α) (h : j ≠ k) :
    (m.set k v).get j = m.get j := by
  simp [get_set, h]

/-- Of two values that are set under one key the second stays. -/
theorem set_set (m : OrderedMap κ α) (k : κ) (v w : α) : (m.set k v).set k w = m.set k w :=
  ext (setEntry_setEntry k v w m.entries)

theorem get_erase (m : OrderedMap κ α) (k j : κ) :
    (m.erase k).get j = if j = k then none else m.get j :=
  getEntry_filter_ne

theorem mem_keys_set {m : OrderedMap κ α} {k j : κ} {v : α} :
    j ∈ (m.set k v).keys ↔ j = k ∨ j ∈ m.keys :=
  mem_map_fst_setEntry

theorem get_eq_none {m : OrderedMap κ α} {k : κ} : m.get k = none ↔ k ∉ m.keys :=
  getEntry_eq_none

theorem get_eq_some_iff {m : OrderedMap κ α} {k : κ} {v : α} :
    m.get k = some v ↔ (k, v) ∈ m.entries :=
  ⟨mem_of_getEntry, getEntry_of_mem m.nodup_keys⟩

theorem mem_values_iff {m : OrderedMap κ α} {v : α} : v ∈ m.values ↔ ∃ k, m.get k = some v := by
  simp only [values, List.mem_map, Prod.exists, get_eq_some_iff]
  constructor
  · rintro ⟨k, v', h, rfl⟩
    exact ⟨k, h⟩
  · rintro ⟨k, h⟩
    exact ⟨k, v, h, rfl⟩

theorem mem_values_of_get {m : OrderedMap κ α} {k : κ} {v : α} (h : m.get k = some v) :
    v ∈ m.values :=
  mem_values_iff.2 ⟨k, h⟩

theorem entries_set_of_absent {m : OrderedMap κ α} {k : κ} (v : α) (h : k ∉ m.keys) :
    (m.set k v).entries = m.entries ++ [(k, v)] :=
  setEntry_of_notMem h

theorem values_set_of_absent {m : OrderedMap κ α} {k : κ} (v : α) (h : k ∉ m.keys) :
    (m.set k v).values = m.values ++ [v] := by
  simp [values, entries_set_of_absent v h]

theorem entries_set_of_present {m : OrderedMap κ α} {k : κ} (v : α) (h : k ∈ m.keys) :
    (m.set k v).entries = replaceRow Prod.fst (k, v) m.entries :=
  setEntry_of_mem m.nodup_keys h

theorem mem_keys_of_get {m : OrderedMap κ α} {k : κ} {v : α} (h : m.get k = some v) : k ∈ m.keys :=
  List.mem_map_of_mem (f := Prod.fst) (get_eq_some_iff.1 h)

/-- Overwriting a value replaces its image in the listing. -/
theorem map_values_set_of {β : Type*} {g g' : α → β} {m : OrderedMap κ α} {k : κ} {v w : α}
    (h : m.get k = some v) (hg : g w = g' v)
    (hother : ∀ j u, m.get j = some u → j ≠ k → g u = g' u) :
    (m.set k w).values.map g = m.values.map g' := by
  rw [values, values, entries_set_of_present w (mem_keys_of_get h), replaceRow, List.map_map,
    List.map_map, List.map_map]
  refine List.map_congr_left fun e he => ?_
  have he : m.get e.1 = some e.2 := get_eq_some_iff.2 he
  by_cases hk : e.1 = k
  · have hv : e.2 = v := Option.some.inj (he.symm.trans (hk ▸ h))
    simp only [Function.comp_apply, hk, if_true, hv, hg]
  · simp only [Function.comp_apply, hk, if_false]
    exact hother e.1 e.2 he hk

/-- Overwriting a value by one of the same image keeps the images listed. -/
theorem map_values_set {β : Type*} (g : α → β) {m : OrderedMap κ α} {k : κ} {v w : α}
    (h : m.get k = some v) (hg : g v = g w) : (m.set k w).values.map g = m.values.map g :=
  map_values_set_of h hg.symm fun _ _ _ _ => rfl

/-- Maps of the same values have the same entries, in some order. -/
theorem entries_perm_of_get_eq {m n : OrderedMap κ α} (h : ∀ k, n.get k = m.get k) :
    n.entries.Perm m.entries := by
  refine (List.perm_ext_iff_of_nodup n.nodup_keys.of_map m.nodup_keys.of_map).2 ?_
  rintro ⟨k, v⟩
  rw [← get_eq_some_iff, ← get_eq_some_iff, h]

theorem values_perm_of_get_eq {m n : OrderedMap κ α} (h : ∀ k, n.get k = m.get k) :
    n.values.Perm m.values :=
  (entries_perm_of_get_eq h).map Prod.snd

/-- A map that shows the values of one map over those of another lists the values of both, if they
    have no key in common. -/
theorem values_perm_append {m n o : OrderedMap κ α} (h : ∀ k, o.get k = (n.get k).or (m.get k))
    (hdisjoint : ∀ k ∈ n.keys, k ∉ m.keys) : o.values.Perm (m.values ++ n.values) := by
  have hentries : o.entries.Perm (m.entries ++ n.entries) := by
    refine (List.perm_ext_iff_of_nodup o.nodup_keys.of_map ?_).2 ?_
    · refine List.nodup_append.2 ⟨m.nodup_keys.of_map, n.nodup_keys.of_map, ?_⟩
      rintro ⟨k, v⟩ hm _ hn rfl
      exact hdisjoint k (List.mem_map_of_mem hn) (List.mem_map_of_mem hm)
    · rintro ⟨k, v⟩
      rw [List.mem_append, ← get_eq_some_iff, ← get_eq_some_iff, ← get_eq_some_iff, h]
      cases hn : n.get k with
      | none => simp
      | some w =>
        have hm : m.get k = none := get_eq_none.2 (hdisjoint k (mem_keys_of_get hn))
        simp [hm]
  have hvalues := hentries.map Prod.snd
  rwa [List.map_append] at hvalues

/-- The listing after `set`: the written value, and those under the other keys. -/
theorem values_set_perm (m : OrderedMap κ α) (k : κ) (v : α) :
    (m.set k v).values.Perm (v :: (m.erase k).values) := by
  have habsent : k ∉ (m.erase k).keys := get_eq_none.1 (by rw [get_erase, if_pos rfl])
  have hsame : ∀ j, (m.set k v).get j = ((m.erase k).set k v).get j := by
    intro j
    rw [get_set, get_set, get_erase]
    split_ifs <;> rfl
  refine (values_perm_of_get_eq hsame).trans ?_
  rw [values_set_of_absent v habsent]
  exact List.perm_append_singleton v _

/-- Overwriting a value that fails a test only adds the written one to those that pass it. -/
theorem filter_values_set_perm {f : α → Bool} {m : OrderedMap κ α} {k : κ} (v : α)
    (hold : ∀ w, m.get k = some w → f w = false) :
    ((m.set k v).values.filter f).Perm ((v :: m.values).filter f) := by
  have hrest : ((m.erase k).values.filter f).Perm (m.values.filter f) := by
    cases hk : m.get k with
    | none =>
      refine (values_perm_of_get_eq fun j => ?_).filter f
      rw [get_erase]
      split_ifs with hj
      · rw [hj, hk]
      · rfl
    | some w =>
      have hsame : ∀ j, m.get j = (m.set k w).get j := by
        intro j
        rw [get_set]
        split_ifs with hj
        · rw [hj, hk]
        · rfl
      have hperm := ((values_perm_of_get_eq hsame).trans (values_set_perm m k w)).filter f
      rw [List.filter_cons_of_neg (by simpa using hold w hk)] at hperm
      exact hperm.symm
  have hset := (values_set_perm m k v).filter f
  by_cases hv : f v
  · rw [List.filter_cons_of_pos hv] at hset ⊢
    exact hset.trans (hrest.cons v)
  · rw [List.filter_cons_of_neg hv] at hset ⊢
    exact hset.trans hrest

/-- The sum over the listing after a value was overwritten. -/
theorem sum_values_set {M : Type*} [AddCommGroup M] (f : α → M) {m : OrderedMap κ α} {k : κ}
    {v w : α} (h : m.get k = some v) :
    ((m.set k w).values.map f).sum = (m.values.map f).sum - f v + f w := by
  rw [values, values, entries_set_of_present w (mem_keys_of_get h), List.map_map, List.map_map]
  exact sum_replaceRow (f ∘ Prod.snd) m.nodup_keys (get_eq_some_iff.1 h) rfl

/-- A value listed after `set` is the written one or was listed before. -/
theorem mem_values_set {m : OrderedMap κ α} {k : κ} {v w : α} (h : w ∈ (m.set k v).values) :
    w = v ∨ w ∈ m.values := by
  obtain ⟨j, hj⟩ := mem_values_iff.1 h
  rw [get_set] at hj
  split_ifs at hj with hjk
  · exact Or.inl (Option.some.inj hj).symm
  · exact Or.inr (mem_values_of_get hj)

/-! ## Maps filled from a list -/

/-- Setting values under new keys that differ appends them. -/
theorem entries_foldl_set {β : Type*} {key : β → κ} (value : β → α) {l : List β}
    {m : OrderedMap κ α} (hkeys : (l.map key).Nodup) (hnew : ∀ b ∈ l, key b ∉ m.keys) :
    (l.foldl (fun m b => m.set (key b) (value b)) m).entries =
      m.entries ++ l.map fun b => (key b, value b) := by
  induction l generalizing m with
  | nil => exact (List.append_nil m.entries).symm
  | cons b l ih =>
    obtain ⟨hb, hkeys⟩ := List.nodup_cons.1 hkeys
    have habsent : key b ∉ m.keys := hnew b List.mem_cons_self
    rw [List.foldl_cons, ih hkeys ?_, entries_set_of_absent _ habsent, List.append_assoc]
    · rfl
    · intro c hc hmem
      rcases mem_keys_set.1 hmem with heq | hold
      · exact hb (heq ▸ List.mem_map_of_mem hc)
      · exact hnew c (List.mem_cons_of_mem b hc) hold

/-- The map filled from a list, each entry under its key: of several entries with one key the
    last is kept, in the place of the first. -/
def ofList (key : α → κ) (l : List α) : OrderedMap κ α := l.foldl (fun m a => m.set (key a) a) ∅

@[simp] theorem ofList_nil (key : α → κ) : ofList key [] = ∅ := rfl

theorem ofList_append_singleton (key : α → κ) (l : List α) (a : α) :
    ofList key (l ++ [a]) = (ofList key l).set (key a) a := by
  rw [ofList, List.foldl_append]
  rfl

/-- A map filled from entries with different keys lists them as they came. -/
theorem values_ofList_of_nodup {key : α → κ} {l : List α} (h : (l.map key).Nodup) :
    (ofList key l).values = l := by
  have hentries : (ofList key l).entries = [] ++ l.map fun a => (key a, a) :=
    entries_foldl_set id h fun _ _ => List.not_mem_nil
  rw [values, hentries, List.nil_append, List.map_map]
  exact List.map_id l

theorem get_ofList {key : α → κ} {l : List α} {k : κ} {a : α} (h : (ofList key l).get k = some a) :
    a ∈ l ∧ key a = k := by
  induction l using List.reverseRecOn with
  | nil => cases h
  | append_singleton l b ih =>
    rw [ofList_append_singleton, get_set] at h
    split_ifs at h with hk
    · cases h
      exact ⟨List.mem_append_right _ (List.mem_singleton_self a), hk.symm⟩
    · exact ⟨List.mem_append_left _ (ih h).1, (ih h).2⟩

theorem mem_keys_ofList {key : α → κ} {l : List α} {k : κ} :
    k ∈ (ofList key l).keys ↔ k ∈ l.map key := by
  induction l using List.reverseRecOn with
  | nil => simp
  | append_singleton l b ih =>
    rw [ofList_append_singleton, mem_keys_set, ih, List.map_append, List.mem_append,
      List.map_singleton, List.mem_singleton, or_comm]

theorem mem_of_mem_values_ofList {key : α → κ} {l : List α} {a : α}
    (h : a ∈ (ofList key l).values) : a ∈ l := by
  obtain ⟨k, hk⟩ := mem_values_iff.1 h
  exact (get_ofList hk).1

/-- The kept entries have different keys. -/
theorem nodup_key_values_ofList (key : α → κ) (l : List α) :
    ((ofList key l).values.map key).Nodup := by
  have hkeys : (ofList key l).values.map key = (ofList key l).keys := by
    rw [values, keys, List.map_map]
    refine List.map_congr_left fun e he => ?_
    exact (get_ofList (get_eq_some_iff.2 he)).2
  rw [hkeys]
  exact (ofList key l).nodup_keys

/-- The entries of a list that no later entry of the same key follows. -/
def lastOf (key : α → κ) : List α → List α
  | [] => []
  | a :: l => if key a ∈ l.map key then lastOf key l else a :: lastOf key l

theorem lastOf_sublist (key : α → κ) (l : List α) : (lastOf key l).Sublist l := by
  induction l with
  | nil => exact .slnil
  | cons a l ih =>
    rw [lastOf]
    split
    · exact ih.cons a
    · exact ih.cons_cons a

theorem lastOf_append_singleton (key : α → κ) (l : List α) (b : α) :
    lastOf key (l ++ [b]) = (lastOf key l).filter (fun a => decide (key a ≠ key b)) ++ [b] := by
  induction l with
  | nil => rfl
  | cons a l ih =>
    rw [List.cons_append, lastOf, ih, lastOf, List.map_append, List.map_singleton]
    by_cases hl : key a ∈ l.map key
    · rw [if_pos (List.mem_append_left _ hl), if_pos hl]
    · rw [if_neg hl]
      by_cases hb : key a = key b
      · rw [if_pos (List.mem_append_right _ (List.mem_singleton.2 hb))]
        simp [hb]
      · rw [if_neg (by
          simp only [List.mem_append, List.mem_singleton, hl, hb, or_self, not_false_eq_true])]
        simp [hb]

theorem mem_map_lastOf {key : α → κ} {l : List α} {k : κ} :
    k ∈ (lastOf key l).map key ↔ k ∈ l.map key := by
  induction l with
  | nil => rfl
  | cons a l ih =>
    rw [lastOf, List.map_cons, List.mem_cons]
    split
    · rename_i ha
      rw [ih]
      exact (or_iff_right_of_imp fun hk => hk ▸ ha).symm
    · rw [List.map_cons, List.mem_cons, ih]

theorem mem_lastOf {key : α → κ} {l : List α} {a : α} :
    a ∈ lastOf key l ↔ (ofList key l).get (key a) = some a := by
  induction l using List.reverseRecOn with
  | nil => simp [lastOf]
  | append_singleton l b ih =>
    rw [lastOf_append_singleton, ofList_append_singleton, get_set, List.mem_append, List.mem_filter,
      List.mem_singleton, ih]
    by_cases hk : key a = key b
    · simp [hk, eq_comm]
    · have hne : a ≠ b := fun he => hk (he ▸ rfl)
      simp [hk, hne]

/-- The map filled from a list keeps, of the entries with one key, the last. -/
theorem values_ofList_perm (key : α → κ) (l : List α) :
    (ofList key l).values.Perm (lastOf key l) := by
  have hlast : ((lastOf key l).map key).Nodup := by
    induction l with
    | nil => exact List.nodup_nil
    | cons a l ih =>
      rw [lastOf]
      split
      · exact ih
      · rename_i ha
        rw [List.map_cons, List.nodup_cons]
        exact ⟨fun hmem => ha ((List.Sublist.map key (lastOf_sublist key l)).subset hmem), ih⟩
  refine (List.perm_ext_iff_of_nodup (nodup_key_values_ofList key l).of_map hlast.of_map).2 ?_
  intro a
  rw [mem_lastOf, mem_values_iff]
  constructor
  · rintro ⟨k, hk⟩
    rwa [(get_ofList hk).2]
  · exact fun h => ⟨_, h⟩

theorem lastOf_of_nodup {key : α → κ} {l : List α} (h : (l.map key).Nodup) : lastOf key l = l := by
  induction l with
  | nil => rfl
  | cons a l ih =>
    rw [List.map_cons, List.nodup_cons] at h
    rw [lastOf, if_neg h.1, ih h.2]

/-- Lists of different keys in two orders fill maps with the same values. -/
theorem get_ofList_of_perm {key : α → κ} {l l' : List α} (h : (l.map key).Nodup)
    (hl : l'.Perm l) (k : κ) : (ofList key l').get k = (ofList key l).get k := by
  have hkept : ∀ {m : List α}, (m.map key).Nodup → ∀ a,
      (ofList key m).get k = some a ↔ a ∈ m ∧ key a = k := by
    intro m hm a
    refine ⟨get_ofList, ?_⟩
    rintro ⟨ha, rfl⟩
    exact mem_lastOf.1 (by rwa [lastOf_of_nodup hm])
  refine Option.ext fun a => ?_
  rw [hkept h, hkept ((hl.map key).nodup_iff.2 h), hl.mem_iff]

end OrderedMap

end InventoryBot.Lib
