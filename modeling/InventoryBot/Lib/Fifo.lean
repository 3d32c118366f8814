import Mathlib.Algebra.Order.Group.MinMax
import Mathlib.Algebra.BigOperators.Group.List.Basic
import Mathlib.Algebra.Order.BigOperators.Group.List
import Mathlib.Tactic.Abel
import Mathlib.Tactic.Linarith

/-!
# First-in first-out allocation

Demands are served from a queue of lots, each demand from the first lots that still hold
something. The greedy allocation is compared with its reference definition: put the lots
and the demands end to end, as consecutive intervals; demand `i` takes from lot `j` the
length of the overlap of their intervals.

* `alloc_sum`: a demand takes the smaller of itself and what the lots hold.
* `alloc_getElem`, `allocAll_getElem`: the greedy allocation is the overlap of the
  cumulative intervals, for one demand and for a sequence of demands.
* `cum_residual`: what a demand leaves, as cumulative sums.
* `reached_add`, `endsInside_add`: how far two demands come, one after the other.
* `whole_iff_aligned`: no demand takes a lot in part exactly if each of them ends with a lot.
-/

namespace InventoryBot.Lib.Fifo

variable {α : Type*} [AddCommGroup α] [LinearOrder α] [IsOrderedAddMonoid α]

/-- What a demand of `s` takes from each lot. -/
def alloc (s : α) : List α → List α
  | [] => []
  | q :: qs => min s q :: alloc (s - min s q) qs

/-- What a demand of `s` leaves in each lot. -/
def residual (s : α) : List α → List α
  | [] => []
  | q :: qs => (q - min s q) :: residual (s - min s q) qs

/-- What each of a sequence of demands takes from each lot. -/
def allocAll : List α → List α → List (List α)
  | [], _ => []
  | s :: ss, qs => alloc s qs :: allocAll ss (residual s qs)

/-- What a sequence of demands leaves in each lot. -/
def residualAll : List α → List α → List α
  | [], qs => qs
  | s :: ss, qs => residualAll ss (residual s qs)

/-- The sum of the first `j` entries. -/
def cum (qs : List α) (j : ℕ) : α := (qs.take j).sum

/-- The length of the overlap of the intervals `[a, b]` and `[c, d]`. -/
def overlap (a b c d : α) : α := max 0 (min b d - max a c)

/-! ## Cumulative sums -/

omit [LinearOrder α] [IsOrderedAddMonoid α] in
@[simp] theorem cum_zero (qs : List α) : cum qs 0 = 0 := by simp [cum]

omit [LinearOrder α] [IsOrderedAddMonoid α] in
@[simp] theorem cum_cons_succ (q : α) (qs : List α) (j : ℕ) :
    cum (q :: qs) (j + 1) = q + cum qs j := by simp [cum]

omit [LinearOrder α] [IsOrderedAddMonoid α] in
theorem cum_succ (qs : List α) {j : ℕ} (hj : j < qs.length) : cum qs (j + 1) = cum qs j + qs[j] := by
  simp [cum, List.sum_take_succ qs j hj]

omit [LinearOrder α] [IsOrderedAddMonoid α] in
theorem cum_of_length_le {qs : List α} {j : ℕ} (hj : qs.length ≤ j) : cum qs j = qs.sum := by
  rw [cum, List.take_of_length_le hj]

theorem cum_nonneg {qs : List α} (h : ∀ q ∈ qs, 0 ≤ q) (j : ℕ) : 0 ≤ cum qs j :=
  List.sum_nonneg fun q hq => h q (List.mem_of_mem_take hq)

theorem cum_succ_pos {qs : List α} (h : ∀ q ∈ qs, 0 < q) {j : ℕ} (hj : j < qs.length) :
    0 < cum qs (j + 1) := by
  rw [cum_succ qs hj]
  exact add_pos_of_nonneg_of_pos (cum_nonneg (fun q hq => (h q hq).le) j)
    (h _ (List.getElem_mem hj))

theorem cum_le_succ {qs : List α} (h : ∀ q ∈ qs, 0 ≤ q) (j : ℕ) : cum qs j ≤ cum qs (j + 1) := by
  rcases Nat.lt_or_ge j qs.length with hj | hj
  · rw [cum_succ qs hj]
    exact le_add_of_nonneg_right (h _ (List.getElem_mem hj))
  · rw [cum_of_length_le hj, cum_of_length_le (by omega)]

/-! ## One demand -/

omit [IsOrderedAddMonoid α] in
@[simp] theorem length_alloc (s : α) (qs : List α) : (alloc s qs).length = qs.length := by
  induction qs generalizing s with
  | nil => rfl
  | cons q qs ih => simp [alloc, ih]

omit [IsOrderedAddMonoid α] in
@[simp] theorem length_residual (s : α) (qs : List α) : (residual s qs).length = qs.length := by
  induction qs generalizing s with
  | nil => rfl
  | cons q qs ih => simp [residual, ih]

theorem sub_min_nonneg (s q : α) : 0 ≤ s - min s q := sub_nonneg.2 (min_le_left s q)

omit [IsOrderedAddMonoid α] in
theorem alloc_add_residual (s : α) (qs : List α) :
    (alloc s qs).sum + (residual s qs).sum = qs.sum := by
  induction qs generalizing s with
  | nil => simp [alloc, residual]
  | cons q qs ih =>
    have h := ih (s - min s q)
    simp only [alloc, residual, List.sum_cons]
    rw [← h]
    abel

/-- A demand takes the smaller of itself and of what there is. -/
theorem alloc_sum {s : α} {qs : List α} (hs : 0 ≤ s) (h : ∀ q ∈ qs, 0 ≤ q) :
    (alloc s qs).sum = min s qs.sum := by
  induction qs generalizing s with
  | nil => simp [alloc, hs]
  | cons q qs ih =>
    have hq : 0 ≤ q := h q List.mem_cons_self
    have hqs : ∀ x ∈ qs, 0 ≤ x := fun x hx => h x (List.mem_cons_of_mem _ hx)
    have hsum : 0 ≤ qs.sum := List.sum_nonneg hqs
    rw [alloc, List.sum_cons, ih (sub_min_nonneg s q) hqs, List.sum_cons]
    rcases le_total s q with hsq | hsq
    · rw [min_eq_left hsq, sub_self, min_eq_left hsum, add_zero,
        min_eq_left (hsq.trans (le_add_of_nonneg_right hsum))]
    · rw [min_eq_right hsq, ← min_add_add_left, add_sub_cancel]

theorem residual_sum {s : α} {qs : List α} (hs : 0 ≤ s) (h : ∀ q ∈ qs, 0 ≤ q) :
    (residual s qs).sum = qs.sum - min s qs.sum := by
  rw [← alloc_sum hs h, ← alloc_add_residual s qs]
  abel

omit [IsOrderedAddMonoid α] in
theorem alloc_zero {qs : List α} (h : ∀ q ∈ qs, 0 ≤ q) : alloc 0 qs = qs.map fun _ => 0 := by
  induction qs with
  | nil => rfl
  | cons q qs ih =>
    have hq : 0 ≤ q := h q List.mem_cons_self
    simp only [alloc, min_eq_left hq, sub_zero, List.map_cons]
    rw [ih fun x hx => h x (List.mem_cons_of_mem _ hx)]

omit [IsOrderedAddMonoid α] in
theorem residual_zero {qs : List α} (h : ∀ q ∈ qs, 0 ≤ q) : residual 0 qs = qs := by
  induction qs with
  | nil => rfl
  | cons q qs ih =>
    have hq : 0 ≤ q := h q List.mem_cons_self
    simp only [residual, min_eq_left hq, sub_zero]
    rw [ih fun x hx => h x (List.mem_cons_of_mem _ hx)]

theorem alloc_nonneg {s : α} {qs : List α} (hs : 0 ≤ s) (h : ∀ q ∈ qs, 0 ≤ q) :
    ∀ x ∈ alloc s qs, 0 ≤ x := by
  induction qs generalizing s with
  | nil => simp [alloc]
  | cons q qs ih =>
    intro x hx
    rw [alloc, List.mem_cons] at hx
    rcases hx with rfl | hx
    · exact le_min hs (h q List.mem_cons_self)
    · exact ih (sub_min_nonneg s q) (fun y hy => h y (List.mem_cons_of_mem _ hy)) x hx

theorem residual_nonneg {s : α} {qs : List α} : ∀ x ∈ residual s qs, 0 ≤ x := by
  induction qs generalizing s with
  | nil => simp [residual]
  | cons q qs ih =>
    intro x hx
    rw [residual, List.mem_cons] at hx
    rcases hx with rfl | hx
    · exact sub_nonneg.2 (min_le_right s q)
    · exact ih x hx

/-- The greedy allocation of one demand, by cumulative sums. -/
theorem alloc_getElem {s : α} {qs : List α} (hs : 0 ≤ s) (h : ∀ q ∈ qs, 0 ≤ q) {j : ℕ}
    (hj : j < (alloc s qs).length) :
    (alloc s qs)[j] = overlap 0 s (cum qs j) (cum qs (j + 1)) := by
  induction qs generalizing s j with
  | nil => simp [alloc] at hj
  | cons q qs ih =>
    have hq : 0 ≤ q := h q List.mem_cons_self
    have hqs : ∀ x ∈ qs, 0 ≤ x := fun x hx => h x (List.mem_cons_of_mem _ hx)
    cases j with
    | zero => simp [alloc, overlap, hs, hq]
    | succ j =>
      have hj' : j < (alloc (s - min s q) qs).length := by simpa [alloc] using hj
      simp only [alloc, List.getElem_cons_succ]
      rw [ih (sub_min_nonneg s q) hqs hj', cum_cons_succ, cum_cons_succ]
      have hc : 0 ≤ cum qs j := cum_nonneg hqs j
      have hc' : 0 ≤ cum qs (j + 1) := cum_nonneg hqs (j + 1)
      rcases le_total s q with hsq | hsq
      · -- nothing is left for the later lots
        have hl : min 0 (cum qs (j + 1)) - max 0 (cum qs j) ≤ 0 := by
          rw [min_eq_left hc', max_eq_right hc, zero_sub]
          exact neg_nonpos.2 hc
        have hr : min s (q + cum qs (j + 1)) - max 0 (q + cum qs j) ≤ 0 := by
          rw [sub_nonpos]
          exact (min_le_left _ _).trans
            ((hsq.trans (le_add_of_nonneg_right hc)).trans (le_max_right _ _))
        rw [min_eq_left hsq, sub_self, overlap, overlap, max_eq_left hl, max_eq_left hr]
      · -- the demand and the later lots, shifted by `q`
        rw [min_eq_right hsq, overlap, overlap, max_eq_right hc,
          max_eq_right (add_nonneg hq hc)]
        congr 1
        have hmin : min s (q + cum qs (j + 1)) = q + min (s - q) (cum qs (j + 1)) := by
          rw [← min_add_add_left, add_sub_cancel]
        rw [hmin]
        abel

/-- What a demand leaves in the first `j` lots. -/
theorem cum_residual {s : α} {qs : List α} (hs : 0 ≤ s) (h : ∀ q ∈ qs, 0 ≤ q) (j : ℕ) :
    cum (residual s qs) j = max 0 (cum qs j - s) := by
  induction qs generalizing s j with
  | nil => simp [residual, cum, hs]
  | cons q qs ih =>
    have hq : 0 ≤ q := h q List.mem_cons_self
    have hqs : ∀ x ∈ qs, 0 ≤ x := fun x hx => h x (List.mem_cons_of_mem _ hx)
    cases j with
    | zero => simp [hs]
    | succ j =>
      rw [residual, cum_cons_succ, cum_cons_succ, ih (sub_min_nonneg s q) hqs]
      have hc : 0 ≤ cum qs j := cum_nonneg hqs j
      rcases le_total s q with hsq | hsq
      · have hle : 0 ≤ q + cum qs j - s := sub_nonneg.2 (hsq.trans (le_add_of_nonneg_right hc))
        rw [min_eq_left hsq, sub_self, sub_zero, max_eq_right hc, max_eq_right hle]
        abel
      · rw [min_eq_right hsq, sub_self, zero_add]
        congr 1
        abel

/-! ## How far a demand comes -/

/-- A demand of `s` takes something from lot `j`. -/
def Reached (s : α) (qs : List α) (j : ℕ) : Prop := cum qs j < s ∧ cum qs j < cum qs (j + 1)

/-- A demand of `s` takes a part of lot `j` and leaves a part. -/
def EndsInside (s : α) (qs : List α) (j : ℕ) : Prop := cum qs j < s ∧ s < cum qs (j + 1)

omit [IsOrderedAddMonoid α] in
theorem EndsInside.reached {s : α} {qs : List α} {j : ℕ} (h : EndsInside s qs j) :
    Reached s qs j :=
  ⟨h.1, h.1.trans h.2⟩

theorem not_reached_of_nonpos {s : α} {qs : List α} (hs : s ≤ 0) (h : ∀ q ∈ qs, 0 ≤ q) (j : ℕ) :
    ¬Reached s qs j :=
  fun hr => absurd hr.1 (not_lt.2 (hs.trans (cum_nonneg h j)))

omit [IsOrderedAddMonoid α] in
theorem reached_cons_zero {s q : α} {qs : List α} : Reached s (q :: qs) 0 ↔ 0 < s ∧ 0 < q := by
  rw [Reached, cum_cons_succ, cum_zero, cum_zero, add_zero]

omit [IsOrderedAddMonoid α] in
theorem endsInside_cons_zero {s q : α} {qs : List α} :
    EndsInside s (q :: qs) 0 ↔ 0 < s ∧ s < q := by
  rw [EndsInside, cum_cons_succ, cum_zero, cum_zero, add_zero]

theorem reached_cons_succ {s q : α} {qs : List α} {j : ℕ} :
    Reached s (q :: qs) (j + 1) ↔ Reached (s - q) qs j := by
  rw [Reached, Reached, cum_cons_succ, cum_cons_succ, add_lt_add_iff_left, lt_sub_iff_add_lt']

theorem endsInside_cons_succ {s q : α} {qs : List α} {j : ℕ} :
    EndsInside s (q :: qs) (j + 1) ↔ EndsInside (s - q) qs j := by
  rw [EndsInside, EndsInside, cum_cons_succ, cum_cons_succ, lt_sub_iff_add_lt',
    sub_lt_iff_lt_add']

/-- Two demands come as far as one of them does, the second with what the first has left. -/
theorem reached_add {s t : α} {qs : List α} (hs : 0 ≤ s) (h : ∀ q ∈ qs, 0 ≤ q) (ht : 0 ≤ t)
    (j : ℕ) : Reached (s + t) qs j ↔ Reached s qs j ∨ Reached t (residual s qs) j := by
  unfold Reached
  rw [cum_residual hs h, cum_residual hs h]
  constructor
  · rintro ⟨hlt, hlot⟩
    rcases lt_or_ge (cum qs j) s with hj | hj
    · exact Or.inl ⟨hj, hlot⟩
    · rw [max_eq_right (sub_nonneg.2 hj), max_eq_right (sub_nonneg.2 (hj.trans hlot.le))]
      exact Or.inr ⟨sub_lt_iff_lt_add'.2 hlt, sub_lt_sub_right hlot s⟩
  · rintro (⟨hj, hlot⟩ | ⟨hlt, hlot⟩)
    · exact ⟨hj.trans_le (le_add_of_nonneg_right ht), hlot⟩
    · refine ⟨sub_lt_iff_lt_add'.1 ((le_max_right _ _).trans_lt hlt), ?_⟩
      by_contra hle
      exact absurd hlot (not_lt.2 (max_le_max_left 0 (sub_le_sub_right (not_lt.1 hle) s)))

/-- A demand ends inside the lot in which it ends after what was taken before. -/
theorem endsInside_add {s t : α} {qs : List α} (hs : 0 ≤ s) (h : ∀ q ∈ qs, 0 ≤ q) (ht : 0 < t)
    (j : ℕ) : EndsInside (s + t) qs j ↔ EndsInside t (residual s qs) j := by
  unfold EndsInside
  rw [cum_residual hs h, cum_residual hs h, max_lt_iff, lt_max_iff, sub_lt_iff_lt_add',
    lt_sub_iff_add_lt', and_iff_right ht, or_iff_right ht.not_gt]

/-! ## A sequence of demands -/

omit [IsOrderedAddMonoid α] in
@[simp] theorem length_allocAll (ss qs : List α) : (allocAll ss qs).length = ss.length := by
  induction ss generalizing qs with
  | nil => rfl
  | cons s ss ih => simp [allocAll, ih]

omit [IsOrderedAddMonoid α] in
theorem length_getElem_allocAll {ss qs : List α} {i : ℕ} (hi : i < (allocAll ss qs).length) :
    (allocAll ss qs)[i].length = qs.length := by
  induction ss generalizing qs i with
  | nil => simp [allocAll] at hi
  | cons s ss ih =>
    cases i with
    | zero => simp [allocAll]
    | succ i =>
      have hi' : i < (allocAll ss (residual s qs)).length := by simpa [allocAll] using hi
      simp only [allocAll, List.getElem_cons_succ]
      rw [ih hi', length_residual]

omit [IsOrderedAddMonoid α] in
@[simp] theorem length_residualAll (ss qs : List α) : (residualAll ss qs).length = qs.length := by
  induction ss generalizing qs with
  | nil => rfl
  | cons s ss ih => rw [residualAll, ih, length_residual]

/-- Serving `[a, b]` from lots that an earlier demand of `s` was taken from is serving the
    interval shifted by `s` from the lots as they were. -/
theorem overlap_shift {s a b c d : α} (ha : 0 ≤ a) (hab : a ≤ b) (hcd : c ≤ d) :
    overlap a b (max 0 (c - s)) (max 0 (d - s)) = overlap (s + a) (s + b) c d := by
  unfold overlap
  rcases le_total d s with hd | hd
  · -- the lot was used up before
    have hc : c ≤ s := hcd.trans hd
    rw [max_eq_left (sub_nonpos.2 hd), max_eq_left (sub_nonpos.2 hc),
      min_eq_right (ha.trans hab), max_eq_left ha, zero_sub, max_eq_left (neg_nonpos.2 ha)]
    have hle : min (s + b) d - max (s + a) c ≤ 0 := by
      rw [sub_nonpos]
      exact (min_le_right _ _).trans ((hd.trans (le_add_of_nonneg_right ha)).trans (le_max_left _ _))
    rw [max_eq_left hle]
  · rw [max_eq_right (sub_nonneg.2 hd)]
    have hmin : min (s + b) d = s + min b (d - s) := by
      rw [← min_add_add_left, add_sub_cancel]
    have hmax : max (s + a) c = s + max a (max 0 (c - s)) := by
      rw [← max_assoc, max_eq_left ha, ← max_add_add_left, add_sub_cancel]
    rw [hmin, hmax]
    congr 1
    abel

/-- The greedy allocation of a sequence of demands is the overlap of cumulative intervals. -/
theorem allocAll_getElem {ss qs : List α} (hs : ∀ s ∈ ss, 0 ≤ s) (h : ∀ q ∈ qs, 0 ≤ q) {i j : ℕ}
    (hi : i < (allocAll ss qs).length) (hj : j < (allocAll ss qs)[i].length) :
    (allocAll ss qs)[i][j] = overlap (cum ss i) (cum ss (i + 1)) (cum qs j) (cum qs (j + 1)) := by
  induction ss generalizing qs i with
  | nil => simp [allocAll] at hi
  | cons s ss ih =>
    have hs0 : 0 ≤ s := hs s List.mem_cons_self
    have hss : ∀ x ∈ ss, 0 ≤ x := fun x hx => hs x (List.mem_cons_of_mem _ hx)
    cases i with
    | zero =>
      simp only [allocAll, List.getElem_cons_zero, cum_zero, cum_cons_succ, add_zero] at hj ⊢
      exact alloc_getElem hs0 h hj
    | succ i =>
      have hi' : i < (allocAll ss (residual s qs)).length := by simpa [allocAll] using hi
      simp only [allocAll, List.getElem_cons_succ] at hj ⊢
      rw [ih hss residual_nonneg hi' hj, cum_residual hs0 h, cum_residual hs0 h,
        overlap_shift (cum_nonneg hss i) (cum_le_succ hss i) (cum_le_succ h j),
        cum_cons_succ, cum_cons_succ]

/-- What a sequence of demands leaves in the first `j` lots. -/
theorem cum_residualAll {ss qs : List α} (hs : ∀ s ∈ ss, 0 ≤ s) (h : ∀ q ∈ qs, 0 ≤ q) (j : ℕ) :
    cum (residualAll ss qs) j = max 0 (cum qs j - ss.sum) := by
  induction ss generalizing qs with
  | nil => simp [residualAll, cum_nonneg h j]
  | cons s ss ih =>
    have hs0 : 0 ≤ s := hs s List.mem_cons_self
    have hss : ∀ x ∈ ss, 0 ≤ x := fun x hx => hs x (List.mem_cons_of_mem _ hx)
    rw [residualAll, ih hss residual_nonneg, cum_residual hs0 h, List.sum_cons]
    have hsum : 0 ≤ ss.sum := List.sum_nonneg hss
    rcases le_total (cum qs j) s with hc | hc
    · rw [max_eq_left (sub_nonpos.2 hc), zero_sub, max_eq_left (neg_nonpos.2 hsum), max_eq_left]
      exact sub_nonpos.2 (hc.trans (le_add_of_nonneg_right hsum))
    · rw [max_eq_right (sub_nonneg.2 hc)]
      congr 1
      abel

/-! ## Demands that end with a lot -/

/-- A demand of `s` takes every lot in full or not at all. -/
def Fits (s : α) (qs : List α) : Prop := qs.sum ≤ s ∨ ∃ j ≤ qs.length, cum qs j = s

/-- Every demand of a sequence takes every lot as it finds it in full or not at all. -/
def Aligned (ss qs : List α) : Prop := ∀ i ≤ ss.length, Fits (cum ss i) qs

instance (s : α) (qs : List α) : Decidable (Fits s qs) := inferInstanceAs (Decidable (_ ∨ _))

instance (ss qs : List α) : Decidable (Aligned ss qs) :=
  decidable_of_iff (∀ i < ss.length + 1, Fits (cum ss i) qs) (by simp only [Nat.lt_succ_iff, Aligned])

omit [IsOrderedAddMonoid α] in
theorem fits_nil {s : α} (hs : 0 ≤ s) : Fits s [] := Or.inl (by simpa using hs)

/-- A demand that takes the first lot in full goes on with the others. -/
theorem fits_cons_of_le {s q : α} {qs : List α} (hq : 0 ≤ q) (hle : q ≤ s) :
    Fits s (q :: qs) ↔ Fits (s - q) qs := by
  unfold Fits
  rw [List.sum_cons, le_sub_iff_add_le, add_comm qs.sum q]
  refine or_congr Iff.rfl ⟨?_, ?_⟩
  · rintro ⟨j, hj, hcum⟩
    cases j with
    | zero =>
      rw [cum_zero] at hcum
      refine ⟨0, Nat.zero_le _, ?_⟩
      have hq0 : q = 0 := le_antisymm (hle.trans_eq hcum.symm) hq
      rw [cum_zero, ← hcum, hq0, sub_zero]
    | succ j =>
      rw [cum_cons_succ] at hcum
      exact ⟨j, Nat.le_of_succ_le_succ hj, by rw [← hcum, add_sub_cancel_left]⟩
  · rintro ⟨j, hj, hcum⟩
    exact ⟨j + 1, Nat.succ_le_succ hj, by rw [cum_cons_succ, hcum, add_sub_cancel]⟩

/-- A demand that is smaller than the first lot takes it in part. -/
theorem not_fits_of_lt {s q : α} {qs : List α} (hs : 0 < s) (hlt : s < q)
    (h : ∀ x ∈ qs, 0 ≤ x) : ¬Fits s (q :: qs) := by
  rintro (hsum | ⟨j, -, hcum⟩)
  · rw [List.sum_cons] at hsum
    exact absurd hsum (not_le.2 (hlt.trans_le (le_add_of_nonneg_right (List.sum_nonneg h))))
  · cases j with
    | zero => exact hs.ne ((cum_zero _).symm.trans hcum)
    | succ j =>
      rw [cum_cons_succ] at hcum
      exact absurd hcum (hlt.trans_le (le_add_of_nonneg_right (cum_nonneg h j))).ne'

/-- The demands after the first find what it left. -/
theorem aligned_cons {s : α} {ss qs : List α} (hs : 0 < s) (hss : ∀ x ∈ ss, 0 < x)
    (h : ∀ q ∈ qs, 0 ≤ q) :
    Aligned (s :: ss) qs ↔ Fits s qs ∧ Aligned ss (residual s qs) := by
  have hsum : (residual s qs).sum = qs.sum - min s qs.sum := residual_sum hs.le h
  constructor
  · intro hall
    refine ⟨by simpa using hall 1 (by simp), fun i hi => ?_⟩
    have hcum : 0 ≤ cum ss i := cum_nonneg (fun x hx => (hss x hx).le) i
    have hnext := hall (i + 1) (by simpa using hi)
    rw [cum_cons_succ] at hnext
    rcases hnext with hle | ⟨j, hj, hj'⟩
    · refine Or.inl ?_
      rw [hsum]
      rcases le_total s qs.sum with hmin | hmin
      · rwa [min_eq_left hmin, sub_le_iff_le_add']
      · rwa [min_eq_right hmin, sub_self]
    · refine Or.inr ⟨j, by rwa [length_residual], ?_⟩
      rw [cum_residual hs.le h, hj', add_sub_cancel_left, max_eq_right hcum]
  · rintro ⟨hfits, hrest⟩ i hi
    cases i with
    | zero => exact Or.inr ⟨0, Nat.zero_le _, by simp⟩
    | succ i =>
      rw [cum_cons_succ]
      cases i with
      | zero => simpa using hfits
      | succ i =>
        have hi : i + 1 ≤ ss.length := by simpa using hi
        have hcum : 0 < cum ss (i + 1) := cum_succ_pos hss hi
        rcases hrest (i + 1) hi with hle | ⟨j, hj, hj'⟩
        · refine Or.inl ?_
          rw [hsum, sub_le_iff_le_add'] at hle
          exact hle.trans (add_le_add (min_le_left _ _) le_rfl)
        · rw [length_residual] at hj
          rw [cum_residual hs.le h] at hj'
          refine Or.inr ⟨j, hj, ?_⟩
          rcases max_choice 0 (cum qs j - s) with hmax | hmax
          · rw [hmax] at hj'
            exact absurd hj' hcum.ne
          · rw [hmax] at hj'
            rw [← hj', add_sub_cancel]

/-! ## Demands that are served in whole lots -/

/-- What a demand of `s` leaves of the lots when it takes one after the other in full; `none` where
    it would take one in part. -/
def takeWhole (s : α) : List α → Option (List α)
  | [] => some []
  | q :: qs => if q ≤ s then (if s - q = 0 then some qs else takeWhole (s - q) qs) else none

/-- What a sequence of demands leaves of the lots, each demand taking whole lots. -/
def takeAllWhole : List α → List α → Option (List α)
  | [], qs => some qs
  | s :: ss, qs => (takeWhole s qs).bind (takeAllWhole ss)

/-- No demand of a sequence takes a lot in part. -/
def Whole (ss qs : List α) : Prop := (takeAllWhole ss qs).isSome = true

instance (ss qs : List α) : Decidable (Whole ss qs) := inferInstanceAs (Decidable (_ = true))

omit [IsOrderedAddMonoid α] in
/-- Where there are lots, a demand takes one. -/
theorem takeWhole_length_lt {s : α} {qs rest : List α} (hne : qs ≠ [])
    (h : takeWhole s qs = some rest) : rest.length < qs.length := by
  induction qs generalizing s with
  | nil => exact absurd rfl hne
  | cons q qs ih =>
    rw [takeWhole] at h
    split at h
    · split at h
      · cases h
        exact Nat.lt_succ_self _
      · cases qs with
        | nil =>
          cases h
          exact Nat.zero_lt_one
        | cons q' qs => exact (ih (List.cons_ne_nil _ _) h).trans (Nat.lt_succ_self _)
    · cases h

omit [IsOrderedAddMonoid α] in
theorem takeAllWhole_length_le {ss qs rest : List α} (h : takeAllWhole ss qs = some rest) :
    rest.length ≤ qs.length := by
  induction ss generalizing qs with
  | nil =>
    cases h
    exact le_rfl
  | cons s ss ih =>
    obtain ⟨left, hleft, h⟩ := Option.bind_eq_some_iff.1 h
    refine (ih h).trans ?_
    cases qs with
    | nil =>
      cases hleft
      exact le_rfl
    | cons q qs => exact (takeWhole_length_lt (List.cons_ne_nil _ _) hleft).le

omit [IsOrderedAddMonoid α] in
theorem takeAllWhole_length_lt {ss qs rest : List α} (hss : ss ≠ []) (hqs : qs ≠ [])
    (h : takeAllWhole ss qs = some rest) : rest.length < qs.length := by
  cases ss with
  | nil => exact absurd rfl hss
  | cons s ss =>
    obtain ⟨left, hleft, h⟩ := Option.bind_eq_some_iff.1 h
    exact (takeAllWhole_length_le h).trans_lt (takeWhole_length_lt hqs hleft)

omit [IsOrderedAddMonoid α] in
theorem whole_cons {s : α} {ss qs : List α} :
    Whole (s :: ss) qs ↔ ∃ rest, takeWhole s qs = some rest ∧ Whole ss rest := by
  simp only [Whole, takeAllWhole, Option.isSome_iff_exists, Option.bind_eq_some_iff]
  exact ⟨fun ⟨left, rest, h, hrest⟩ => ⟨rest, h, left, hrest⟩,
    fun ⟨rest, h, left, hrest⟩ => ⟨left, rest, h, hrest⟩⟩

omit [IsOrderedAddMonoid α] in
/-- An empty lot is passed over. -/
theorem whole_zero_cons {ss qs : List α} (hss : ∀ x ∈ ss, 0 < x) :
    Whole ss (0 :: qs) ↔ Whole ss qs := by
  cases ss with
  | nil => exact Iff.rfl
  | cons s ss =>
    have hs : 0 < s := hss s List.mem_cons_self
    rw [whole_cons, whole_cons, takeWhole, if_pos hs.le, sub_zero, if_neg hs.ne']

/-- A demand is served in whole lots exactly if it ends with one. -/
theorem takeWhole_isSome_iff {s : α} {qs : List α} (hs : 0 < s) (h : ∀ q ∈ qs, 0 ≤ q) :
    (takeWhole s qs).isSome = true ↔ Fits s qs := by
  induction qs generalizing s with
  | nil => simp [takeWhole, fits_nil hs.le]
  | cons q qs ih =>
    have hqs : ∀ x ∈ qs, 0 ≤ x := fun x hx => h x (List.mem_cons_of_mem _ hx)
    rcases lt_or_ge s q with hlt | hle
    · rw [takeWhole, if_neg (not_le.2 hlt)]
      simp [not_fits_of_lt hs hlt hqs]
    · rw [takeWhole, if_pos hle, fits_cons_of_le (h q List.mem_cons_self) hle]
      rcases (sub_nonneg.2 hle).eq_or_lt with hdone | hleft
      · rw [if_pos hdone.symm, ← hdone]
        exact iff_of_true rfl (Or.inr ⟨0, Nat.zero_le _, cum_zero _⟩)
      · rw [if_neg hleft.ne', ih hleft hqs]

/-- What whole lots leave is what is left of all lots. -/
theorem whole_residual {s : α} {ss qs rest : List α} (hs : 0 ≤ s) (hss : ∀ x ∈ ss, 0 < x)
    (h : ∀ q ∈ qs, 0 ≤ q) (htake : takeWhole s qs = some rest) :
    Whole ss (residual s qs) ↔ Whole ss rest := by
  induction qs generalizing s with
  | nil =>
    cases htake
    exact Iff.rfl
  | cons q qs ih =>
    have hqs : ∀ x ∈ qs, 0 ≤ x := fun x hx => h x (List.mem_cons_of_mem _ hx)
    rw [takeWhole] at htake
    split at htake
    · rename_i hle
      rw [residual, min_eq_right hle, sub_self, whole_zero_cons hss]
      split at htake
      · rename_i hdone
        cases htake
        rw [hdone, residual_zero hqs]
      · exact ih (sub_nonneg.2 hle) hqs htake
    · cases htake

/-- For positive demands no lot is taken in part exactly if each demand ends with a lot. -/
theorem whole_iff_aligned {ss qs : List α} (hss : ∀ x ∈ ss, 0 < x) (h : ∀ q ∈ qs, 0 ≤ q) :
    Whole ss qs ↔ Aligned ss qs := by
  induction ss generalizing qs with
  | nil => exact iff_of_true rfl fun i hi => Or.inr ⟨0, Nat.zero_le _, by simp [cum]⟩
  | cons s ss ih =>
    have hs : 0 < s := hss s List.mem_cons_self
    have hrest : ∀ x ∈ ss, 0 < x := fun x hx => hss x (List.mem_cons_of_mem _ hx)
    rw [whole_cons, aligned_cons hs hrest h, ← ih hrest residual_nonneg,
      ← takeWhole_isSome_iff hs h, Option.isSome_iff_exists]
    constructor
    · rintro ⟨rest, htake, hwhole⟩
      exact ⟨⟨rest, htake⟩, (whole_residual hs.le hrest h htake).2 hwhole⟩
    · rintro ⟨⟨rest, htake⟩, hwhole⟩
      exact ⟨rest, htake, (whole_residual hs.le hrest h htake).1 hwhole⟩

end InventoryBot.Lib.Fifo
