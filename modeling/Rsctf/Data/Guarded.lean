import Mathlib.Algebra.BigOperators.Ring.List
import Mathlib.Algebra.Order.BigOperators.Group.List
import Mathlib.Algebra.Order.Field.Basic
import Mathlib.Tactic.FieldSimp

/-!
# Guarded ratios and clamping

A weighted average is kept as a numerator and a weight.  The average is the
guarded ratio, which is zero when no weight has been collected, and it is
turned back into a numerator by multiplying with the weight.  This file also
records the clamping of a value to an interval.
-/

namespace Guarded

section Ratio

variable {K : Type*} [Field K] [LinearOrder K]

/-- The quotient of two accumulators, which is zero until the second one is
positive. -/
def ratio (numerator denominator : K) : K :=
  if 0 < denominator then numerator / denominator else 0

theorem ratio_of_pos {n d : K} (h : 0 < d) : ratio n d = n / d := if_pos h

@[simp] theorem ratio_zero_right (n : K) : ratio n 0 = 0 := if_neg (lt_irrefl 0)

@[simp] theorem ratio_zero_left (d : K) : ratio 0 d = 0 := by
  simp [ratio]

/-- A numerator which vanishes together with its weight is recovered from the
average. -/
theorem ratio_mul_cancel {n d : K} (hd : 0 ≤ d) (h : d = 0 → n = 0) :
    ratio n d * d = n := by
  rcases hd.eq_or_lt with rfl | hpos
  · simp [h rfl]
  · rw [ratio_of_pos hpos, div_mul_cancel₀ n hpos.ne']

variable [IsStrictOrderedRing K]

theorem ratio_nonneg {n d : K} (hn : 0 ≤ n) : 0 ≤ ratio n d := by
  unfold ratio
  split
  · exact div_nonneg hn (le_of_lt ‹_›)
  · exact le_rfl

theorem ratio_le {n d b : K} (hb : 0 ≤ b) (h : n ≤ b * d) : ratio n d ≤ b := by
  unfold ratio
  split
  · exact (div_le_iff₀ ‹_›).mpr h
  · exact hb

theorem ratio_le_ratio {n n' : K} (h : n ≤ n') (d : K) : ratio n d ≤ ratio n' d := by
  unfold ratio
  split
  · exact div_le_div_of_nonneg_right h (le_of_lt ‹_›)
  · exact le_rfl

/-- The numerators of several averages vanish together with the sum of their weights. -/
theorem sum_eq_zero_of_weights {ι : Type*} {n d : ι → K} {l : List ι} (hd : ∀ i ∈ l, 0 ≤ d i)
    (h : ∀ i ∈ l, d i = 0 → n i = 0) (hsum : (l.map d).sum = 0) : (l.map n).sum = 0 := by
  induction l with
  | nil => rfl
  | cons i l ih =>
      have hd' : ∀ j ∈ l, 0 ≤ d j := fun j hj => hd j (List.mem_cons_of_mem i hj)
      have hnonneg : 0 ≤ (l.map d).sum := by
        refine List.sum_nonneg fun x hx => ?_
        obtain ⟨j, hj, rfl⟩ := List.mem_map.mp hx
        exact hd' j hj
      rw [List.map_cons, List.sum_cons,
        add_eq_zero_iff_of_nonneg (hd i List.mem_cons_self) hnonneg] at hsum
      rw [List.map_cons, List.sum_cons, h i List.mem_cons_self hsum.1,
        ih hd' (fun j hj => h j (List.mem_cons_of_mem i hj)) hsum.2, add_zero]

/-- The joint numerator of several averages is recovered from their joint average. -/
theorem ratio_sum_mul_cancel {ι : Type*} {n d : ι → K} {l : List ι} (hd : ∀ i ∈ l, 0 ≤ d i)
    (h : ∀ i ∈ l, d i = 0 → n i = 0) :
    ratio (l.map n).sum (l.map d).sum * (l.map d).sum = (l.map n).sum := by
  refine ratio_mul_cancel (List.sum_nonneg fun x hx => ?_) (sum_eq_zero_of_weights hd h)
  obtain ⟨i, hi, rfl⟩ := List.mem_map.mp hx
  exact hd i hi

omit [IsStrictOrderedRing K] in
/-- The shares of some weights in their sum add up to one, unless nothing has weight. -/
theorem sum_ratio {ι : Type*} (n : ι → K) (l : List ι) :
    (l.map fun i => ratio (n i) (l.map n).sum).sum = if 0 < (l.map n).sum then 1 else 0 := by
  by_cases hpos : 0 < (l.map n).sum
  · have hdiv : (l.map fun i => ratio (n i) (l.map n).sum) =
        l.map fun i => n i * (l.map n).sum⁻¹ :=
      List.map_congr_left fun i _ => (ratio_of_pos hpos).trans (div_eq_mul_inv _ _)
    rw [if_pos hpos, hdiv, List.sum_map_mul_right]
    exact mul_inv_cancel₀ hpos.ne'
  · have hzero : (l.map fun i => ratio (n i) (l.map n).sum) = l.map fun _ => 0 :=
      List.map_congr_left fun i _ => if_neg hpos
    rw [if_neg hpos, hzero]
    simp

end Ratio

section Clamp

variable {K : Type*} [LinearOrder K]

/-- The point of the interval closest to a value. -/
def clamp (low high x : K) : K := max low (min high x)

theorem clamp_eq_self {low high x : K} (hlow : low ≤ x) (hhigh : x ≤ high) :
    clamp low high x = x := by
  simp [clamp, hlow, hhigh]

theorem low_le_clamp (low high x : K) : low ≤ clamp low high x := le_max_left _ _

theorem clamp_le_high {low high : K} (h : low ≤ high) (x : K) : clamp low high x ≤ high :=
  max_le h (min_le_left _ _)

theorem clamp_mono (low high : K) {x y : K} (h : x ≤ y) : clamp low high x ≤ clamp low high y :=
  max_le_max_left low (min_le_min_left high h)

theorem clamp_max (low high x y : K) :
    clamp low high (max x y) = max (clamp low high x) (clamp low high y) := by
  rw [clamp, min_max_distrib_left, sup_sup_distrib_left]
  rfl

/-- Clamping the largest of some values is taking the largest of the clamped values. -/
theorem clamp_foldl_max {low high start : K} (l : List K) :
    clamp low high (l.foldl max start) =
      (l.map (clamp low high)).foldl max (clamp low high start) := by
  induction l generalizing start with
  | nil => rfl
  | cons x l ih => rw [List.foldl_cons, ih, clamp_max, List.map_cons, List.foldl_cons]

theorem start_le_foldl_max (start : K) (l : List K) : start ≤ l.foldl max start := by
  induction l generalizing start with
  | nil => exact le_rfl
  | cons x l ih => exact (le_max_left start x).trans (ih (max start x))

theorem le_foldl_max {start x : K} {l : List K} (h : x ∈ l) : x ≤ l.foldl max start := by
  induction l generalizing start with
  | nil => simp at h
  | cons y l ih =>
      rcases List.mem_cons.mp h with rfl | h
      · exact (le_max_right start x).trans (start_le_foldl_max _ l)
      · exact ih h

theorem foldl_max_le {start bound : K} {l : List K} (hstart : start ≤ bound)
    (h : ∀ x ∈ l, x ≤ bound) : l.foldl max start ≤ bound := by
  induction l generalizing start with
  | nil => exact hstart
  | cons x l ih =>
      exact ih (max_le hstart (h x List.mem_cons_self))
        fun y hy => h y (List.mem_cons_of_mem x hy)

end Clamp

end Guarded
