import Mathlib.Algebra.Order.Ring.Rat
import Mathlib.Tactic.Linarith
import Mathlib.Tactic.NormNum
import Rsctf.Data.Guarded

/-!
# Field-best normalization

The best event-average score of the field on one engine challenge is mapped
onto 100 points, and every other team is scaled by the same capped factor.
-/

open Guarded

namespace Rsctf

namespace Scoring

def maxFieldBestMultiplier : ℚ := 4

/-- The factor which maps the field best onto 100 points, at most
`maxFieldBestMultiplier`.  A field without positive score keeps the factor 1. -/
def fieldBestMultiplier (fieldBest : ℚ) : ℚ :=
  if fieldBest ≤ 0 then 1 else clamp 1 maxFieldBestMultiplier (100 / fieldBest)

def normalizeToFieldBest (points fieldBest : ℚ) : ℚ :=
  clamp 0 100 (points * fieldBestMultiplier fieldBest)

theorem fieldBestMultiplier_of_nonpos {fieldBest : ℚ} (h : fieldBest ≤ 0) :
    fieldBestMultiplier fieldBest = 1 := if_pos h

/-- A multiplier of a field best in `[0, 100]` is the uncapped factor or the cap. -/
theorem fieldBestMultiplier_eq_min {fieldBest : ℚ} (hpos : 0 < fieldBest)
    (hle : fieldBest ≤ 100) :
    fieldBestMultiplier fieldBest = min 4 (100 / fieldBest) := by
  have hone : 1 ≤ 100 / fieldBest := (one_le_div hpos).mpr hle
  rw [fieldBestMultiplier, if_neg (not_le.mpr hpos), clamp, maxFieldBestMultiplier]
  exact max_eq_right (le_min (by norm_num) hone)

theorem one_le_fieldBestMultiplier (fieldBest : ℚ) : 1 ≤ fieldBestMultiplier fieldBest := by
  unfold fieldBestMultiplier
  split
  · exact le_rfl
  · exact low_le_clamp _ _ _

theorem fieldBestMultiplier_le (fieldBest : ℚ) : fieldBestMultiplier fieldBest ≤ 4 := by
  unfold fieldBestMultiplier
  split
  · norm_num
  · exact clamp_le_high (by norm_num [maxFieldBestMultiplier]) _

/-- The best score of a field in `[0, 100]` is mapped to four times itself, or to
100 when that is less. -/
theorem fieldBest_mul_multiplier {fieldBest : ℚ} (hnonneg : 0 ≤ fieldBest)
    (hle : fieldBest ≤ 100) :
    fieldBest * fieldBestMultiplier fieldBest = min 100 (4 * fieldBest) := by
  rcases hnonneg.eq_or_lt with rfl | hpos
  · norm_num
  · rw [fieldBestMultiplier_eq_min hpos hle, mul_min_of_nonneg _ _ hnonneg,
      mul_div_cancel₀ _ hpos.ne', mul_comm fieldBest 4, min_comm]

/-- No score of the field leaves `[0, 100]` when it is scaled, so the clamp of the
normalization never changes it. -/
theorem normalizeToFieldBest_eq {points fieldBest : ℚ} (hpoints : 0 ≤ points)
    (hbest : points ≤ fieldBest) (hle : fieldBest ≤ 100) :
    normalizeToFieldBest points fieldBest = points * fieldBestMultiplier fieldBest := by
  have hmul : 0 ≤ fieldBestMultiplier fieldBest :=
    zero_le_one.trans (one_le_fieldBestMultiplier fieldBest)
  have hfield : fieldBest * fieldBestMultiplier fieldBest ≤ 100 := by
    rw [fieldBest_mul_multiplier (hpoints.trans hbest) hle]
    exact min_le_left _ _
  exact clamp_eq_self (mul_nonneg hpoints hmul)
    ((mul_le_mul_of_nonneg_right hbest hmul).trans hfield)

/-- A higher field best only lowers the factor. -/
theorem fieldBestMultiplier_anti {fieldBest fieldBest' : ℚ} (hpos : 0 < fieldBest)
    (h : fieldBest ≤ fieldBest') :
    fieldBestMultiplier fieldBest' ≤ fieldBestMultiplier fieldBest := by
  rw [fieldBestMultiplier, fieldBestMultiplier, if_neg (not_le.mpr hpos),
    if_neg (not_le.mpr (hpos.trans_le h))]
  exact clamp_mono _ _ (div_le_div_of_nonneg_left (by norm_num) hpos h)

/-- A lower score in a field whose best is not lower. -/
theorem normalizeToFieldBest_le {points points' fieldBest fieldBest' : ℚ} (hnonneg : 0 ≤ points')
    (hpoints : points' ≤ points) (hbest : points ≤ fieldBest) (h : fieldBest ≤ fieldBest') :
    normalizeToFieldBest points' fieldBest' ≤ normalizeToFieldBest points fieldBest := by
  refine clamp_mono 0 100 ?_
  have hfield : 0 ≤ fieldBest := hnonneg.trans (hpoints.trans hbest)
  rcases hfield.eq_or_lt with hzero | hpos
  · have hpoints' : points = 0 := le_antisymm (hzero ▸ hbest) (hnonneg.trans hpoints)
    have hpoints'' : points' = 0 := le_antisymm (hpoints' ▸ hpoints) hnonneg
    rw [hpoints', hpoints'', zero_mul, zero_mul]
  · exact mul_le_mul hpoints (fieldBestMultiplier_anti hpos h)
      (zero_le_one.trans (one_le_fieldBestMultiplier _)) (hnonneg.trans hpoints)

theorem normalizeToFieldBest_mem (points fieldBest : ℚ) :
    0 ≤ normalizeToFieldBest points fieldBest ∧ normalizeToFieldBest points fieldBest ≤ 100 :=
  ⟨low_le_clamp _ _ _, clamp_le_high (by norm_num) _⟩

/-- A higher score in a field whose best is not above both the best before and the score. -/
theorem normalizeToFieldBest_mono {points points' fieldBest fieldBest' : ℚ} (hnonneg : 0 ≤ points)
    (hpoints : points ≤ points') (hbest' : points' ≤ fieldBest') (hle : fieldBest' ≤ 100)
    (h : fieldBest' ≤ max fieldBest points') :
    normalizeToFieldBest points fieldBest ≤ normalizeToFieldBest points' fieldBest' := by
  rcases le_total fieldBest' fieldBest with hlower | hhigher
  · exact normalizeToFieldBest_le hnonneg hpoints hbest' hlower
  · have htop : fieldBest' = points' ∨ fieldBest' = fieldBest := by
      rcases le_max_iff.mp h with hbest | hbest
      · exact .inr (le_antisymm hbest hhigher)
      · exact .inl (le_antisymm hbest hbest')
    rcases htop with htop | htop
    · have hnonneg' : 0 ≤ fieldBest' := (hnonneg.trans hpoints).trans hbest'
      have hleft : normalizeToFieldBest points fieldBest ≤ min 100 (4 * points') := by
        refine le_min (normalizeToFieldBest_mem points fieldBest).2 ?_
        refine max_le (by linarith) ((min_le_right _ _).trans ?_)
        have hfour := mul_le_mul_of_nonneg_left (fieldBestMultiplier_le fieldBest) hnonneg
        linarith
      rw [normalizeToFieldBest_eq (hnonneg.trans hpoints) hbest' hle, ← htop,
        fieldBest_mul_multiplier hnonneg' hle, htop]
      exact hleft
    · exact normalizeToFieldBest_le hnonneg hpoints hbest' htop.le

end Scoring

end Rsctf
