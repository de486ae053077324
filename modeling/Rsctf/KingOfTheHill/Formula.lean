import Mathlib.Algebra.Order.BigOperators.Group.List
import Mathlib.Algebra.Order.Ring.Rat
import Mathlib.Tactic.Linarith
import Mathlib.Tactic.NormNum
import Mathlib.Tactic.Positivity
import Rsctf.Data.Fallible
import Rsctf.Data.Guarded

/-!
# The crown-cycle King of the Hill formula

The score of one team on one hill in one epoch, and the score of a team over the
hills of an epoch.  Arithmetic is exact, and the geometric mean of acquisition and
control is taken with an arbitrary function `sqrt`.
-/

open Fallible Guarded

namespace Rsctf

namespace KingOfTheHill

def acquisitionWeight : ℚ := 1 / 4
def controlWeight : ℚ := 11 / 20
def balanceWeight : ℚ := 1 / 5
def leaderboardPerformanceWeight : ℚ := 19 / 20
def leaderboardCrownWeight : ℚ := 1 / 20
def minServiceWeight : ℚ := 4 / 5
def maxServiceWeight : ℚ := 6 / 5

/-- Frozen evidence for one team, hill, and epoch. -/
structure KothEpochHillEvidence where
  scorableTicks : ℤ
  acquisitionWindows : ℤ
  eligibleWindows : ℤ
  controlledTicks : ℤ
  responsibleTicks : ℤ
  healthyResponsibleTicks : ℤ
  serviceWeight : ℚ
deriving DecidableEq, Repr

/-- Normalized evidence for one leaderboard team, hill, and epoch. -/
structure KothApiEpochHillEvidence where
  activityRate : ℚ
  objectiveRate : ℚ
  performanceRate : ℚ
  leadRate : ℚ
  serviceWeight : ℚ
deriving DecidableEq, Repr

structure KothEpochHillScore where
  acquisitionRate : ℚ
  controlRate : ℚ
  reliabilityRate : ℚ
  coreRate : ℚ
  localPoints : ℚ
  serviceWeight : ℚ
deriving DecidableEq, Repr

/-- A scored hill and its field-wide evidence eligibility. -/
structure WeightedHillScore where
  score : KothEpochHillScore
  evidenceFraction : ℚ
deriving DecidableEq, Repr

structure KothTeamEpochScore where
  points : ℚ
  hillCount : ℕ
  totalWeight : ℚ
deriving DecidableEq, Repr

inductive KothScoringError
  | negative (field : String)
  | fractionOutOfRange (field : String) (value : ℚ)
  | serviceWeightOutOfRange (value : ℚ)
deriving DecidableEq, Repr

def validateNonnegative (value : ℚ) (field : String) : Except KothScoringError Unit :=
  if value < 0 then .error (.negative field) else .ok ()

def validateFraction (value : ℚ) (field : String) : Except KothScoringError Unit := do
  validateNonnegative value field
  if 1 < value then .error (.fractionOutOfRange field value) else .ok ()

def validateServiceWeight (value : ℚ) : Except KothScoringError Unit :=
  if value < 0 then .error (.negative "service_weight")
  else if minServiceWeight ≤ value ∧ value ≤ maxServiceWeight then .ok ()
  else .error (.serviceWeightOutOfRange value)

def validateCount (value : ℤ) (field : String) : Except KothScoringError Unit :=
  if value < 0 then .error (.negative field) else .ok ()

def validateEvidence (evidence : KothEpochHillEvidence) : Except KothScoringError Unit := do
  validateCount evidence.scorableTicks "scorable_ticks"
  validateCount evidence.acquisitionWindows "acquisition_windows"
  validateCount evidence.eligibleWindows "eligible_windows"
  validateCount evidence.controlledTicks "controlled_ticks"
  validateCount evidence.responsibleTicks "responsible_ticks"
  validateCount evidence.healthyResponsibleTicks "healthy_responsible_ticks"
  validateServiceWeight evidence.serviceWeight

def countRate (numerator denominator : ℤ) : ℚ :=
  if denominator = 0 then 0 else clamp 0 1 ((numerator : ℚ) / denominator)

/-- The bounded observed share of an expected evidence budget. -/
def evidenceFraction (observed expected : ℕ) : ℚ :=
  if expected = 0 then 0 else clamp 0 1 ((observed : ℚ) / expected)

/-- The rates and points of evidence that passed validation. -/
def epochHillScore (sqrt : ℚ → ℚ) (evidence : KothEpochHillEvidence) : KothEpochHillScore :=
  let acquisitionRate := countRate evidence.acquisitionWindows evidence.eligibleWindows
  let controlRate := countRate evidence.controlledTicks evidence.scorableTicks
  let reliabilityRate := countRate evidence.healthyResponsibleTicks evidence.responsibleTicks
  let coreRate := clamp 0 1 (acquisitionWeight * acquisitionRate + controlWeight * controlRate
    + balanceWeight * sqrt (acquisitionRate * controlRate))
  { acquisitionRate
    controlRate
    reliabilityRate
    coreRate
    localPoints := clamp 0 100 (100 * reliabilityRate * coreRate)
    serviceWeight := evidence.serviceWeight }

def scoreEpochHill (sqrt : ℚ → ℚ) (evidence : KothEpochHillEvidence) :
    Except KothScoringError KothEpochHillScore := do
  validateEvidence evidence
  return epochHillScore sqrt evidence

def validateApiEvidence (evidence : KothApiEpochHillEvidence) : Except KothScoringError Unit := do
  validateFraction evidence.activityRate "activity_rate"
  validateFraction evidence.objectiveRate "objective_rate"
  validateFraction evidence.performanceRate "performance_rate"
  validateFraction evidence.leadRate "lead_rate"
  validateServiceWeight evidence.serviceWeight

def apiEpochHillScore (evidence : KothApiEpochHillEvidence) : KothEpochHillScore where
  acquisitionRate := evidence.activityRate
  controlRate := evidence.objectiveRate
  reliabilityRate := evidence.leadRate
  coreRate := evidence.performanceRate
  localPoints :=
    if evidence.performanceRate = 0 then 0
    else clamp 0 100 (100 * (leaderboardPerformanceWeight * evidence.performanceRate
      + leaderboardCrownWeight * evidence.leadRate))
  serviceWeight := evidence.serviceWeight

def scoreApiEpochHill (evidence : KothApiEpochHillEvidence) :
    Except KothScoringError KothEpochHillScore := do
  validateApiEvidence evidence
  return apiEpochHillScore evidence

def validateHill (hill : WeightedHillScore) : Except KothScoringError Unit := do
  validateServiceWeight hill.score.serviceWeight
  validateFraction hill.evidenceFraction "evidence_fraction"
  validateFraction hill.score.acquisitionRate "acquisition_rate"
  validateFraction hill.score.controlRate "control_rate"
  validateFraction hill.score.reliabilityRate "reliability_rate"
  validateFraction hill.score.coreRate "core_rate"
  validateNonnegative hill.score.localPoints "local_points"

def WeightedHillScore.weight (hill : WeightedHillScore) : ℚ :=
  hill.score.serviceWeight * hill.evidenceFraction

/-- The weighted mean of the hills of one epoch, on a scale of 100 points. -/
def teamEpochScore (hills : List WeightedHillScore) : KothTeamEpochScore :=
  let weightedPoints := (hills.map fun hill => clamp 0 100 hill.score.localPoints * hill.weight).sum
  let totalWeight := (hills.map (·.weight)).sum
  { points := if totalWeight = 0 then 0 else clamp 0 100 (weightedPoints / totalWeight)
    hillCount := hills.length
    totalWeight }

def aggregateEpochHills (hills : List WeightedHillScore) :
    Except KothScoringError KothTeamEpochScore := do
  hills.forM validateHill
  return teamEpochScore hills

def validateEpochPoints (epoch : ℚ × ℚ) : Except KothScoringError Unit := do
  validateNonnegative epoch.1 "epoch_points"
  validateFraction epoch.2 "epoch_weight"

/-- The mean of complete epochs and a partial tail epoch, each given by its points and
its weight. -/
def epochAverage (epochPoints : List (ℚ × ℚ)) : ℚ :=
  let weightedTotal := (epochPoints.map fun epoch => clamp 0 100 epoch.1 * epoch.2).sum
  let totalWeight := (epochPoints.map Prod.snd).sum
  if totalWeight = 0 then 0 else clamp 0 100 (weightedTotal / totalWeight)

def weightedEpochAverage (epochPoints : List (ℚ × ℚ)) : Except KothScoringError ℚ := do
  epochPoints.forM validateEpochPoints
  return epochAverage epochPoints

section Validation

theorem validateNonnegative_of_nonneg {value : ℚ} (h : 0 ≤ value) (field : String) :
    validateNonnegative value field = .ok () :=
  if_neg (not_lt.mpr h)

theorem validateFraction_eq_ok_iff {value : ℚ} {field : String} :
    validateFraction value field = .ok () ↔ 0 ≤ value ∧ value ≤ 1 := by
  unfold validateFraction validateNonnegative
  split
  · rename_i hneg
    exact iff_of_false (by simp [bind, Except.bind]) fun h => absurd h.1 (not_le.mpr hneg)
  · rename_i hnonneg
    simp [bind, Except.bind, not_lt.mp hnonneg]

theorem validateServiceWeight_eq_ok_iff {value : ℚ} :
    validateServiceWeight value = .ok () ↔
      minServiceWeight ≤ value ∧ value ≤ maxServiceWeight := by
  have hmin : 0 ≤ minServiceWeight := by norm_num [minServiceWeight]
  unfold validateServiceWeight
  split
  · rename_i hneg
    exact iff_of_false (by simp) fun h => absurd (hmin.trans h.1) (not_le.mpr hneg)
  · simp

/-- The ranges which a score keeps. -/
structure KothEpochHillScore.Valid (score : KothEpochHillScore) : Prop where
  serviceWeight_mem : minServiceWeight ≤ score.serviceWeight ∧
    score.serviceWeight ≤ maxServiceWeight
  acquisitionRate_mem : 0 ≤ score.acquisitionRate ∧ score.acquisitionRate ≤ 1
  controlRate_mem : 0 ≤ score.controlRate ∧ score.controlRate ≤ 1
  reliabilityRate_mem : 0 ≤ score.reliabilityRate ∧ score.reliabilityRate ≤ 1
  coreRate_mem : 0 ≤ score.coreRate ∧ score.coreRate ≤ 1
  localPoints_mem : 0 ≤ score.localPoints ∧ score.localPoints ≤ 100

theorem KothEpochHillScore.Valid.serviceWeight_pos {score : KothEpochHillScore}
    (h : score.Valid) : 0 < score.serviceWeight := by
  have hmin := h.serviceWeight_mem.1
  unfold minServiceWeight at hmin
  linarith

theorem countRate_mem (numerator denominator : ℤ) :
    0 ≤ countRate numerator denominator ∧ countRate numerator denominator ≤ 1 := by
  unfold countRate
  split
  · norm_num
  · exact ⟨low_le_clamp _ _ _, clamp_le_high (by norm_num) _⟩

theorem evidenceFraction_mem (observed expected : ℕ) :
    0 ≤ evidenceFraction observed expected ∧ evidenceFraction observed expected ≤ 1 := by
  unfold evidenceFraction
  split
  · norm_num
  · exact ⟨low_le_clamp _ _ _, clamp_le_high (by norm_num) _⟩

theorem epochHillScore_valid (sqrt : ℚ → ℚ) {evidence : KothEpochHillEvidence}
    (h : validateEvidence evidence = .ok ()) : (epochHillScore sqrt evidence).Valid where
  serviceWeight_mem := by
    simp only [validateEvidence, bind_eq_ok_iff] at h
    obtain ⟨_, -, _, -, _, -, _, -, _, -, _, -, hweight⟩ := h
    exact validateServiceWeight_eq_ok_iff.mp hweight
  acquisitionRate_mem := countRate_mem _ _
  controlRate_mem := countRate_mem _ _
  reliabilityRate_mem := countRate_mem _ _
  coreRate_mem := ⟨low_le_clamp _ _ _, clamp_le_high (by norm_num) _⟩
  localPoints_mem := ⟨low_le_clamp _ _ _, clamp_le_high (by norm_num) _⟩

theorem apiEpochHillScore_valid {evidence : KothApiEpochHillEvidence}
    (h : validateApiEvidence evidence = .ok ()) : (apiEpochHillScore evidence).Valid := by
  simp only [validateApiEvidence, bind_eq_ok_iff] at h
  obtain ⟨_, hactivity, _, hobjective, _, hperformance, _, hlead, hweight⟩ := h
  refine ⟨validateServiceWeight_eq_ok_iff.mp hweight, validateFraction_eq_ok_iff.mp hactivity,
    validateFraction_eq_ok_iff.mp hobjective, validateFraction_eq_ok_iff.mp hlead,
    validateFraction_eq_ok_iff.mp hperformance, ?_⟩
  unfold apiEpochHillScore
  dsimp only
  split
  · norm_num
  · exact ⟨low_le_clamp _ _ _, clamp_le_high (by norm_num) _⟩

/-- Valid scores are never rejected when the hills of an epoch are aggregated. -/
theorem aggregateEpochHills_of_valid {hills : List WeightedHillScore}
    (h : ∀ hill ∈ hills, hill.score.Valid ∧ 0 ≤ hill.evidenceFraction ∧
      hill.evidenceFraction ≤ 1) :
    aggregateEpochHills hills = .ok (teamEpochScore hills) := by
  have hvalid : ∀ hill ∈ hills, validateHill hill = .ok () := by
    intro hill hhill
    obtain ⟨hscore, hfraction⟩ := h hill hhill
    unfold validateHill
    rw [validateServiceWeight_eq_ok_iff.mpr hscore.serviceWeight_mem,
      validateFraction_eq_ok_iff.mpr hfraction,
      validateFraction_eq_ok_iff.mpr hscore.acquisitionRate_mem,
      validateFraction_eq_ok_iff.mpr hscore.controlRate_mem,
      validateFraction_eq_ok_iff.mpr hscore.reliabilityRate_mem,
      validateFraction_eq_ok_iff.mpr hscore.coreRate_mem,
      validateNonnegative_of_nonneg hscore.localPoints_mem.1]
    rfl
  rw [aggregateEpochHills, forM_eq_ok hvalid]
  rfl

theorem teamEpochScore_points_mem (hills : List WeightedHillScore) :
    0 ≤ (teamEpochScore hills).points ∧ (teamEpochScore hills).points ≤ 100 := by
  unfold teamEpochScore
  dsimp only
  split
  · norm_num
  · exact ⟨low_le_clamp _ _ _, clamp_le_high (by norm_num) _⟩

theorem weightedEpochAverage_of_mem {epochPoints : List (ℚ × ℚ)}
    (h : ∀ epoch ∈ epochPoints, 0 ≤ epoch.1 ∧ 0 ≤ epoch.2 ∧ epoch.2 ≤ 1) :
    weightedEpochAverage epochPoints = .ok (epochAverage epochPoints) := by
  have hvalid : ∀ epoch ∈ epochPoints, validateEpochPoints epoch = .ok () := by
    intro epoch hepoch
    obtain ⟨hpoints, hweight⟩ := h epoch hepoch
    unfold validateEpochPoints
    rw [validateNonnegative_of_nonneg hpoints, validateFraction_eq_ok_iff.mpr hweight]
    rfl
  rw [weightedEpochAverage, forM_eq_ok hvalid]
  rfl

end Validation

end KingOfTheHill

end Rsctf
