import Mathlib.Algebra.Order.Ring.Rat
import Mathlib.Tactic.Linarith
import Mathlib.Tactic.NormNum
import Mathlib.Tactic.Positivity
import Rsctf.Data.Fallible
import Rsctf.Data.Guarded

/-!
# The balanced Attack & Defense formula

The score of one team on one service in one epoch.  Arithmetic is exact: every
rate is a rational number and the geometric mean of offense and defense is
taken with an arbitrary function `sqrt`.  Rationals are finite, so only the
sign and the range of the continuous evidence can be rejected.
-/

open Fallible Guarded

namespace Rsctf

namespace AttackDefense

def offenseWeight : ℚ := 2 / 5
def defenseWeight : ℚ := 2 / 5
def balanceWeight : ℚ := 1 / 5
def rarityCoefficient : ℚ := 1 / 4
def minServiceWeight : ℚ := 4 / 5
def maxServiceWeight : ℚ := 6 / 5

/-- Settled evidence for one team, service, and epoch. -/
structure EpochServiceEvidence where
  opportunityCount : ℕ
  captureCount : ℕ
  raritySum : ℚ
  defenseOpportunityCount : ℕ
  protectedOpportunityCount : ℕ
  slaCreditSum : ℚ
  slaTickCount : ℕ
  serviceWeight : ℚ
deriving DecidableEq, Repr

/-- Normalized rates and points produced from one `EpochServiceEvidence`. -/
structure EpochServiceScore where
  captureRate : ℚ
  rarityRate : ℚ
  offenseRate : ℚ
  defenseRate : ℚ
  slaRate : ℚ
  coreRate : ℚ
  localPoints : ℚ
  serviceWeight : ℚ
deriving DecidableEq, Repr

inductive ScoringError
  | negative (field : String)
  | serviceWeightOutOfRange (value : ℚ)
deriving DecidableEq, Repr

def validateNonnegative (value : ℚ) (field : String) : Except ScoringError Unit :=
  if value < 0 then .error (.negative field) else .ok ()

def validateServiceWeight (value : ℚ) : Except ScoringError Unit :=
  if minServiceWeight ≤ value ∧ value ≤ maxServiceWeight then .ok ()
  else .error (.serviceWeightOutOfRange value)

def countRate (numerator denominator : ℕ) : ℚ :=
  if denominator = 0 then 0 else numerator / denominator

def valueRate (numerator : ℚ) (denominator : ℕ) : ℚ :=
  if denominator = 0 then 0 else numerator / denominator

/-- The rates and points of evidence that passed validation. -/
def epochServiceScore (sqrt : ℚ → ℚ) (evidence : EpochServiceEvidence) :
    EpochServiceScore :=
  let captureRate := countRate evidence.captureCount evidence.opportunityCount
  let rarityRate := valueRate evidence.raritySum evidence.opportunityCount
  let offenseRate := clamp 0 1 (captureRate + rarityCoefficient * rarityRate)
  let defenseRate := clamp 0 1
    (countRate evidence.protectedOpportunityCount evidence.defenseOpportunityCount)
  let slaRate := clamp 0 1 (valueRate evidence.slaCreditSum evidence.slaTickCount)
  let coreRate := clamp 0 1
    (offenseWeight * offenseRate + defenseWeight * defenseRate
      + balanceWeight * sqrt (offenseRate * defenseRate))
  let localPoints := clamp 0 100 (100 * slaRate * coreRate)
  { captureRate, rarityRate, offenseRate, defenseRate, slaRate, coreRate, localPoints,
    serviceWeight := evidence.serviceWeight }

/-- Score one settled team-service epoch, rejecting negative continuous evidence
and weights outside the official range. -/
def scoreEpochService (sqrt : ℚ → ℚ) (evidence : EpochServiceEvidence) :
    Except ScoringError EpochServiceScore := do
  validateNonnegative evidence.raritySum "rarity_sum"
  validateNonnegative evidence.slaCreditSum "sla_credit_sum"
  validateServiceWeight evidence.serviceWeight
  return epochServiceScore sqrt evidence

/-- The evidence that `scoreEpochService` accepts. -/
def EpochServiceEvidence.Valid (evidence : EpochServiceEvidence) : Prop :=
  0 ≤ evidence.raritySum ∧ 0 ≤ evidence.slaCreditSum ∧
    minServiceWeight ≤ evidence.serviceWeight ∧ evidence.serviceWeight ≤ maxServiceWeight

theorem validateNonnegative_eq_ok_iff (value : ℚ) (field : String) :
    validateNonnegative value field = .ok () ↔ 0 ≤ value := by
  simp [validateNonnegative]

theorem validateServiceWeight_eq_ok_iff (value : ℚ) :
    validateServiceWeight value = .ok () ↔
      minServiceWeight ≤ value ∧ value ≤ maxServiceWeight := by
  simp [validateServiceWeight]

theorem scoreEpochService_of_valid (sqrt : ℚ → ℚ) {evidence : EpochServiceEvidence}
    (h : evidence.Valid) :
    scoreEpochService sqrt evidence = .ok (epochServiceScore sqrt evidence) := by
  obtain ⟨hrarity, hsla, hweight⟩ := h
  have h₁ := (validateNonnegative_eq_ok_iff evidence.raritySum "rarity_sum").mpr hrarity
  have h₂ := (validateNonnegative_eq_ok_iff evidence.slaCreditSum "sla_credit_sum").mpr hsla
  have h₃ := (validateServiceWeight_eq_ok_iff evidence.serviceWeight).mpr hweight
  simp [scoreEpochService, h₁, h₂, h₃, bind, Except.bind, pure, Except.pure]

theorem scoreEpochService_eq_ok_iff (sqrt : ℚ → ℚ) (evidence : EpochServiceEvidence)
    (score : EpochServiceScore) :
    scoreEpochService sqrt evidence = .ok score ↔
      evidence.Valid ∧ epochServiceScore sqrt evidence = score := by
  constructor
  · intro h
    simp only [scoreEpochService, bind_eq_ok_iff, pure_eq_ok_iff] at h
    obtain ⟨_, hrarity, _, hsla, _, hweight, hscore⟩ := h
    refine ⟨⟨?_, ?_, ?_⟩, hscore⟩
    · exact (validateNonnegative_eq_ok_iff _ _).mp hrarity
    · exact (validateNonnegative_eq_ok_iff _ _).mp hsla
    · exact (validateServiceWeight_eq_ok_iff _).mp hweight
  · rintro ⟨hvalid, rfl⟩
    exact scoreEpochService_of_valid sqrt hvalid

theorem EpochServiceEvidence.Valid.serviceWeight_pos {evidence : EpochServiceEvidence}
    (h : evidence.Valid) : 0 < evidence.serviceWeight := by
  have hmin := h.2.2.1
  unfold minServiceWeight at hmin
  linarith

@[simp] theorem epochServiceScore_serviceWeight (sqrt : ℚ → ℚ)
    (evidence : EpochServiceEvidence) :
    (epochServiceScore sqrt evidence).serviceWeight = evidence.serviceWeight := rfl

theorem epochServiceScore_localPoints_mem (sqrt : ℚ → ℚ) (evidence : EpochServiceEvidence) :
    0 ≤ (epochServiceScore sqrt evidence).localPoints ∧
      (epochServiceScore sqrt evidence).localPoints ≤ 100 :=
  ⟨low_le_clamp _ _ _, clamp_le_high (by norm_num) _⟩

end AttackDefense

end Rsctf
