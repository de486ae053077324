import Rsctf.Data.Guarded
import Rsctf.Data.Rounding

/-!
# Challenge worth and solve contributions

The worth of a challenge decays with the number of teams that solved it, and the
first three solvers earn a bonus on top of it.  Decay is computed in double
precision and the bonus in single precision; every operation is the exact one
followed by its rounding, and the logarithm and the exponential are those of the
mathematical library.
-/

namespace Rsctf

namespace Jeopardy

/-- A double precision operation: its exact result, rounded. -/
def f64 (x : ℚ) : ℚ := Rounding.nearest 53 x

/-- A single precision operation: its exact result, rounded. -/
def f32 (x : ℚ) : ℚ := Rounding.nearest 24 x

@[simp] theorem f32_zero : f32 0 = 0 := Rounding.nearest_zero 24

/-- The saturating conversion to a 32-bit integer. -/
def toI32 (z : ℤ) : ℤ := max (-2 ^ 31) (min (2 ^ 31 - 1) z)

/-- A stored double: a finite number, or a value `is_finite` refuses. -/
inductive Double where
  | finite (value : ℚ)
  | notFinite

/-- The transcendental functions of the mathematical library. -/
structure Libm where
  ln : ℚ → ℚ
  exp : ℚ → ℚ

/-- How the worth of a challenge decays. -/
inductive ScoreCurve where
  | standard
  | linear
  | logarithmic
  deriving DecidableEq

def defaultJeopardyMinScoreRate : ℚ := f64 (10 / 1000)

/-- The floor of the decay, as a share of the original worth. -/
def boundedMinRate : Double → ℚ
  | .finite rate => Guarded.clamp 0 1 rate
  | .notFinite => defaultJeopardyMinScoreRate

/-- The speed of the decay. -/
def boundedDifficulty : Double → ℚ
  | .finite difficulty => if 0 < difficulty then difficulty else 5
  | .notFinite => 5

/-- The worth of a challenge after a number of solves that count. -/
def calculateChallengeScore (libm : Libm) (original : ℤ) (minRate difficulty : Double)
    (acceptedCount : ℤ) (curve : ScoreCurve) : ℤ :=
  let original := max original 0
  let minRate := boundedMinRate minRate
  let difficulty := boundedDifficulty difficulty
  if acceptedCount ≤ 1 then original
  else
    let factor := match curve with
      | .linear =>
          max minRate (f64 (1 - f64 (f64 (1 - minRate) * f64 ((acceptedCount - 1) / difficulty))))
      | .logarithmic =>
          f64 (minRate +
            f64 (f64 (1 - minRate) / f64 (1 + f64 (libm.ln acceptedCount / difficulty))))
      | .standard =>
          f64 (minRate +
            f64 (f64 (1 - minRate) * libm.exp (f64 ((1 - acceptedCount) / difficulty))))
    toI32 ⌊f64 (original * factor)⌋

/-- Rounding half to even, then the conversion to a 32-bit integer. -/
def bankerRound (x : ℚ) : ℤ := toI32 (Rounding.halfEven x)

/-- The ten bits of the packed bonus that belong to a blood slot. -/
def bloodBits (bonus : ℤ) (slot : ℕ) : ℤ :=
  match slot with
  | 0 => bonus / 2 ^ 20 % 1024
  | 1 => bonus / 2 ^ 10 % 1024
  | _ => bonus % 1024

def bloodFactor (bonus : ℤ) (slot : ℕ) : ℚ :=
  f32 (f32 (bloodBits bonus slot / 1000) + 1)

def bloodAdjustedScore (score bonus : ℤ) (slot : ℕ) : ℤ :=
  bankerRound (f32 (f32 (max score 0 : ℤ) * bloodFactor bonus slot))

@[simp] theorem bloodAdjustedScore_zero (bonus : ℤ) (slot : ℕ) :
    bloodAdjustedScore 0 bonus slot = 0 := by
  have h : Rounding.halfEven 0 = 0 := by exact_mod_cast Rounding.halfEven_intCast 0
  simp [bloodAdjustedScore, bankerRound, h, toI32]

/-- The largest contribution a challenge can make to a team that may score. -/
def maximumJeopardyContribution (score bonus : ℤ) (bloodEligible : Bool) : ℤ :=
  let score := max score 0
  if bloodEligible then
    ([0, 1, 2].map fun slot => bloodAdjustedScore score bonus slot).foldl max score
  else score

/-- How a solve is listed. -/
inductive SubmissionType where
  | unaccepted
  | firstBlood
  | secondBlood
  | thirdBlood
  | normal
  deriving DecidableEq

/-- What a solve that may score contributes. -/
def solveContribution (score bonus : ℤ) (submissionType : SubmissionType)
    (bloodBonusDisabled : Bool) : ℤ :=
  if bloodBonusDisabled then score
  else
    match submissionType with
    | .firstBlood => bloodAdjustedScore score bonus 0
    | .secondBlood => bloodAdjustedScore score bonus 1
    | .thirdBlood => bloodAdjustedScore score bonus 2
    | _ => score

theorem bloodAdjustedScore_max (score bonus : ℤ) (slot : ℕ) :
    bloodAdjustedScore (max score 0) bonus slot = bloodAdjustedScore score bonus slot := by
  simp [bloodAdjustedScore]

theorem maximumJeopardyContribution_nonneg (score bonus : ℤ) (bloodEligible : Bool) :
    0 ≤ maximumJeopardyContribution score bonus bloodEligible := by
  have hscore : 0 ≤ max score 0 := le_max_right _ _
  unfold maximumJeopardyContribution
  split
  · exact hscore.trans (Guarded.start_le_foldl_max _ _)
  · exact hscore

theorem score_le_maximumJeopardyContribution (score bonus : ℤ) (bloodEligible : Bool) :
    score ≤ maximumJeopardyContribution score bonus bloodEligible := by
  have hscore : score ≤ max score 0 := le_max_left _ _
  unfold maximumJeopardyContribution
  split
  · exact hscore.trans (Guarded.start_le_foldl_max _ _)
  · exact hscore

theorem bloodAdjustedScore_le_maximumJeopardyContribution (score bonus : ℤ) {slot : ℕ}
    (hslot : slot ∈ [0, 1, 2]) :
    bloodAdjustedScore score bonus slot ≤ maximumJeopardyContribution score bonus true := by
  rw [← bloodAdjustedScore_max]
  apply Guarded.le_foldl_max
  exact List.mem_map_of_mem hslot

/-- No solve contributes more than the ceiling of its challenge, as long as a
blood is only given to a team that may earn it. -/
theorem solveContribution_le (score bonus : ℤ) {submissionType : SubmissionType}
    {disabled bloodEligible : Bool} (h : submissionType = .normal ∨ bloodEligible = true) :
    solveContribution score bonus submissionType disabled ≤
      maximumJeopardyContribution score bonus (bloodEligible && !disabled) := by
  have hplain := score_le_maximumJeopardyContribution score bonus (bloodEligible && !disabled)
  cases disabled with
  | true => exact hplain
  | false =>
      rcases h with rfl | rfl
      · exact hplain
      · cases submissionType with
        | unaccepted => exact hplain
        | firstBlood =>
            exact bloodAdjustedScore_le_maximumJeopardyContribution score bonus (by simp)
        | secondBlood =>
            exact bloodAdjustedScore_le_maximumJeopardyContribution score bonus (by simp)
        | thirdBlood =>
            exact bloodAdjustedScore_le_maximumJeopardyContribution score bonus (by simp)
        | normal => exact hplain

end Jeopardy

end Rsctf
