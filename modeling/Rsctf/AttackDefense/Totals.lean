import Mathlib.Algebra.BigOperators.Group.List.Basic
import Rsctf.AttackDefense.Evidence

/-!
# Cumulative totals

The rollup tables carry, for every epoch, running totals of what the epochs up
to it contributed.  Each kind of total is an additive commutative monoid, so a
total is the sum of the contributions of its epochs.
-/

namespace Rsctf

namespace AttackDefense

/-- The running totals of one team. -/
@[ext] structure PreviousTeamTotals where
  pointsNumerator : ℚ
  epochWeight : ℚ
  offenseNumerator : ℚ
  defenseNumerator : ℚ
  slaNumerator : ℚ
  rateWeight : ℚ
deriving DecidableEq, Repr

/-- The running totals of one team on one service. -/
@[ext] structure PreviousServiceTotals where
  pointsNumerator : ℚ
  epochWeight : ℚ
  offenseNumerator : ℚ
  defenseNumerator : ℚ
  slaNumerator : ℚ
  captureCount : ℤ
deriving DecidableEq, Repr

/-- The evidence counts shown on the board. -/
@[ext] structure AdEvidenceStatus where
  eligibleFlags : ℤ
  capturedFlags : ℤ
  acceptedCaptures : ℤ
  defenseOpportunities : ℤ
  protectedOpportunities : ℤ
deriving DecidableEq, Repr

namespace PreviousTeamTotals

instance : Zero PreviousTeamTotals := ⟨⟨0, 0, 0, 0, 0, 0⟩⟩

instance : Add PreviousTeamTotals :=
  ⟨fun a b => ⟨a.pointsNumerator + b.pointsNumerator, a.epochWeight + b.epochWeight,
    a.offenseNumerator + b.offenseNumerator, a.defenseNumerator + b.defenseNumerator,
    a.slaNumerator + b.slaNumerator, a.rateWeight + b.rateWeight⟩⟩

theorem zero_def : (0 : PreviousTeamTotals) = ⟨0, 0, 0, 0, 0, 0⟩ := rfl

theorem add_def (a b : PreviousTeamTotals) :
    a + b = ⟨a.pointsNumerator + b.pointsNumerator, a.epochWeight + b.epochWeight,
      a.offenseNumerator + b.offenseNumerator, a.defenseNumerator + b.defenseNumerator,
      a.slaNumerator + b.slaNumerator, a.rateWeight + b.rateWeight⟩ := rfl

instance : AddCommMonoid PreviousTeamTotals where
  add_assoc a b c := by simp [add_def, add_assoc]
  zero_add a := by simp [add_def, zero_def]
  add_zero a := by simp [add_def, zero_def]
  add_comm a b := by simp [add_def, add_comm]
  nsmul := nsmulRec

end PreviousTeamTotals

namespace PreviousServiceTotals

instance : Zero PreviousServiceTotals := ⟨⟨0, 0, 0, 0, 0, 0⟩⟩

instance : Add PreviousServiceTotals :=
  ⟨fun a b => ⟨a.pointsNumerator + b.pointsNumerator, a.epochWeight + b.epochWeight,
    a.offenseNumerator + b.offenseNumerator, a.defenseNumerator + b.defenseNumerator,
    a.slaNumerator + b.slaNumerator, a.captureCount + b.captureCount⟩⟩

theorem zero_def : (0 : PreviousServiceTotals) = ⟨0, 0, 0, 0, 0, 0⟩ := rfl

theorem add_def (a b : PreviousServiceTotals) :
    a + b = ⟨a.pointsNumerator + b.pointsNumerator, a.epochWeight + b.epochWeight,
      a.offenseNumerator + b.offenseNumerator, a.defenseNumerator + b.defenseNumerator,
      a.slaNumerator + b.slaNumerator, a.captureCount + b.captureCount⟩ := rfl

instance : AddCommMonoid PreviousServiceTotals where
  add_assoc a b c := by simp [add_def, add_assoc]
  zero_add a := by simp [add_def, zero_def]
  add_zero a := by simp [add_def, zero_def]
  add_comm a b := by simp [add_def, add_comm]
  nsmul := nsmulRec

end PreviousServiceTotals

namespace AdEvidenceStatus

instance : Zero AdEvidenceStatus := ⟨⟨0, 0, 0, 0, 0⟩⟩

instance : Add AdEvidenceStatus :=
  ⟨fun a b => ⟨a.eligibleFlags + b.eligibleFlags, a.capturedFlags + b.capturedFlags,
    a.acceptedCaptures + b.acceptedCaptures,
    a.defenseOpportunities + b.defenseOpportunities,
    a.protectedOpportunities + b.protectedOpportunities⟩⟩

theorem zero_def : (0 : AdEvidenceStatus) = ⟨0, 0, 0, 0, 0⟩ := rfl

theorem add_def (a b : AdEvidenceStatus) :
    a + b = ⟨a.eligibleFlags + b.eligibleFlags, a.capturedFlags + b.capturedFlags,
      a.acceptedCaptures + b.acceptedCaptures,
      a.defenseOpportunities + b.defenseOpportunities,
      a.protectedOpportunities + b.protectedOpportunities⟩ := rfl

instance : AddCommMonoid AdEvidenceStatus where
  add_assoc a b c := by simp [add_def, add_assoc]
  zero_add a := by simp [add_def, zero_def]
  add_zero a := by simp [add_def, zero_def]
  add_comm a b := by simp [add_def, add_comm]
  nsmul := nsmulRec

end AdEvidenceStatus

end AttackDefense

end Rsctf
