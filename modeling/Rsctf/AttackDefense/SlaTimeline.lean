import Mathlib.Algebra.Order.Ring.Rat
import Rsctf.AttackDefense.Evidence
import Rsctf.Data.Ledger
import Rsctf.Data.Window

/-!
# The SLA timeline of one service

The evidence query turns the completed checks of a service into one SLA cell per
scoring round.  Two windows over the preceding rounds are involved: the last
verdict which is not an infrastructure error decides about a recovery, and the
last credit of the service is carried over infrastructure errors.  Both fall
back to the closing state stored with the previous epoch.
-/

open Ledger Window

namespace Rsctf

namespace AttackDefense

/-- A completed check as it enters the SLA windows. -/
structure CheckSample where
  status : AdCheckStatus
  platformVoid : Bool
  forcedZero : Bool
deriving DecidableEq, Repr

/-- The closing state of the latest sealed epoch before a range. -/
structure SeedState where
  closingSlaStatus : Option AdCheckStatus
  closingSlaCredit : Option ℚ
deriving DecidableEq, Repr

def SeedState.empty : SeedState := ⟨none, none⟩

/-- The verdict is about the service and not about the checker. -/
def AdCheckStatus.noninfra : AdCheckStatus → Bool
  | .internalError => false
  | _ => true

/-- The verdicts after which a healthy check earns half a credit. -/
def penalized (status : Option AdCheckStatus) : Bool :=
  status = some .mumble || status = some .offline

/-- The verdict of a round, unless the round has none about the service. -/
def noninfraStatus (sample : Option CheckSample) : Option AdCheckStatus :=
  (sample.map (·.status)).filter (·.noninfra)

/-- The last verdict about the service in the preceding rounds, void or not. -/
def previousNoninfra (before : List (Option CheckSample)) : Option AdCheckStatus :=
  lastSome (before.map noninfraStatus)

/-- The credit which a round earns by its own verdict. -/
def noninfraCredit (seed : SeedState) (before : List (Option CheckSample))
    (current : Option CheckSample) : Option ℚ :=
  match current with
  | none => none
  | some sample =>
    if sample.status.noninfra && !sample.platformVoid then
      if sample.status = .ok &&
          penalized ((previousNoninfra before).or seed.closingSlaStatus) then some (1 / 2)
      else if sample.status = .ok then some 1
      else some 0
    else none

/-- The last own credit in the preceding rounds. -/
def previousCredit (seed : SeedState) (before : List (Option CheckSample)) : Option ℚ :=
  lastSome (record (noninfraCredit seed) [] before)

/-- The SLA outcome of one service in one round. -/
structure SlaCell where
  effectiveCredit : Option ℚ
  personalVoid : Bool
  infraWithoutPrior : Bool
deriving DecidableEq, Repr

def slaCell (seed : SeedState) (before : List (Option CheckSample))
    (current : Option CheckSample) : SlaCell :=
  match current with
  | none => { effectiveCredit := some 0, personalVoid := false, infraWithoutPrior := false }
  | some sample =>
    { effectiveCredit :=
        if sample.platformVoid then some 0
        else if sample.forcedZero then some 0
        else if sample.status.noninfra then noninfraCredit seed before current
        else (previousCredit seed before).or seed.closingSlaCredit
      personalVoid := sample.platformVoid
      infraWithoutPrior :=
        !sample.platformVoid && !sample.forcedZero && !sample.status.noninfra &&
          (previousCredit seed before).isNone && seed.closingSlaCredit.isNone }

/-- The SLA cells of a range of rounds. -/
def slaTimeline (seed : SeedState) (timeline : List (Option CheckSample)) : List SlaCell :=
  record (slaCell seed) [] timeline

theorem noninfraCredit_mem {seed : SeedState} {before : List (Option CheckSample)}
    {current : Option CheckSample} {credit : ℚ}
    (h : noninfraCredit seed before current = some credit) : 0 ≤ credit ∧ credit ≤ 1 := by
  unfold noninfraCredit at h
  split at h
  · simp at h
  · split_ifs at h <;> obtain rfl := Option.some.inj h <;> norm_num

/-- A round only carries a credit which an earlier round earned or which was stored. -/
theorem effectiveCredit_mem {seed : SeedState}
    (hseed : ∀ credit ∈ seed.closingSlaCredit, 0 ≤ credit ∧ credit ≤ 1)
    {timeline : List (Option CheckSample)} {cell : SlaCell}
    (hcell : cell ∈ slaTimeline seed timeline) {credit : ℚ}
    (hcredit : cell.effectiveCredit = some credit) : 0 ≤ credit ∧ credit ≤ 1 := by
  obtain ⟨before, current, _, _, rfl⟩ := mem_record.mp hcell
  cases current with
  | none =>
      obtain rfl := Option.some.inj hcredit
      norm_num
  | some sample =>
      simp only [slaCell] at hcredit
      split_ifs at hcredit
      · obtain rfl := Option.some.inj hcredit
        norm_num
      · obtain rfl := Option.some.inj hcredit
        norm_num
      · exact noninfraCredit_mem hcredit
      · rcases Option.or_eq_some_iff.mp hcredit with hprevious | ⟨-, hstored⟩
        · obtain ⟨_, _, _, _, hcredit⟩ := mem_record.mp (mem_of_lastSome hprevious)
          exact noninfraCredit_mem hcredit.symm
        · exact hseed credit hstored

/-- The state with which a round may close an epoch.  A platform void never does, a
forced zero does without an own credit. -/
def closingSample (seed : SeedState) (before : List (Option CheckSample))
    (current : Option CheckSample) : Option (AdCheckStatus × ℚ) :=
  match current with
  | none => none
  | some sample =>
    if sample.platformVoid then none
    else if sample.forcedZero then some (sample.status, 0)
    else (noninfraCredit seed before current).map fun credit => (sample.status, credit)

/-- The closing state stored with an epoch. -/
def closingSla (seed : SeedState) (timeline : List (Option CheckSample)) : SeedState :=
  let latest := lastSome (record (closingSample seed) [] timeline)
  { closingSlaStatus := (latest.map Prod.fst).or seed.closingSlaStatus
    closingSlaCredit := (latest.map Prod.snd).or seed.closingSlaCredit }

end AttackDefense

end Rsctf
