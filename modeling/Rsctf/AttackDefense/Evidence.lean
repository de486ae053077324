import Rsctf.AttackDefense.Formula

/-!
# Aggregated evidence rows

The database reduces the raw history to one row per frozen team, service, and
epoch.  These are the rows which the rollup writer and the scoreboard receive,
together with the metadata of every epoch.
-/

namespace Rsctf

namespace AttackDefense

/-- A checker verdict. -/
inductive AdCheckStatus
  | ok
  | mumble
  | offline
  | internalError
deriving DecidableEq, Repr

/-- A service of the frozen roster, one per participation and challenge. -/
structure StableServiceRow where
  teamServiceId : ℤ
  participationId : ℤ
  challengeId : ℤ
  teamId : ℤ
  teamName : String
  division : Option String
deriving DecidableEq, Repr

def StableServiceRow.key (row : StableServiceRow) : ℤ × ℤ :=
  (row.participationId, row.challengeId)

structure LatestCheckStatusRow where
  participationId : ℤ
  challengeId : ℤ
  status : AdCheckStatus
deriving DecidableEq, Repr

structure EpochMetaRow where
  epoch : ℤ
  startRound : ℤ
  roundCount : ℤ
  allFinalized : Bool
  allChecksComplete : Bool
  endRound : ℤ
  currentRound : ℤ
deriving DecidableEq, Repr

structure EvidenceAggregateRow where
  participationId : ℤ
  challengeId : ℤ
  epoch : ℤ
  serviceWeight : ℚ
  opportunityCount : ℤ
  captureCount : ℤ
  raritySum : ℚ
  defenseOpportunityCount : ℤ
  protectedOpportunityCount : ℤ
  slaCreditSum : ℚ
  slaTickCount : ℤ
  eligibleFlagsTotal : ℤ
  capturedFlagsTotal : ℤ
  acceptedCapturesTotal : ℤ
  defenseOpportunitiesTotal : ℤ
  protectedOpportunitiesTotal : ℤ
  closingSlaStatus : Option AdCheckStatus
  closingSlaCredit : Option ℚ
deriving DecidableEq, Repr

def EvidenceAggregateRow.key (row : EvidenceAggregateRow) : ℤ × ℤ :=
  (row.participationId, row.challengeId)

/-- An error response; a scoring error is reported through its message. -/
inductive AppError
  | internal (message : String)
  | scoring (error : ScoringError)
deriving DecidableEq, Repr

/-- A count read back from the database, never below zero. -/
def count (value : ℤ) : ℤ := max value 0

def serviceEvidence (row : EvidenceAggregateRow) : EpochServiceEvidence where
  opportunityCount := (count row.opportunityCount).toNat
  captureCount := (count row.captureCount).toNat
  raritySum := row.raritySum
  defenseOpportunityCount := (count row.defenseOpportunityCount).toNat
  protectedOpportunityCount := (count row.protectedOpportunityCount).toNat
  slaCreditSum := row.slaCreditSum
  slaTickCount := (count row.slaTickCount).toNat
  serviceWeight := row.serviceWeight

/-- Score one evidence row, reporting a scoring error as an internal error. -/
def scoreRow (sqrt : ℚ → ℚ) (row : EvidenceAggregateRow) :
    Except AppError EpochServiceScore :=
  (scoreEpochService sqrt (serviceEvidence row)).mapError .scoring

/-- The score of a row whose evidence passed validation. -/
def EvidenceAggregateRow.score (sqrt : ℚ → ℚ) (row : EvidenceAggregateRow) :
    EpochServiceScore :=
  epochServiceScore sqrt (serviceEvidence row)

def EvidenceAggregateRow.Valid (row : EvidenceAggregateRow) : Prop :=
  (serviceEvidence row).Valid

theorem scoreRow_eq_ok_iff (sqrt : ℚ → ℚ) (row : EvidenceAggregateRow)
    (score : EpochServiceScore) :
    scoreRow sqrt row = .ok score ↔ row.Valid ∧ row.score sqrt = score := by
  rw [EvidenceAggregateRow.Valid, EvidenceAggregateRow.score,
    ← scoreEpochService_eq_ok_iff, scoreRow]
  cases scoreEpochService sqrt (serviceEvidence row) <;> simp [Except.mapError]

theorem scoreRow_of_valid (sqrt : ℚ → ℚ) {row : EvidenceAggregateRow} (h : row.Valid) :
    scoreRow sqrt row = .ok (row.score sqrt) :=
  (scoreRow_eq_ok_iff sqrt row _).mpr ⟨h, rfl⟩

@[simp] theorem EvidenceAggregateRow.score_serviceWeight (sqrt : ℚ → ℚ)
    (row : EvidenceAggregateRow) : (row.score sqrt).serviceWeight = row.serviceWeight := rfl

theorem EvidenceAggregateRow.Valid.serviceWeight_pos {row : EvidenceAggregateRow}
    (h : row.Valid) : 0 < row.serviceWeight :=
  EpochServiceEvidence.Valid.serviceWeight_pos h

@[simp] theorem toNat_count (value : ℤ) : (count value).toNat = value.toNat := by
  unfold count
  omega

end AttackDefense

end Rsctf
