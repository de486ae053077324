import Rsctf.Data.Keyed
import Rsctf.KingOfTheHill.Formula
import Rsctf.Scoring.FieldBest

/-!
# Scoring King of the Hill evidence

The evidence of a range of epochs has one row per hill and epoch and one row per team,
hill and epoch.  It is scored into one aggregate per team, with one cell per hill and
one entry per epoch.  Maps are listed in the order of their keys.
-/

open Fallible Guarded Keyed

namespace Rsctf

namespace KingOfTheHill

open Scoring

structure HillEpochMetaRow where
  challengeId : ℤ
  claimSource : String
  epoch : ℤ
  startRound : ℤ
  endRound : ℤ
  serviceWeight : ℚ
  roundCount : ℤ
  resultCount : ℤ
  scorableTicks : ℤ
  eligibleWindows : ℤ
  allFinalized : Bool
  maxCheckedAt : Option ℤ
deriving DecidableEq, Repr

structure TeamEvidenceRow where
  participationId : ℤ
  challengeId : ℤ
  epoch : ℤ
  acquisitionWindows : ℤ
  controlledTicks : ℤ
  responsibleTicks : ℤ
  healthyResponsibleTicks : ℤ
  personalScorableTicks : ℤ
  personalEligibleWindows : ℤ
  apiActivityRate : Option ℚ
  apiObjectiveRate : Option ℚ
  apiPerformanceRate : Option ℚ
  apiLeadRate : Option ℚ
deriving DecidableEq, Repr

def TeamEvidenceRow.key (row : TeamEvidenceRow) : ℤ × ℤ × ℤ :=
  (row.participationId, row.challengeId, row.epoch)

@[ext] structure KothCellAggregate where
  settledPoints : ℚ
  projectedPoints : ℚ
  settledNormalizedPoints : ℚ
  projectedNormalizedPoints : ℚ
  acquisitionRate : ℚ
  controlRate : ℚ
  reliabilityRate : ℚ
  acquisitionWindows : ℤ
  controlledTicks : ℤ
  responsibleTicks : ℤ
  healthyResponsibleTicks : ℤ
  projectedWeight : ℚ
  settledWeight : ℚ
  serviceWeight : ℚ
deriving DecidableEq, Repr

def KothCellAggregate.empty : KothCellAggregate := ⟨0, 0, 0, 0, 0, 0, 0, 0, 0, 0, 0, 0, 0, 0⟩

structure KothEpochAggregate where
  epoch : ℤ
  points : ℚ
  epochWeight : ℚ
  finalized : Bool
  cumulativePointsNumerator : ℚ
  cumulativeEpochWeight : ℚ
deriving DecidableEq, Repr

structure KothTeamAggregate where
  settledTotal : ℚ
  projectedTotal : ℚ
  acquisitionRate : ℚ
  controlRate : ℚ
  reliabilityRate : ℚ
  cells : List (ℤ × KothCellAggregate)
  epochs : List KothEpochAggregate
deriving DecidableEq, Repr

def KothTeamAggregate.empty : KothTeamAggregate := ⟨0, 0, 0, 0, 0, [], []⟩

structure KothHillNormalization where
  settledFieldBest : ℚ
  projectedFieldBest : ℚ
  settledMultiplier : ℚ
  projectedMultiplier : ℚ
  settledShare : ℚ
  projectedShare : ℚ
deriving DecidableEq, Repr

structure KothScoringSnapshot where
  teams : List (ℤ × KothTeamAggregate)
  hills : List (ℤ × KothHillNormalization)
  fullySettled : Bool
deriving DecidableEq, Repr

def KothScoringSnapshot.empty : KothScoringSnapshot := ⟨[], [], false⟩

structure ScoredCellEpoch where
  challengeId : ℤ
  score : KothEpochHillScore
  evidenceFraction : ℚ
  epochFraction : ℚ
  finalized : Bool
  acquisitionWindows : ℤ
  controlledTicks : ℤ
  responsibleTicks : ℤ
  healthyResponsibleTicks : ℤ
deriving DecidableEq, Repr

/-- An error response; a scoring error is reported through its message. -/
inductive AppError
  | internal (message : String)
  | scoring (error : KothScoringError)
deriving DecidableEq, Repr

/-- A count read back from the database, never below zero. -/
def count (value : ℤ) : ℕ := value.toNat

/-- A hill without any scorable tick takes no part in the epoch. -/
def hillEvidenceFraction (scorableTicks : ℕ) : ℚ := if scorableTicks = 0 then 0 else 1

theorem hillEvidenceFraction_mem (scorableTicks : ℕ) :
    0 ≤ hillEvidenceFraction scorableTicks ∧ hillEvidenceFraction scorableTicks ≤ 1 := by
  unfold hillEvidenceFraction
  split <;> norm_num

/-- The share of a full epoch which the hills of an epoch were played for. -/
def epochWeightFraction (hillMetas : List HillEpochMetaRow) (epochTicks : ℤ) : ℚ :=
  let expected := (max epochTicks 1).toNat
  let totalWeight := (hillMetas.map (·.serviceWeight)).sum
  let played :=
    (hillMetas.map fun row => row.serviceWeight * (count row.scorableTicks : ℚ)).sum
  if hillMetas = [] then 0
  else if played ≤ 0 then 0
  else if hillMetas.all fun row => count row.roundCount = expected then 1
  else clamp 0 1 (ratio played (totalWeight * (expected : ℚ)))

theorem epochWeightFraction_mem (hillMetas : List HillEpochMetaRow) (epochTicks : ℤ) :
    0 ≤ epochWeightFraction hillMetas epochTicks ∧
      epochWeightFraction hillMetas epochTicks ≤ 1 := by
  unfold epochWeightFraction
  dsimp only
  split_ifs
  · norm_num
  · norm_num
  · norm_num
  · exact ⟨low_le_clamp _ _ _, clamp_le_high (by norm_num) _⟩

section Scored

variable (sqrt : ℚ → ℚ) (epochTicks : ℤ) (eventEnded : Bool)

/-- A hill is final in an epoch: every round has a result, and the epoch is full unless
the event has ended. -/
def HillEpochMetaRow.finalized (row : HillEpochMetaRow) : Bool :=
  row.allFinalized && row.resultCount = row.roundCount &&
    (row.roundCount = epochTicks || eventEnded)

def HillEpochMetaRow.epochFraction (row : HillEpochMetaRow) : ℚ :=
  if count row.roundCount = epochTicks.toNat then 1
  else evidenceFraction (count row.scorableTicks) epochTicks.toNat

theorem HillEpochMetaRow.epochFraction_nonneg (row : HillEpochMetaRow) :
    0 ≤ row.epochFraction epochTicks := by
  unfold HillEpochMetaRow.epochFraction
  split
  · norm_num
  · exact (evidenceFraction_mem _ _).1

def apiHillEvidence (row : HillEpochMetaRow) (team : Option TeamEvidenceRow) :
    KothApiEpochHillEvidence where
  activityRate := (team.bind (·.apiActivityRate)).getD 0
  objectiveRate := (team.bind (·.apiObjectiveRate)).getD 0
  performanceRate := (team.bind (·.apiPerformanceRate)).getD 0
  leadRate := (team.bind (·.apiLeadRate)).getD 0
  serviceWeight := row.serviceWeight

def hillEvidence (row : HillEpochMetaRow) (team : Option TeamEvidenceRow) :
    KothEpochHillEvidence where
  scorableTicks := (team.map (·.personalScorableTicks)).getD 0
  acquisitionWindows := (team.map (·.acquisitionWindows)).getD 0
  eligibleWindows := (team.map (·.personalEligibleWindows)).getD 0
  controlledTicks := (team.map (·.controlledTicks)).getD 0
  responsibleTicks := (team.map (·.responsibleTicks)).getD 0
  healthyResponsibleTicks := (team.map (·.healthyResponsibleTicks)).getD 0
  serviceWeight := row.serviceWeight

/-- The score of a team on a hill in an epoch, by the formula of the claim source. -/
def scoreHill (row : HillEpochMetaRow) (team : Option TeamEvidenceRow) :
    Except AppError KothEpochHillScore :=
  (if row.claimSource = "Api" then scoreApiEpochHill (apiHillEvidence row team)
    else scoreEpochHill sqrt (hillEvidence row team)).mapError .scoring

def scoredCellEpoch (row : HillEpochMetaRow) (team : Option TeamEvidenceRow)
    (score : KothEpochHillScore) : ScoredCellEpoch where
  challengeId := row.challengeId
  score := score
  evidenceFraction := hillEvidenceFraction (count row.scorableTicks)
  epochFraction := row.epochFraction epochTicks
  finalized := row.finalized epochTicks eventEnded
  acquisitionWindows := (team.map (·.acquisitionWindows)).getD 0
  controlledTicks := (team.map (·.controlledTicks)).getD 0
  responsibleTicks := (team.map (·.responsibleTicks)).getD 0
  healthyResponsibleTicks := (team.map (·.healthyResponsibleTicks)).getD 0

/-- The scored cells of a range, each with its participation and epoch. -/
def scoreCells (hillMetas : List HillEpochMetaRow) (teamEvidence : List TeamEvidenceRow)
    (rosterIds : List ℤ) : Except AppError (List (ℤ × ℤ × ScoredCellEpoch)) := do
  let cells ← hillMetas.mapM fun row => rosterIds.mapM fun participationId => do
    let team := get TeamEvidenceRow.key (participationId, row.challengeId, row.epoch) teamEvidence
    let score ← scoreHill sqrt row team
    return (participationId, row.epoch, scoredCellEpoch epochTicks eventEnded row team score)
  return cells.flatten

end Scored

def ScoredCellEpoch.weight (cell : ScoredCellEpoch) : ℚ :=
  cell.epochFraction * cell.evidenceFraction

/-- The aggregate of one hill over the epochs of one team. -/
def cellAggregate (cells : List ScoredCellEpoch) : KothCellAggregate :=
  let settled := cells.filter (·.finalized)
  let projectedWeight := (cells.map (·.weight)).sum
  let settledWeight := (settled.map (·.weight)).sum
  { settledPoints := ratio (settled.map fun cell => cell.score.localPoints * cell.weight).sum
      settledWeight
    projectedPoints := ratio (cells.map fun cell => cell.score.localPoints * cell.weight).sum
      projectedWeight
    settledNormalizedPoints := 0
    projectedNormalizedPoints := 0
    acquisitionRate := ratio (cells.map fun cell => cell.score.acquisitionRate * cell.weight).sum
      projectedWeight
    controlRate := ratio (cells.map fun cell => cell.score.controlRate * cell.weight).sum
      projectedWeight
    reliabilityRate := ratio (cells.map fun cell => cell.score.reliabilityRate * cell.weight).sum
      projectedWeight
    acquisitionWindows := (cells.map (·.acquisitionWindows)).sum
    controlledTicks := (cells.map (·.controlledTicks)).sum
    responsibleTicks := (cells.map (·.responsibleTicks)).sum
    healthyResponsibleTicks := (cells.map (·.healthyResponsibleTicks)).sum
    projectedWeight
    settledWeight
    serviceWeight := (cells.getLast?.map (·.score.serviceWeight)).getD 0 }

def KothCellAggregate.rateWeight (cell : KothCellAggregate) : ℚ :=
  cell.projectedWeight * cell.serviceWeight

/-- A rate of a team: the mean of the rates of its cells. -/
def teamRate (rate : KothCellAggregate → ℚ) (cells : List (ℤ × KothCellAggregate)) : ℚ :=
  ratio (cells.map fun cell => rate cell.2 * cell.2.rateWeight).sum
    (cells.map fun cell => cell.2.rateWeight).sum

/-- Running sums of the points and weights of the epochs, from given initial values. -/
def cumulate (pointsNumerator epochWeight : ℚ) :
    List KothEpochAggregate → List KothEpochAggregate
  | [] => []
  | epoch :: epochs =>
    let pointsNumerator := pointsNumerator + epoch.points * epoch.epochWeight
    let epochWeight := epochWeight + epoch.epochWeight
    { epoch with
      cumulativePointsNumerator := pointsNumerator
      cumulativeEpochWeight := epochWeight } :: cumulate pointsNumerator epochWeight epochs

/-- One epoch of one team. -/
def epochAggregate (epoch : ℤ) (epochWeight : ℚ) (cells : List ScoredCellEpoch) :
    Except AppError KothEpochAggregate := do
  let score ← (aggregateEpochHills (cells.map fun cell =>
    ⟨cell.score, cell.evidenceFraction⟩)).mapError .scoring
  return {
    epoch
    points := score.points
    epochWeight
    finalized := cells.all (·.finalized)
    cumulativePointsNumerator := 0
    cumulativeEpochWeight := 0 }

/-- The aggregate of one team from its scored cells, each with its epoch. -/
def teamAggregate (epochTicks : ℤ) (hillMetas : List HillEpochMetaRow)
    (scored : List (ℤ × ScoredCellEpoch)) : Except AppError KothTeamAggregate := do
  let epochIds := sortedKeys (scored.map Prod.fst)
  let epochCells := fun epoch => (rows Prod.fst epoch scored).map Prod.snd
  let epochs ← epochIds.mapM fun epoch =>
    epochAggregate epoch (epochWeightFraction (rows (·.epoch) epoch hillMetas) epochTicks)
      (epochCells epoch)
  let cells := (epochIds.map epochCells).flatten
  let aggregates := (sortedKeys (cells.map (·.challengeId))).map fun challengeId =>
    (challengeId, cellAggregate (rows (·.challengeId) challengeId cells))
  let projectedTotal ← (weightedEpochAverage
    (epochs.map fun epoch => (epoch.points, epoch.epochWeight))).mapError .scoring
  let settledTotal ← (weightedEpochAverage ((epochs.filter (·.finalized)).map fun epoch =>
    (epoch.points, epoch.epochWeight))).mapError .scoring
  return {
    settledTotal
    projectedTotal
    acquisitionRate := teamRate (·.acquisitionRate) aggregates
    controlRate := teamRate (·.controlRate) aggregates
    reliabilityRate := teamRate (·.reliabilityRate) aggregates
    cells := aggregates
    epochs := cumulate 0 0 epochs }

/-- Score the evidence of a range of epochs, team by team. -/
def scoreEvidenceRows (sqrt : ℚ → ℚ) (hillMetas : List HillEpochMetaRow)
    (teamEvidence : List TeamEvidenceRow) (rosterIds : List ℤ) (epochTicks : ℤ)
    (eventEnded : Bool) : Except AppError KothScoringSnapshot :=
  if hillMetas = [] then return .empty
  else do
    let scored ← scoreCells sqrt epochTicks eventEnded hillMetas teamEvidence rosterIds
    let teams ← (sortedKeys (scored.map Prod.fst)).mapM fun participationId => do
      let team ← teamAggregate epochTicks hillMetas
        ((rows Prod.fst participationId scored).map Prod.snd)
      return (participationId, team)
    return {
      teams
      hills := []
      fullySettled := eventEnded && hillMetas.all (·.finalized epochTicks eventEnded) }

/-- What the field reached on one hill. -/
structure HillField where
  settledBest : ℚ
  projectedBest : ℚ
  settledWeight : ℚ
  projectedWeight : ℚ
deriving DecidableEq, Repr

def hillField (cells : List KothCellAggregate) : HillField :=
  let settled := cells.filter fun cell => 0 < cell.settledWeight
  let projected := cells.filter fun cell => 0 < cell.projectedWeight
  { settledBest := (settled.map (·.settledPoints)).foldl max 0
    projectedBest := (projected.map (·.projectedPoints)).foldl max 0
    settledWeight := (settled.map fun cell => cell.serviceWeight * cell.settledWeight).foldl max 0
    projectedWeight :=
      (projected.map fun cell => cell.serviceWeight * cell.projectedWeight).foldl max 0 }

/-- The normalization of every hill, from the cells of all teams. -/
def hillNormalizations (cells : List (ℤ × KothCellAggregate)) :
    List (ℤ × KothHillNormalization) :=
  let fields := (sortedKeys (cells.map Prod.fst)).map fun challengeId =>
    (challengeId, hillField ((rows Prod.fst challengeId cells).map Prod.snd))
  let settledTotalWeight := (fields.map fun field => field.2.settledWeight).sum
  let projectedTotalWeight := (fields.map fun field => field.2.projectedWeight).sum
  fields.map fun (challengeId, field) =>
    (challengeId,
      { settledFieldBest := field.settledBest
        projectedFieldBest := field.projectedBest
        settledMultiplier := fieldBestMultiplier field.settledBest
        projectedMultiplier := fieldBestMultiplier field.projectedBest
        settledShare := ratio field.settledWeight settledTotalWeight
        projectedShare := ratio field.projectedWeight projectedTotalWeight })

def normalizeCell (hills : List (ℤ × KothHillNormalization)) (cell : ℤ × KothCellAggregate) :
    ℤ × KothCellAggregate :=
  match get Prod.fst cell.1 hills with
  | none => cell
  | some (_, hill) =>
    (cell.1,
      { cell.2 with
        settledNormalizedPoints :=
          normalizeToFieldBest cell.2.settledPoints hill.settledFieldBest
        projectedNormalizedPoints :=
          normalizeToFieldBest cell.2.projectedPoints hill.projectedFieldBest })

/-- The share of a total which one cell contributes. -/
def normalizedShare (hills : List (ℤ × KothHillNormalization))
    (share : KothHillNormalization → ℚ) (points : KothCellAggregate → ℚ)
    (cell : ℤ × KothCellAggregate) : ℚ :=
  ((get Prod.fst cell.1 hills).map fun hill => share hill.2 * points cell.2).getD 0

def normalizeTeam (hills : List (ℤ × KothHillNormalization)) (team : KothTeamAggregate) :
    KothTeamAggregate :=
  let cells := team.cells.map (normalizeCell hills)
  { team with
    cells
    settledTotal := clamp 0 100 (cells.map
      (normalizedShare hills (·.settledShare) (·.settledNormalizedPoints))).sum
    projectedTotal := clamp 0 100 (cells.map
      (normalizedShare hills (·.projectedShare) (·.projectedNormalizedPoints))).sum }

/-- Normalize every hill to its field best and add the hills up to the totals. -/
def applyFieldBestNormalization (teams : List (ℤ × KothTeamAggregate)) :
    List (ℤ × KothTeamAggregate) × List (ℤ × KothHillNormalization) :=
  let hills := hillNormalizations (teams.flatMap fun team => team.2.cells)
  (teams.map fun team => (team.1, normalizeTeam hills team.2), hills)

end KingOfTheHill

end Rsctf
