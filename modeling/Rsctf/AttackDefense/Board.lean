import Rsctf.AttackDefense.Rollup
import Rsctf.Scoring.FieldBest

/-!
# The Attack & Defense scoreboard

A board row merges what the rollup tables remember of the sealed epochs with the
raw evidence of the epochs after them.  Rows are then normalized to the field
best of every service and ranked.
-/

open Fallible Guarded

namespace Rsctf

namespace AttackDefense

open Scoring

def teamDetailEpochLimit : ℕ := 3
def flagLifetimeTicksDefault : ℤ := 5

structure ScoredService where
  challengeId : ℤ
  captureCount : ℕ
  offenseRate : ℚ
  defenseRate : ℚ
  slaRate : ℚ
  serviceWeight : ℚ
  localPoints : ℚ
deriving DecidableEq, Repr

structure AdEpochScore where
  epoch : ℤ
  points : ℚ
  epochWeight : ℚ
  finalized : Bool
deriving DecidableEq, Repr

structure ScoredEpoch where
  summary : AdEpochScore
  services : List ScoredService
deriving DecidableEq, Repr

structure AdServiceScore where
  challengeId : ℤ
  settledPoints : ℚ
  projectedPoints : ℚ
  settledLocalPoints : ℚ
  projectedLocalPoints : ℚ
  offenseRate : ℚ
  defenseRate : ℚ
  slaRate : ℚ
  captureCount : ℕ
  lastCheckStatus : Option String
deriving DecidableEq, Repr

structure AdTeamScore where
  rank : ℕ
  participationId : ℤ
  teamId : ℤ
  teamName : String
  division : Option String
  settledTotal : ℚ
  projectedTotal : ℚ
  offenseRate : ℚ
  defenseRate : ℚ
  slaRate : ℚ
  services : List AdServiceScore
  epochs : List AdEpochScore
deriving DecidableEq, Repr

structure AdScoreboardChallenge where
  challengeId : ℤ
  title : String
  serviceWeight : ℚ
  settledFieldBest : ℚ
  projectedFieldBest : ℚ
  settledMultiplier : ℚ
  projectedMultiplier : ℚ
deriving DecidableEq, Repr

/-- The clock of the board: when epochs count as settled. -/
structure BoardClock where
  epochTicks : ℤ
  flagLifetimeTicks : ℤ
  acceptanceClosed : Bool
  currentRound : ℤ
deriving DecidableEq, Repr

/-- An epoch whose evidence can no longer change: all of its checks and rounds are
final, and either the event has ended or the epoch is full and its flags have
outlived their lifetime. -/
def BoardClock.finalized (clock : BoardClock) (epochMeta : EpochMetaRow) : Bool :=
  epochMeta.allChecksComplete && epochMeta.allFinalized &&
    (clock.acceptanceClosed ||
      (epochMeta.roundCount = clock.epochTicks &&
        epochMeta.endRound + clock.flagLifetimeTicks ≤ clock.currentRound))

def checkStatusLabel : AdCheckStatus → String
  | .ok => "Ok"
  | .mumble => "Mumble"
  | .offline => "Offline"
  | .internalError => "InternalError"

/-- The key under which the board looks up the evidence of a service in an epoch. -/
def EvidenceAggregateRow.epochKey (row : EvidenceAggregateRow) : ℤ × ℤ × ℤ :=
  (row.participationId, row.challengeId, row.epoch)

def scoredService (row : EvidenceAggregateRow) (score : EpochServiceScore) :
    ScoredService where
  challengeId := row.challengeId
  captureCount := (serviceEvidence row).captureCount
  offenseRate := score.offenseRate
  defenseRate := score.defenseRate
  slaRate := score.slaRate
  serviceWeight := score.serviceWeight
  localPoints := score.localPoints

/-- Score the evidence rows of one team in one epoch. -/
def scoreServices (sqrt : ℚ → ℚ) (rows : List EvidenceAggregateRow) :
    Except AppError (List ScoredService) :=
  rows.mapM fun row => do
    let score ← scoreRow sqrt row
    return scoredService row score

/-- The evidence rows of one team in one epoch, in the order of its services. -/
def teamEvidence (evidence : List EvidenceAggregateRow)
    (teamServices : List StableServiceRow) (epoch : ℤ) : List EvidenceAggregateRow :=
  teamServices.filterMap fun service =>
    Keyed.get EvidenceAggregateRow.epochKey
      (service.participationId, service.challengeId, epoch) evidence

def scoredPoints (services : List ScoredService) : ℚ :=
  if services = [] then 0
  else (services.map fun service => service.localPoints * service.serviceWeight).sum
    / (services.map fun service => service.serviceWeight).sum

def scoredEpoch (clock : BoardClock) (epochMeta : EpochMetaRow)
    (services : List ScoredService) : ScoredEpoch where
  summary :=
    { epoch := epochMeta.epoch
      points := scoredPoints services
      epochWeight := (min epochMeta.roundCount clock.epochTicks : ℤ) / clock.epochTicks
      finalized := clock.finalized epochMeta }
  services := services

/-- The raw epochs of one team. -/
def scoreEpochs (sqrt : ℚ → ℚ) (clock : BoardClock) (epochMetas : List EpochMetaRow)
    (evidence : List EvidenceAggregateRow) (teamServices : List StableServiceRow) :
    Except AppError (List ScoredEpoch) :=
  epochMetas.mapM fun epochMeta => do
    let services ← scoreServices sqrt (teamEvidence evidence teamServices epochMeta.epoch)
    return scoredEpoch clock epochMeta services

/-- Numerator and weight of a rate over the services of the raw epochs. -/
def rateComponents (epochs : List ScoredEpoch) (select : ScoredService → ℚ) : ℚ × ℚ :=
  let weight := (epochs.flatMap fun epoch => epoch.services.map fun service =>
    service.serviceWeight * epoch.summary.epochWeight).sum
  let numerator := (epochs.flatMap fun epoch => epoch.services.map fun service =>
    select service * service.serviceWeight * epoch.summary.epochWeight).sum
  (numerator, weight)

/-- The accumulators of one service while its raw epochs are merged. -/
structure ServiceAccumulators where
  projectedPointsNumerator : ℚ
  settledPointsNumerator : ℚ
  projectedWeight : ℚ
  settledWeight : ℚ
  offenseNumerator : ℚ
  defenseNumerator : ℚ
  slaNumerator : ℚ
  captures : ℕ
deriving DecidableEq, Repr

def ServiceAccumulators.ofTotals (totals : PreviousServiceTotals) : ServiceAccumulators where
  projectedPointsNumerator := totals.pointsNumerator
  settledPointsNumerator := totals.pointsNumerator
  projectedWeight := totals.epochWeight
  settledWeight := totals.epochWeight
  offenseNumerator := totals.offenseNumerator
  defenseNumerator := totals.defenseNumerator
  slaNumerator := totals.slaNumerator
  captures := (count totals.captureCount).toNat

/-- One pass of the loop of `mergeServiceDetail`. -/
def mergeServiceEpoch (challengeId : ℤ) (acc : ServiceAccumulators) (epoch : ScoredEpoch) :
    ServiceAccumulators :=
  match epoch.services.find? fun service => service.challengeId = challengeId with
  | none => acc
  | some service =>
    let serviceWeight := (epoch.services.map fun service => service.serviceWeight).sum
    if serviceWeight ≤ 0 then acc
    else
      let weight := epoch.summary.epochWeight
      let pointContribution :=
        service.localPoints * service.serviceWeight / serviceWeight * weight
      { projectedPointsNumerator := acc.projectedPointsNumerator + pointContribution
        settledPointsNumerator :=
          if epoch.summary.finalized then acc.settledPointsNumerator + pointContribution
          else acc.settledPointsNumerator
        projectedWeight := acc.projectedWeight + weight
        settledWeight :=
          if epoch.summary.finalized then acc.settledWeight + weight
          else acc.settledWeight
        offenseNumerator := acc.offenseNumerator + service.offenseRate * weight
        defenseNumerator := acc.defenseNumerator + service.defenseRate * weight
        slaNumerator := acc.slaNumerator + service.slaRate * weight
        captures := acc.captures + service.captureCount }

/-- Merge the remembered totals of one service with its raw epochs. -/
def mergeServiceDetail (challengeId : ℤ) (previous : Option AdEpochServiceRollup)
    (rawEpochs : List ScoredEpoch) (lastCheckStatus : Option String) : AdServiceScore :=
  let acc := rawEpochs.foldl (mergeServiceEpoch challengeId)
    (.ofTotals ((previous.map (·.totals)).getD 0))
  { challengeId
    settledPoints := ratio acc.settledPointsNumerator acc.settledWeight
    projectedPoints := ratio acc.projectedPointsNumerator acc.projectedWeight
    settledLocalPoints := 0
    projectedLocalPoints := 0
    offenseRate := ratio acc.offenseNumerator acc.projectedWeight
    defenseRate := ratio acc.defenseNumerator acc.projectedWeight
    slaRate := ratio acc.slaNumerator acc.projectedWeight
    captureCount := acc.captures
    lastCheckStatus }

/-- The epochs shown in the detail of a team: the last three of the sealed and the
raw ones. -/
def detailEpochs (recent : List AdEpochTeamRollup) (rawEpochs : List ScoredEpoch) :
    List AdEpochScore :=
  let epochs := ((recent.map fun row =>
      { epoch := row.epoch, points := row.points, epochWeight := row.epochWeight,
        finalized := true : AdEpochScore })
    ++ rawEpochs.map (·.summary)).insertionSort fun left right => left.epoch ≤ right.epoch
  epochs.drop (epochs.length - teamDetailEpochLimit)

/-- The board row of one team, before normalization and ranking. -/
def teamRow (snapshot : RollupSnapshot) (latestChecks : List LatestCheckStatusRow)
    (team : StableServiceRow) (teamServices : List StableServiceRow)
    (rawEpochs : List ScoredEpoch) : AdTeamScore :=
  let participationId := team.participationId
  let previous :=
    ((Keyed.get (·.participationId) participationId snapshot.teams).map (·.totals)).getD 0
  let rawPoints :=
    (rawEpochs.map fun epoch => epoch.summary.points * epoch.summary.epochWeight).sum
  let rawEpochWeight := (rawEpochs.map fun epoch => epoch.summary.epochWeight).sum
  let settledEpochs := rawEpochs.filter fun epoch => epoch.summary.finalized
  let settledRawPoints :=
    (settledEpochs.map fun epoch => epoch.summary.points * epoch.summary.epochWeight).sum
  let settledRawWeight := (settledEpochs.map fun epoch => epoch.summary.epochWeight).sum
  let offense := rateComponents rawEpochs fun service => service.offenseRate
  let defense := rateComponents rawEpochs fun service => service.defenseRate
  let sla := rateComponents rawEpochs fun service => service.slaRate
  let rateWeight := previous.rateWeight + offense.2
  { rank := 0
    participationId
    teamId := team.teamId
    teamName := team.teamName
    division := team.division
    settledTotal := ratio (previous.pointsNumerator + settledRawPoints)
      (previous.epochWeight + settledRawWeight)
    projectedTotal := ratio (previous.pointsNumerator + rawPoints)
      (previous.epochWeight + rawEpochWeight)
    offenseRate := ratio (previous.offenseNumerator + offense.1) rateWeight
    defenseRate := ratio (previous.defenseNumerator + defense.1) rateWeight
    slaRate := ratio (previous.slaNumerator + sla.1) rateWeight
    services := teamServices.map fun service =>
      mergeServiceDetail service.challengeId
        (Keyed.get AdEpochServiceRollup.serviceKey (participationId, service.challengeId)
          snapshot.services)
        rawEpochs
        ((Keyed.get (fun row : LatestCheckStatusRow => (row.participationId, row.challengeId))
          (participationId, service.challengeId) latestChecks).map
            fun row => checkStatusLabel row.status)
    epochs := detailEpochs (Keyed.rows (·.participationId) participationId snapshot.recent)
      rawEpochs }

/-- The participations of the roster in increasing order, with their team data. -/
def rosterTeams (services : List StableServiceRow) : List StableServiceRow :=
  (Keyed.sortedKeys (services.map (·.participationId))).filterMap fun participationId =>
    Keyed.get (·.participationId) participationId services

/-- The board rows of the whole roster, in the order of the participations. -/
def teamRows (sqrt : ℚ → ℚ) (clock : BoardClock) (services : List StableServiceRow)
    (snapshot : RollupSnapshot) (epochMetas : List EpochMetaRow)
    (aggregateRows : List EvidenceAggregateRow)
    (latestChecks : List LatestCheckStatusRow) : Except AppError (List AdTeamScore) :=
  (rosterTeams services).mapM fun team => do
    let teamServices := Keyed.rows (·.participationId) team.participationId services
    let rawEpochs ← scoreEpochs sqrt clock epochMetas aggregateRows teamServices
    return teamRow snapshot latestChecks team teamServices rawEpochs

end AttackDefense

end Rsctf
