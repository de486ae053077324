import Rsctf.AttackDefense.Rollup
import Rsctf.AttackDefense.SlaTimeline
import Rsctf.Data.Grouping

/-!
# The evidence query

The evidence of a range of rounds is read from the raw tables by one query.  Its
intermediate tables are modelled one by one under the names the query gives them.
A join on a key of a table is a lookup in it, a left join an optional lookup, and
a group is the list of rows with a given key.
-/

open Keyed Grouping

namespace Rsctf

namespace AttackDefense

structure AdRound where
  id : ℤ
  gameId : ℤ
  number : ℤ
  startTimeUtc : ℤ
deriving DecidableEq, Repr

structure AdFlag where
  id : ℤ
  roundId : ℤ
  teamServiceId : ℤ
  checkerQualified : Bool
  serviceWeight : ℚ
deriving DecidableEq, Repr

structure AdTeamService where
  id : ℤ
  gameId : ℤ
  participationId : ℤ
  challengeId : ℤ
deriving DecidableEq, Repr

structure AdCheckResult where
  roundId : ℤ
  teamServiceId : ℤ
  status : AdCheckStatus
  message : Option String
  checkedAt : ℤ
  slaCredit : Option ℚ
  flagVerified : Bool
deriving DecidableEq, Repr

structure AdFlagDeliveryResult where
  roundId : ℤ
  teamServiceId : ℤ
  delivered : Bool
  attempts : ℕ
deriving DecidableEq, Repr

structure AdAttack where
  flagId : ℤ
  attackerParticipationId : ℤ
  submittedAt : ℤ
deriving DecidableEq, Repr

structure Participation where
  id : ℤ
  gameId : ℤ
  teamId : ℤ
deriving DecidableEq, Repr

structure GameChallenge where
  id : ℤ
  gameId : ℤ
deriving DecidableEq, Repr

/-- The tables which the evidence query reads.  Of the teams it only needs the
identifiers; the rollup tables are given game by game. -/
structure AdTables where
  rounds : List AdRound
  flags : List AdFlag
  teamServices : List AdTeamService
  checkResults : List AdCheckResult
  flagDeliveryResults : List AdFlagDeliveryResult
  attacks : List AdAttack
  participations : List Participation
  teams : List ℤ
  gameChallenges : List GameChallenge
  rollups : ℤ → RollupStore

/-- The tables with the constraints which their schema declares on them. -/
structure AdDatabase extends AdTables where
  roundId_nodup : (rounds.map (·.id)).Nodup
  roundNumber_nodup : (rounds.map fun round => (round.gameId, round.number)).Nodup
  flagId_nodup : (flags.map (·.id)).Nodup
  flagKey_nodup : (flags.map fun flag => (flag.roundId, flag.teamServiceId)).Nodup
  flagServiceWeight_mem : ∀ flag ∈ flags,
    minServiceWeight ≤ flag.serviceWeight ∧ flag.serviceWeight ≤ maxServiceWeight
  teamServiceId_nodup : (teamServices.map (·.id)).Nodup
  teamServiceKey_nodup :
    (teamServices.map fun service => (service.participationId, service.challengeId)).Nodup
  checkResultKey_nodup :
    (checkResults.map fun result => (result.roundId, result.teamServiceId)).Nodup
  flagDeliveryKey_nodup :
    (flagDeliveryResults.map fun result => (result.roundId, result.teamServiceId)).Nodup
  participationId_nodup : (participations.map (·.id)).Nodup
  gameChallengeId_nodup : (gameChallenges.map (·.id)).Nodup
  closingSlaCredit_mem : ∀ gameId, ∀ row ∈ (rollups gameId).services,
    ∀ credit ∈ row.closingSlaCredit, 0 ≤ credit ∧ credit ≤ 1

/-- The rounds, checks and captures which a query takes into account. -/
structure EvidenceRange where
  officialStartRound : ℤ
  startRound : ℤ
  endRound : Option ℤ
  epochTicks : ℤ
  roundCutoff : Option ℤ
  checkerCutoff : Option ℤ
  attackCutoff : Option ℤ
  eventEndSettlement : Bool
deriving DecidableEq, Repr

namespace EvidenceRange

/-- The epoch of a round number; the division truncates. -/
def epochOf (range : EvidenceRange) (number : ℤ) : ℤ :=
  (number - range.officialStartRound).tdiv range.epochTicks + 1

/-- An instant is before an optional cutoff, strictly so at the event end. -/
def within (range : EvidenceRange) (cutoff : Option ℤ) (time : ℤ) : Bool :=
  cutoff.all fun cutoff =>
    if range.eventEndSettlement then time < cutoff else time ≤ cutoff

/-- A check is part of the history: completed, and not after the cutoff unless the
event has ended. -/
def completed (range : EvidenceRange) (result : AdCheckResult) : Bool :=
  result.slaCredit.isSome &&
    (range.eventEndSettlement || range.checkerCutoff.all (result.checkedAt ≤ ·))

/-- At the event end a check completed at or after the cutoff counts as a zero. -/
def settlementZero (range : EvidenceRange) (result : AdCheckResult) : Bool :=
  range.eventEndSettlement && range.checkerCutoff.any (· ≤ result.checkedAt)

def boundaryZeroMessages : List String :=
  ["checker pass did not complete before event-close grace expired",
    "checker pass cancelled before completion"]

/-- A zero which the engine itself recorded at the cutoff. -/
def recognizedBoundaryZero (range : EvidenceRange) (result : AdCheckResult) : Bool :=
  range.eventEndSettlement && range.checkerCutoff = some result.checkedAt &&
    result.status = .internalError && result.slaCredit = some 0 && !result.flagVerified &&
    result.message.any (· ∈ boundaryZeroMessages)

end EvidenceRange

structure ScoringRound where
  id : ℤ
  number : ℤ
  epoch : ℤ
deriving DecidableEq, Repr

structure StableService where
  id : ℤ
  participationId : ℤ
  challengeId : ℤ
  serviceWeight : ℚ
deriving DecidableEq, Repr

def StableService.key (service : StableService) : ℤ × ℤ :=
  (service.participationId, service.challengeId)

/-- A completed check as the later steps of the query see it. -/
structure CheckHistoryRow where
  status : AdCheckStatus
  flagVerified : Bool
  platformVoid : Bool
  forcedZero : Bool
deriving DecidableEq, Repr

def CheckHistoryRow.sample (row : CheckHistoryRow) : CheckSample :=
  ⟨row.status, row.platformVoid, row.forcedZero⟩

/-- A flag of a frozen service which was minted in a scoring round. -/
structure StableFlag where
  id : ℤ
  roundId : ℤ
  teamServiceId : ℤ
  victimId : ℤ
  challengeId : ℤ
  epoch : ℤ
  checkerQualified : Bool
deriving DecidableEq, Repr

structure StableCapture where
  flagId : ℤ
  attackerParticipationId : ℤ
deriving DecidableEq, Repr

/-- A flag with what became of it. -/
structure FlagOutcome where
  flag : StableFlag
  opponents : ℤ
  captureCount : ℤ
  flagDelivered : Bool
  exactChecked : Bool
deriving DecidableEq, Repr

namespace FlagOutcome

def protectedCount (outcome : FlagOutcome) : ℤ := outcome.opponents - outcome.captureCount

/-- Rarity is only measured against a field of at least four opponents. -/
def rarityFraction (outcome : FlagOutcome) : ℚ :=
  if 4 ≤ outcome.opponents then
    ((outcome.opponents - outcome.captureCount : ℤ) : ℚ) / (outcome.opponents : ℚ)
  else 0

def id (outcome : FlagOutcome) : ℤ := outcome.flag.id

/-- The field in which a flag can be captured. -/
def fieldKey (outcome : FlagOutcome) : ℤ × ℤ := (outcome.flag.challengeId, outcome.flag.epoch)

/-- The grid cell of the owner of a flag. -/
def victimKey (outcome : FlagOutcome) : ℤ × ℤ × ℤ := (outcome.flag.victimId, outcome.fieldKey)

end FlagOutcome

namespace AdTables

variable (db : AdTables) (gameId : ℤ) (range : EvidenceRange)

/-- The rounds of the range, listed by number. -/
def scoringRounds : List ScoringRound :=
  ((db.rounds.filter fun round =>
      round.gameId = gameId && range.startRound ≤ round.number &&
        range.endRound.all (round.number ≤ ·) &&
        range.within range.roundCutoff round.startTimeUtc).map fun round =>
    { id := round.id
      number := round.number
      epoch := range.epochOf round.number }).insertionSort (·.number ≤ ·.number)

def officialStartRound : Option AdRound :=
  db.rounds.find? fun round =>
    round.gameId = gameId && round.number = range.officialStartRound &&
      range.within range.roundCutoff round.startTimeUtc

/-- The frozen service which a flag of the official start round was minted for. -/
def stableService (flag : AdFlag) : Option StableService := do
  let service ← db.teamServices.find? (·.id = flag.teamServiceId)
  let participation ← db.participations.find? fun participation =>
    participation.id = service.participationId && participation.gameId = service.gameId
  let _team ← db.teams.find? (· = participation.teamId)
  let _challenge ← db.gameChallenges.find? fun challenge =>
    challenge.id = service.challengeId && challenge.gameId = service.gameId
  return ⟨service.id, service.participationId, service.challengeId, flag.serviceWeight⟩

def stableServices : List StableService :=
  match db.officialStartRound gameId range with
  | none => []
  | some round => (rows (·.roundId) round.id db.flags).filterMap db.stableService

/-- The size of the field of one challenge. -/
def teamCount (challengeId : ℤ) : ℤ :=
  (rows (·.challengeId) challengeId (db.stableServices gameId range)).length

/-- The closing state of the latest sealed epoch before the range. -/
def seedState (service : StableService) : SeedState :=
  let earlier := (rows AdEpochServiceRollup.serviceKey service.key
    (db.rollups gameId).services).filter (·.epoch < range.epochOf range.startRound)
  match latest (·.epoch) earlier with
  | none => SeedState.empty
  | some rollup => ⟨rollup.closingSlaStatus, rollup.closingSlaCredit⟩

def flagDelivery (roundId teamServiceId : ℤ) : Option AdFlagDeliveryResult :=
  db.flagDeliveryResults.find? fun delivery =>
    delivery.roundId = roundId && delivery.teamServiceId = teamServiceId

def checkHistory (roundId teamServiceId : ℤ) : Option CheckHistoryRow :=
  let found := db.checkResults.find? fun result =>
    result.roundId = roundId && result.teamServiceId = teamServiceId && range.completed result
  found.map fun result =>
    let settlementZero := range.settlementZero result
    let unrecognized := settlementZero && !range.recognizedBoundaryZero result
    { status := if unrecognized then .internalError else result.status
      flagVerified := if unrecognized then false else result.flagVerified
      platformVoid := (db.flagDelivery roundId teamServiceId).any fun delivery =>
        !delivery.delivered && delivery.attempts = 0
      forcedZero := settlementZero }

/-- The checks of one service along the scoring rounds. -/
def creditTimeline (service : StableService) : List (Option CheckSample) :=
  (db.scoringRounds gameId range).map fun round =>
    (db.checkHistory range round.id service.id).map (·.sample)

def slaGrid (service : StableService) : List (ScoringRound × SlaCell) :=
  (db.scoringRounds gameId range).zip
    (slaTimeline (db.seedState gameId range service) (db.creditTimeline gameId range service))

/-- A round is void for a challenge when every service which was not void itself has
an infrastructure error without a prior credit. -/
def voidTick (challengeId roundId : ℤ) : Bool :=
  let field := (rows (·.challengeId) challengeId (db.stableServices gameId range)).flatMap
    fun service => (rows (·.1.id) roundId (db.slaGrid gameId range service)).map Prod.snd
  let counted := field.filter (!·.personalVoid)
  !counted.isEmpty && counted.all (·.infraWithoutPrior)

/-- The cells of one service in one epoch which count towards its SLA. -/
def slaEvidence (service : StableService) (epoch : ℤ) : List SlaCell :=
  ((rows (·.1.epoch) epoch (db.slaGrid gameId range service)).filter fun (round, cell) =>
    !db.voidTick gameId range service.challengeId round.id && !cell.personalVoid).map Prod.snd

def closingSla (service : StableService) : SeedState :=
  AttackDefense.closingSla (db.seedState gameId range service)
    (db.creditTimeline gameId range service)

/-- The scoring round and the frozen service of a flag, if it has both. -/
def stableFlag (flag : AdFlag) : Option StableFlag := do
  let round ← (db.scoringRounds gameId range).find? (·.id = flag.roundId)
  let stable ← (db.stableServices gameId range).find? (·.id = flag.teamServiceId)
  return {
    id := flag.id
    roundId := flag.roundId
    teamServiceId := flag.teamServiceId
    victimId := stable.participationId
    challengeId := stable.challengeId
    epoch := round.epoch
    checkerQualified := flag.checkerQualified }

def stableFlags : List StableFlag :=
  db.flags.filterMap (db.stableFlag gameId range)

/-- A capture counts when its attacker is in the field of the flag, is not the victim,
and submitted in time. -/
def captured (flag : StableFlag) (attack : AdAttack) : Bool :=
  (db.stableServices gameId range).any (fun attacker =>
      attacker.challengeId = flag.challengeId &&
        attacker.participationId = attack.attackerParticipationId) &&
    attack.attackerParticipationId ≠ flag.victimId &&
    range.within range.attackCutoff attack.submittedAt

def stableCapture (attack : AdAttack) : Option StableCapture := do
  let flag ← (db.stableFlags gameId range).find? (·.id = attack.flagId)
  if db.captured gameId range flag attack then
    some ⟨attack.flagId, attack.attackerParticipationId⟩
  else none

def stableCaptures : List StableCapture :=
  (db.attacks.filterMap (db.stableCapture gameId range)).dedup

/-- What became of a flag.  A flag whose round has no check was not exactly checked. -/
def flagOutcome (flag : StableFlag) : FlagOutcome :=
  let teamCount := db.teamCount gameId range flag.challengeId
  let captures := rows (·.flagId) flag.id (db.stableCaptures gameId range)
  { flag
    opponents := teamCount - 1
    captureCount := min captures.length (teamCount - 1)
    flagDelivered := ((db.flagDelivery flag.roundId flag.teamServiceId).map (·.delivered)).getD true
    exactChecked := flag.checkerQualified &&
      (db.checkHistory range flag.roundId flag.teamServiceId).any fun history =>
        history.status = .ok && history.flagVerified }

def flagOutcomes : List FlagOutcome :=
  ((db.stableFlags gameId range).filter fun flag =>
    1 < db.teamCount gameId range flag.challengeId).map (db.flagOutcome gameId range)

def qualifiedFlags : List FlagOutcome :=
  (db.flagOutcomes gameId range).filter fun outcome =>
    outcome.flagDelivered && (outcome.exactChecked || 0 < outcome.captureCount)

/-- The captures of qualified flags, each with its flag. -/
def captureEvidence : List (StableCapture × FlagOutcome) :=
  join (·.flagId) (·.id) (db.stableCaptures gameId range) (db.qualifiedFlags gameId range)

/-- The qualified flags which count towards the defense of their owners. -/
def defenseEvidence : List FlagOutcome :=
  (db.qualifiedFlags gameId range).filter (·.exactChecked)

def epochIds : List ℤ := ((db.scoringRounds gameId range).map (·.epoch)).dedup

/-- The totals of the whole range which every row repeats. -/
structure EvidenceStatus where
  eligibleFlagsTotal : ℤ
  capturedFlagsTotal : ℤ
  acceptedCapturesTotal : ℤ
  defenseOpportunitiesTotal : ℤ
  protectedOpportunitiesTotal : ℤ
deriving DecidableEq, Repr

def evidenceStatus : EvidenceStatus :=
  let qualified := db.qualifiedFlags gameId range
  let defense := db.defenseEvidence gameId range
  { eligibleFlagsTotal := qualified.length
    capturedFlagsTotal := (qualified.filter (0 < ·.captureCount)).length
    acceptedCapturesTotal := (qualified.map (·.captureCount)).sum
    defenseOpportunitiesTotal := (defense.map (·.opponents)).sum
    protectedOpportunitiesTotal := (defense.map (·.protectedCount)).sum }

/-- The grid cell of a capture. -/
def captureKey (capture : StableCapture × FlagOutcome) : ℤ × ℤ × ℤ :=
  (capture.1.attackerParticipationId, capture.2.fieldKey)

def evidenceRow (service : StableService) (epoch : ℤ) : EvidenceAggregateRow :=
  let field := (service.challengeId, epoch)
  let cell := (service.participationId, field)
  let qualified := db.qualifiedFlags gameId range
  let captures := rows captureKey cell (db.captureEvidence gameId range)
  let defense := rows (·.victimKey) cell (db.defenseEvidence gameId range)
  let sla := db.slaEvidence gameId range service epoch
  let status := db.evidenceStatus gameId range
  let closing := db.closingSla gameId range service
  { participationId := service.participationId
    challengeId := service.challengeId
    epoch := epoch
    serviceWeight := service.serviceWeight
    opportunityCount := max
      ((rows (·.fieldKey) field qualified).length - (rows (·.victimKey) cell qualified).length) 0
    captureCount := captures.length
    raritySum := (captures.map (·.2.rarityFraction)).sum
    defenseOpportunityCount := (defense.map (·.opponents)).sum
    protectedOpportunityCount := (defense.map (·.protectedCount)).sum
    slaCreditSum := (sla.filterMap (·.effectiveCredit)).sum
    slaTickCount := sla.length
    eligibleFlagsTotal := status.eligibleFlagsTotal
    capturedFlagsTotal := status.capturedFlagsTotal
    acceptedCapturesTotal := status.acceptedCapturesTotal
    defenseOpportunitiesTotal := status.defenseOpportunitiesTotal
    protectedOpportunitiesTotal := status.protectedOpportunitiesTotal
    closingSlaStatus := closing.closingSlaStatus
    closingSlaCredit := closing.closingSlaCredit }

def evidenceRows : List EvidenceAggregateRow :=
  (db.stableServices gameId range).flatMap fun service =>
    (db.epochIds gameId range).map (db.evidenceRow gameId range service)

/-- One row for every frozen service and epoch of the range, by participation, epoch
and challenge. -/
def loadEpochEvidence : List EvidenceAggregateRow :=
  (db.evidenceRows gameId range).insertionSort fun left right =>
    left.participationId < right.participationId ∨
      (left.participationId = right.participationId ∧
        (left.epoch < right.epoch ∨
          (left.epoch = right.epoch ∧ left.challengeId ≤ right.challengeId)))

end AdTables

end AttackDefense

end Rsctf
