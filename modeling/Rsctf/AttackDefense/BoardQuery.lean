import Mathlib.Data.Prod.Lex
import Rsctf.AttackDefense.EvidenceQuery
import Rsctf.Jeopardy.Board

/-!
# The queries of the scoreboard

Beside the evidence of the raw epochs, the scoreboard reads the settings of its game,
the frozen roster, the round clock, the state of the raw epochs and the last verdict of
every service.  What the contest records while it runs is kept apart from what is set
up before: a history holds the rounds, flags, deliveries, checks and attacks.

Instants are counted in microseconds.
-/

open Keyed

namespace Rsctf

namespace AttackDefense

open Jeopardy (ChallengeCategory ChallengeType)

structure BoardRound extends AdRound where
  endTimeUtc : ℤ
  finalized : Bool
deriving DecidableEq, Repr

/-- A delivery with the moment it was reported, which no scoring query reads. -/
structure FlagDelivery extends AdFlagDeliveryResult where
  completedAt : ℤ
deriving DecidableEq, Repr

/-- What a contest records while it runs. -/
structure AdHistory where
  rounds : List BoardRound
  flags : List AdFlag
  checkResults : List AdCheckResult
  flagDeliveryResults : List FlagDelivery
  attacks : List AdAttack
  roundNumber_nodup : (rounds.map fun round => (round.gameId, round.number)).Nodup
deriving DecidableEq

inductive ChallengeReviewStatus
  | active
  | pending
  | rejected
deriving DecidableEq, Repr

structure BoardChallenge extends GameChallenge where
  title : String
  category : ChallengeCategory
  challengeType : ChallengeType
  reviewStatus : ChallengeReviewStatus
  isEnabled : Bool
  adScoringWeight : ℚ

structure BoardParticipation extends Participation where
  divisionId : Option ℤ

structure BoardTeam where
  id : ℤ
  name : String

structure BoardDivision where
  id : ℤ
  gameId : ℤ
  name : String

/-- What is set up for a contest before it runs. -/
structure AdSetup where
  teamServices : List AdTeamService
  participations : List BoardParticipation
  teams : List BoardTeam
  divisions : List BoardDivision
  gameChallenges : List BoardChallenge

/-- The row of the game. -/
structure AdScoreboardGameRow where
  id : ℤ
  epochTicks : ℤ
  scoringStartRound : Option ℤ
  flagLifetimeTicks : Option ℤ
  tickSeconds : Option ℤ
  freezeTimeUtc : Option ℤ
  endTimeUtc : ℤ
deriving DecidableEq, Repr

/-- The tables of the evidence query. -/
def AdSetup.tables (setup : AdSetup) (history : AdHistory) (rollups : ℤ → RollupStore) :
    AdTables where
  rounds := history.rounds.map (·.toAdRound)
  flags := history.flags
  teamServices := setup.teamServices
  checkResults := history.checkResults
  flagDeliveryResults := history.flagDeliveryResults.map (·.toAdFlagDeliveryResult)
  attacks := history.attacks
  participations := setup.participations.map (·.toParticipation)
  teams := setup.teams.map (·.id)
  gameChallenges := setup.gameChallenges.map (·.toGameChallenge)
  rollups := rollups

/-- An instant is before an optional cutoff, strictly so at the event end. -/
def withinCutoff (eventEndSettlement : Bool) (cutoff : Option ℤ) (time : ℤ) : Bool :=
  cutoff.all fun cutoff => if eventEndSettlement then time < cutoff else time ≤ cutoff

/-- A completed check which a reader takes into account. -/
def completedCheck (eventEndSettlement : Bool) (checkerCutoff : Option ℤ)
    (result : AdCheckResult) : Bool :=
  result.slaCredit.isSome &&
    (eventEndSettlement || checkerCutoff.all (result.checkedAt ≤ ·))

/-- The rounds of a game within a cutoff. -/
def AdHistory.roundsWithin (history : AdHistory) (gameId : ℤ) (eventEndSettlement : Bool)
    (cutoff : Option ℤ) : List BoardRound :=
  history.rounds.filter fun round =>
    round.gameId = gameId && withinCutoff eventEndSettlement cutoff round.startTimeUtc

section Roster

variable (setup : AdSetup) (history : AdHistory) (gameId startRound : ℤ)

def AdSetup.stableServiceRow (flag : AdFlag) : Option StableServiceRow := do
  let service ← setup.teamServices.find? (·.id = flag.teamServiceId)
  let participation ← setup.participations.find? fun participation =>
    participation.id = service.participationId && participation.gameId = service.gameId
  let team ← setup.teams.find? (·.id = participation.teamId)
  let _challenge ← setup.gameChallenges.find? fun challenge =>
    challenge.id = service.challengeId && challenge.gameId = service.gameId
  let division := setup.divisions.find? fun division =>
    participation.divisionId = some division.id && division.gameId = participation.gameId
  return {
    teamServiceId := service.id
    participationId := service.participationId
    challengeId := service.challengeId
    teamId := team.id
    teamName := team.name
    division := division.map (·.name) }

/-- The frozen services, by participation and challenge: those which got a flag in the
start round. -/
def loadStableServices (cutoff : Option ℤ) (eventEndSettlement : Bool) :
    List StableServiceRow :=
  match (history.roundsWithin gameId eventEndSettlement cutoff).find?
      (·.number = startRound) with
  | none => []
  | some round =>
    ((rows (·.roundId) round.id history.flags).filterMap setup.stableServiceRow).insertionSort
      fun left right => left.participationId < right.participationId ∨
        (left.participationId = right.participationId ∧ left.challengeId ≤ right.challengeId)

end Roster

section LatestChecks

variable (history : AdHistory) (gameId startRound : ℤ)

/-- The identifiers of the first and the last official round within a cutoff. -/
def roundBounds (roundCutoff : Option ℤ) (eventEndSettlement : Bool) : Option (ℤ × ℤ) := do
  let started := history.roundsWithin gameId eventEndSettlement roundCutoff
  let first ← started.find? (·.number = startRound)
  let last ← latest (·.number) (started.filter fun round => startRound ≤ round.number)
  return (first.id, last.id)

/-- The last completed check of a service between two rounds. -/
def latestCheck (checkerCutoff : Option ℤ) (eventEndSettlement : Bool) (bounds : ℤ × ℤ)
    (teamServiceId : ℤ) : Option AdCheckResult :=
  latest (·.roundId) (history.checkResults.filter fun result =>
    result.teamServiceId = teamServiceId &&
      completedCheck eventEndSettlement checkerCutoff result &&
      (bounds.1 ≤ result.roundId && result.roundId ≤ bounds.2))

def shownStatus (checkerCutoff : Option ℤ) (eventEndSettlement : Bool)
    (result : AdCheckResult) : AdCheckStatus :=
  if eventEndSettlement && checkerCutoff.any (· ≤ result.checkedAt) then .internalError
  else result.status

/-- The last verdict of every frozen service that has one. -/
def loadLatestCheckStatuses (services : List StableServiceRow) (roundCutoff : Option ℤ)
    (checkerCutoff : Option ℤ) (eventEndSettlement : Bool) : List LatestCheckStatusRow :=
  match roundBounds history gameId startRound roundCutoff eventEndSettlement with
  | none => []
  | some bounds =>
    (services.filterMap fun service =>
      (latestCheck history checkerCutoff eventEndSettlement bounds service.teamServiceId).map
        fun result =>
          { participationId := service.participationId
            challengeId := service.challengeId
            status := shownStatus checkerCutoff eventEndSettlement result }).insertionSort
      fun left right => left.participationId < right.participationId ∨
        (left.participationId = right.participationId ∧ left.challengeId ≤ right.challengeId)

end LatestChecks

section EpochMeta

variable (setup : AdSetup) (history : AdHistory) (gameId : ℤ) (range : EvidenceRange)

/-- The services of the start round, whether or not it is within the cutoff. -/
def stableServiceIds : List ℤ :=
  match history.rounds.find? fun round =>
      round.gameId = gameId && round.number = range.officialStartRound with
  | none => []
  | some boundary => (rows (·.roundId) boundary.id history.flags).filterMap fun flag =>
      (setup.teamServices.find? (·.id = flag.teamServiceId)).map (·.id)

def epochRounds : List BoardRound :=
  (history.roundsWithin gameId range.eventEndSettlement range.roundCutoff).filter fun round =>
    range.startRound ≤ round.number && range.endRound.all (round.number ≤ ·)

/-- Every service of the start round has a completed check in a round. -/
def checksComplete (round : BoardRound) : Bool :=
  let stable := stableServiceIds setup history gameId range
  let completed := history.checkResults.filter fun result =>
    result.roundId = round.id && stable.any (· = result.teamServiceId) &&
      completedCheck range.eventEndSettlement range.checkerCutoff result
  completed.length = stable.length

def currentRound : ℤ :=
  (((history.roundsWithin gameId range.eventEndSettlement range.roundCutoff).map
    (·.number)).max?).getD 0

/-- The state of the rounds of one epoch. -/
def epochMetaRow (epoch : ℤ) : EpochMetaRow :=
  let rounds := rows (fun round => range.epochOf round.number) epoch
    (epochRounds history gameId range)
  { epoch := epoch
    startRound := ((rounds.map (·.number)).min?).getD 0
    roundCount := rounds.length
    allFinalized := rounds.all (·.finalized)
    allChecksComplete := rounds.all (checksComplete setup history gameId range)
    endRound := ((rounds.map (·.number)).max?).getD 0
    currentRound := currentRound history gameId range }

/-- One row for every epoch with a round in the range, in their order. -/
def loadEpochMeta : List EpochMetaRow :=
  (sortedKeys ((epochRounds history gameId range).map fun round =>
    range.epochOf round.number)).map (epochMetaRow setup history gameId range)

end EpochMeta

end AttackDefense

end Rsctf
