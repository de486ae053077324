import Rsctf.AttackDefense.BoardQuery
import Rsctf.Byoc.Endpoint
import Rsctf.Data.Table
import Rsctf.Jeopardy.Board
import Rsctf.Vpn.Peers

/-!
# The adjudication of a captured flag

A team hands in the flags which it has captured.  A flag is found by its text, the service it
was planted in must be in the field and belong to another team, and the round it was planted
in must be recent enough.  The row of the capture is written by one statement, which tests
everything again; when it writes nothing, a last query says why.
-/

namespace Rsctf

namespace FlagSubmission

open AttackDefense (ChallengeReviewStatus)
open Jeopardy (ChallengeType)
open Vpn (ParticipationStatus)

def adFlagLifetimeTicksDefault : ℤ := 5

def adMaxBatch : ℕ := 100

inductive AppError
  | badRequest (message : String)
  | unauthorized
  | forbidden
  | notFound (message : String)
  | unavailable (message : String)
  | tooManyRequests
deriving DecidableEq, Repr

inductive AdSubmitStatus
  | accepted
  | duplicate
  | wrong
  | expired
  | selfAttack
  | notStarted
  | ended
  | paused
  | rejected
deriving DecidableEq, Repr

section Rows

structure Game where
  startTimeUtc : ℤ
  endTimeUtc : ℤ
  adScoringPaused : Bool
  adFlagLifetimeTicks : Option ℤ
  freezeTimeUtc : Option ℤ
deriving DecidableEq, Repr

/-- The number of rounds a flag can be handed in. -/
def Game.lifetimeTicks (game : Game) : ℤ :=
  let ticks := game.adFlagLifetimeTicks.getD adFlagLifetimeTicksDefault
  if ticks < 1 then 1 else if 50 < ticks then 50 else ticks

structure AdRound where
  id : ℤ
  gameId : ℤ
  number : ℤ
  finalized : Bool
deriving DecidableEq, Repr

structure AdFlag where
  id : ℤ
  roundId : ℤ
  teamServiceId : ℤ
  flag : String
deriving DecidableEq, Repr

structure AdTeamService where
  gameId : ℤ
  participationId : ℤ
  challengeId : ℤ
deriving DecidableEq, Repr

structure Participation where
  gameId : ℤ
  teamId : ℤ
  status : ParticipationStatus
deriving DecidableEq, Repr

structure GameChallenge where
  gameId : ℤ
  isEnabled : Bool
  reviewStatus : ChallengeReviewStatus
  challengeType : ChallengeType
  title : String
deriving DecidableEq

structure AdAttack where
  id : ℤ
  roundId : ℤ
  attackerParticipationId : ℤ
  victimTeamServiceId : ℤ
  flagId : ℤ
  submittedAt : ℤ
deriving DecidableEq, Repr

/-- An attacker takes a flag once. -/
def AdAttack.key (attack : AdAttack) : ℤ × ℤ := (attack.attackerParticipationId, attack.flagId)

/-- What a submission reads, with the clock of the database; the names of the teams are all
it needs of them. -/
structure Arena where
  now : ℤ
  games : ℤ → Option Game
  rounds : Table AdRound.id
  flags : Table AdFlag.id
  services : ℤ → Option AdTeamService
  participations : ℤ → Option Participation
  challenges : ℤ → Option GameChallenge
  teams : ℤ → Option String

end Rows

section Lookup

variable (arena : Arena) (gameId : ℤ)

/-- The rounds of the game with a property, the latest one first. -/
def Arena.roundsDescending (p : AdRound → Bool) : List AdRound :=
  (arena.rounds.rows.filter fun round => decide (round.gameId = gameId) && p round).insertionSort
    fun left right => right.number ≤ left.number

def Arena.latestRoundNumber : Option ℤ :=
  (arena.roundsDescending gameId fun _ => true).head?.map (·.number)

def Arena.latestUnfinalized : Option AdRound :=
  (arena.roundsDescending gameId fun round => !round.finalized).head?

structure ActiveVictimService where
  id : ℤ
  participationId : ℤ
  challengeId : ℤ
deriving DecidableEq, Repr

structure ActiveVictimFlag where
  flagId : ℤ
  plantedRoundNumber : Option ℤ
  serviceId : Option ℤ
  participationId : Option ℤ
  challengeId : Option ℤ
deriving DecidableEq, Repr

def ActiveVictimFlag.activeService (flag : ActiveVictimFlag) : Option ActiveVictimService := do
  return ⟨← flag.serviceId, ← flag.participationId, ← flag.challengeId⟩

/-- The service, if it is in the field: its team is admitted and its challenge is active. -/
def Arena.fieldService (serviceId : ℤ) : Option AdTeamService := do
  let service ← arena.services serviceId
  let victim ← arena.participations service.participationId
  let challenge ← arena.challenges service.challengeId
  if service.gameId = gameId ∧ victim.gameId = service.gameId ∧
      challenge.gameId = service.gameId ∧ victim.status = .accepted ∧
      challenge.isEnabled = true ∧ challenge.reviewStatus = .active ∧
      challenge.challengeType = .attackDefense then
    some service
  else none

/-- The latest flag with a text, in any game. -/
def Arena.plantedFlag (text : String) : Option AdFlag :=
  ((arena.flags.rows.filter fun flag => decide (flag.flag = text)).insertionSort
    fun left right => right.id ≤ left.id).head?

/-- `ACTIVE_VICTIM_FLAG_SQL` -/
def Arena.activeVictimFlag (text : String) : Option ActiveVictimFlag :=
  (arena.plantedFlag text).map fun planted =>
    let round := (arena.rounds.get? planted.roundId).filter fun round => round.gameId = gameId
    let active := arena.fieldService gameId planted.teamServiceId
    ⟨planted.id, round.map (·.number), active.map fun _ => planted.teamServiceId,
      active.map (·.participationId), active.map (·.challengeId)⟩

end Lookup

section Capture

/-- A row which may be written, with what is announced about it. -/
structure Candidate where
  roundId : ℤ
  attackerParticipationId : ℤ
  victimTeamServiceId : ℤ
  flagId : ℤ
  submittedAt : ℤ
  broadcastOk : Bool
  attackerTeam : String
  victimTeam : Option String
  challengeTitle : String
  challengeId : ℤ
  victimParticipationId : ℤ
deriving DecidableEq, Repr

structure AcceptedAttack where
  broadcastOk : Bool
  attackerTeam : String
  victimTeam : Option String
  challengeTitle : String
  firstBlood : Bool
deriving DecidableEq, Repr

inductive Blood
  | firstBlood
  | normal
deriving DecidableEq, Repr

structure PendingAttackBroadcast where
  gameId : ℤ
  attackerTeam : String
  victimTeam : Option String
  challengeTitle : String
  blood : Blood
deriving DecidableEq, Repr

/-- A row which a batch has written, with the event which will announce it. -/
structure Capture where
  attack : AdAttack
  broadcast : Option PendingAttackBroadcast
deriving DecidableEq, Repr

def AcceptedAttack.broadcast (inserted : AcceptedAttack) (gameId : ℤ) :
    Option PendingAttackBroadcast :=
  if inserted.broadcastOk = true then
    some ⟨gameId, inserted.attackerTeam, inserted.victimTeam, inserted.challengeTitle,
      if inserted.firstBlood = true then .firstBlood else .normal⟩
  else none

/-- The parameters of the insertion. -/
structure AttackKey where
  attackerId : ℤ
  serviceId : ℤ
  flagId : ℤ
  gameId : ℤ
deriving DecidableEq, Repr

/-- The row of `ACCEPTED_ATTACK_SQL` for a round and an instant. -/
def Arena.candidate (arena : Arena) (key : AttackKey) (latest : AdRound) (checkedAt : ℤ) :
    Option Candidate := do
  let attacker ← arena.participations key.attackerId
  let service ← arena.fieldService key.gameId key.serviceId
  let victim ← arena.participations service.participationId
  let challenge ← arena.challenges service.challengeId
  let game ← arena.games service.gameId
  let planted ← arena.flags.get? key.flagId
  let plantedRound ← arena.rounds.get? planted.roundId
  if attacker.gameId = key.gameId ∧ attacker.status = .accepted ∧
      planted.teamServiceId = key.serviceId ∧ plantedRound.gameId = service.gameId ∧
      game.startTimeUtc ≤ checkedAt ∧ checkedAt < game.endTimeUtc ∧
      game.adScoringPaused = false ∧
      latest.number - game.lifetimeTicks + 1 ≤ plantedRound.number then
    some {
      roundId := latest.id
      attackerParticipationId := key.attackerId
      victimTeamServiceId := key.serviceId
      flagId := key.flagId
      submittedAt := checkedAt
      broadcastOk := !(game.freezeTimeUtc.any fun freeze =>
        freeze ≤ checkedAt ∧ checkedAt < game.endTimeUtc)
      attackerTeam := (arena.teams attacker.teamId).getD ""
      victimTeam := arena.teams victim.teamId
      challengeTitle := challenge.title
      challengeId := service.challengeId
      victimParticipationId := service.participationId }
  else none

def Candidate.attack (candidate : Candidate) (id : ℤ) : AdAttack :=
  ⟨id, candidate.roundId, candidate.attackerParticipationId, candidate.victimTeamServiceId,
    candidate.flagId, candidate.submittedAt⟩

/-- Nobody has captured a flag of this team for this challenge before. -/
def Arena.firstBlood (arena : Arena) (attacks : List AdAttack) (gameId : ℤ)
    (candidate : Candidate) : Bool :=
  attacks.all fun prior => (arena.services prior.victimTeamServiceId).all fun service =>
    !(decide (service.gameId = gameId) && decide (service.challengeId = candidate.challengeId) &&
      decide (service.participationId = candidate.victimParticipationId))

def Candidate.accepted (candidate : Candidate) (arena : Arena) (attacks : List AdAttack)
    (gameId : ℤ) : AcceptedAttack :=
  ⟨candidate.broadcastOk, candidate.attackerTeam, candidate.victimTeam, candidate.challengeTitle,
    candidate.broadcastOk && arena.firstBlood attacks gameId candidate⟩

/-- The query for the reason why nothing was written. -/
def Arena.rejection (arena : Arena) (attacks : List AdAttack) (key : AttackKey) :
    AdSubmitStatus :=
  match arena.games key.gameId with
  | none => .rejected
  | some game =>
    if arena.now < game.startTimeUtc then .notStarted
    else if game.endTimeUtc ≤ arena.now then .ended
    else if game.adScoringPaused = true then .paused
    else if ¬((arena.participations key.attackerId).any fun attacker =>
          attacker.gameId = key.gameId ∧ attacker.status = .accepted) ∨
        arena.fieldService key.gameId key.serviceId = none ∨
        ¬((arena.flags.get? key.flagId).any fun planted =>
          planted.teamServiceId = key.serviceId) then .rejected
    else
      match arena.latestUnfinalized key.gameId with
      | none => .notStarted
      | some latest =>
        if (arena.flags.get? key.flagId).any fun planted =>
            (arena.rounds.get? planted.roundId).any fun plantedRound =>
              plantedRound.number < latest.number - game.lifetimeTicks + 1 then .expired
        else if attacks.any fun attack => attack.key = (key.attackerId, key.flagId) then .duplicate
        else .rejected

end Capture

section Replies

/-- The status of a flag and the round it was planted in. -/
abbrev FlagDecision := AdSubmitStatus × Option ℤ

structure AdSubmitResultModel where
  flag : String
  status : AdSubmitStatus
  flagPlantedAtRound : Option ℤ
  message : Option String
deriving DecidableEq, Repr

structure AdBatchSubmitResultModel where
  acceptedCount : ℕ
  results : List AdSubmitResultModel
deriving DecidableEq, Repr

def isPlausibleFlag (value : String) : Bool := Byoc.validateAd value

def boundedResultLabel (index : ℕ) (value : String) : String :=
  if isPlausibleFlag value = true then value else "#" ++ toString (index + 1)

def adSubmitCostUnits (distinctPlausible admittedBytes : ℕ) : ℕ :=
  max (distinctPlausible + (admittedBytes + (Byoc.adFlagBytes - 1)) / Byoc.adFlagBytes) 1

/-- A flag which was accepted before in the same batch is a duplicate. -/
def repeatedBatchResult (decision : FlagDecision) : FlagDecision :=
  if decision.1 = .accepted then (.duplicate, decision.2) else decision

def requireActiveVictim (victimService : Option ActiveVictimService) (planted : Option ℤ) :
    Except FlagDecision ActiveVictimService :=
  match victimService with
  | some service => .ok service
  | none => .error (.wrong, planted)

/-- The reply to a batch of which no flag was looked at. -/
def closedResults (flags : List String) (status : AdSubmitStatus) (message : String) :
    AdBatchSubmitResultModel where
  acceptedCount := 0
  results := flags.zipIdx.map fun entry =>
    ⟨boundedResultLabel entry.2 entry.1, status, none, some message⟩

def malformed (index : ℕ) (flag : String) : AdSubmitResultModel :=
  ⟨boundedResultLabel index flag, .rejected, none, some "flag does not match the A&D grammar"⟩

end Replies

end FlagSubmission

end Rsctf
