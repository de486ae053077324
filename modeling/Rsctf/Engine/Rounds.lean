import Mathlib.Algebra.Order.Ring.Rat
import Rsctf.AttackDefense.Evidence
import Rsctf.Data.Fallible
import Rsctf.Data.Guarded
import Rsctf.Data.Keyed

/-!
# Preparing rounds

A call of the round scheduler finalizes the current round and creates its successor
in one transaction.  The call names the round it saw as the latest one; the window of
the successor continues the latest round which the transaction finds.  Instants are
counted in microseconds.
-/

open Fallible Guarded Keyed

namespace Rsctf

namespace Engine

open AttackDefense (AdCheckStatus)

def milliseconds (n : ℤ) : ℤ := n * 1000

def seconds (n : ℤ) : ℤ := n * 1000000

def roundSchedulerPollSeconds : ℤ := 5
def flagDeliveryPublicationReserveSeconds : ℤ := 7
def checkerMinimumRunwaySeconds : ℤ := 4
def checkerSchedulerOuterMarginSeconds : ℤ := 1
def defaultCheckerGraceSeconds : ℤ := 3
def apiWaveSettlementLagSeconds : ℤ := 20

inductive AppError
  | notFound (message : String)
  | badRequest (message : String)
  | conflict (message : String)
deriving DecidableEq, Repr

inductive RoundTargetDisposition
  | advance
  | repair
  | stale
deriving DecidableEq, Repr

/-- The number of the round which a caller wants to prepare. -/
def targetNumber (expectedLatest : Option (ℤ × ℤ)) : ℤ :=
  (expectedLatest.map fun round => round.2 + 1).getD 1

def classifyRoundTarget (latest expectedLatest : Option (ℤ × ℤ)) : RoundTargetDisposition :=
  match latest, expectedLatest with
  | none, none => .advance
  | none, some _ => .stale
  | some current, expected =>
    if expected.any (·.1 = current.1) then .advance
    else if current.2 = targetNumber expected then .repair
    else .stale

section Window

/-- The window of the next round on the configured cadence. -/
def authoritativeRoundWindow (gameStart gameEnd warmupSeconds tickSeconds : ℤ)
    (latestEnd : Option ℤ) : Option (ℤ × ℤ) :=
  if warmupSeconds < 0 ∨ tickSeconds ≤ 0 ∨ gameEnd ≤ gameStart then none
  else
    let start := latestEnd.getD (gameStart + seconds warmupSeconds)
    if gameEnd ≤ start then none else some (start, min (start + seconds tickSeconds) gameEnd)

/-- A tail of the event which is too short for a round of its own joins the last one. -/
def absorbShortTerminalTail (roundEnd eventEnd minimumDurationSeconds : ℤ) : ℤ :=
  let tail := eventEnd - roundEnd
  if 0 < tail ∧ tail < seconds (max minimumDurationSeconds 1) then eventEnd else roundEnd

/-- The window in which a round is played when it is prepared at `now`.  A delay beyond
one poll interval starts the round afresh. -/
def playableRoundWindow (nominal : ℤ × ℤ) (eventEnd tickSeconds now minimumDurationSeconds : ℤ) :
    Option (ℤ × ℤ × Bool) :=
  let ordinaryPollDelay := seconds (roundSchedulerPollSeconds + 1)
  let reanchored := ordinaryPollDelay < now - nominal.1
  let start := if reanchored then now else nominal.1
  let finish := if reanchored then min (start + seconds tickSeconds) eventEnd
    else min nominal.2 eventEnd
  let finish := absorbShortTerminalTail finish eventEnd minimumDurationSeconds
  if start < finish ∧ seconds (max minimumDurationSeconds 1) ≤ finish - start then
    some (start, finish, reanchored)
  else none

def minimumRoundDurationSeconds (graceSeconds : ℤ) (hasApiHill : Bool) : ℤ :=
  let checkerMinimum := graceSeconds + (flagDeliveryPublicationReserveSeconds
    + checkerMinimumRunwaySeconds + checkerSchedulerOuterMarginSeconds)
  if hasApiHill then max checkerMinimum (apiWaveSettlementLagSeconds + 1) else checkerMinimum

/-- The defaults of the platform for unset rhythms. -/
structure AdScoringConfig where
  tickSeconds : ℤ
  warmupSeconds : ℤ
deriving DecidableEq, Repr

structure GameSettings where
  adTickSeconds : Option ℤ
  adWarmupSeconds : Option ℤ
  adMinGracePeriodSeconds : Option ℤ
  startTimeUtc : ℤ
  endTimeUtc : ℤ
  adScoringPaused : Bool
deriving DecidableEq, Repr

def GameSettings.tickSeconds (settings : GameSettings) (defaults : AdScoringConfig) : ℤ :=
  (settings.adTickSeconds.filter fun seconds => 30 ≤ seconds ∧ seconds ≤ 600).getD
    (clamp 30 600 defaults.tickSeconds)

def GameSettings.warmupSeconds (settings : GameSettings) (defaults : AdScoringConfig) : ℤ :=
  (settings.adWarmupSeconds.filter fun seconds => 0 ≤ seconds).getD (max defaults.warmupSeconds 0)

def GameSettings.minimumDurationSeconds (settings : GameSettings) (hasApiHill : Bool) : ℤ :=
  minimumRoundDurationSeconds
    (clamp 1 60 (settings.adMinGracePeriodSeconds.getD defaultCheckerGraceSeconds)) hasApiHill

/-- The window of the round which is prepared at `now` after a round with the given end. -/
def roundWindow (defaults : AdScoringConfig) (settings : GameSettings) (hasApiHill : Bool)
    (latestEnd : Option ℤ) (now : ℤ) : Except AppError (ℤ × ℤ) :=
  match authoritativeRoundWindow settings.startTimeUtc settings.endTimeUtc
      (settings.warmupSeconds defaults) (settings.tickSeconds defaults) latestEnd with
  | none => throw (.conflict "No scoring round remains before the event deadline")
  | some nominal =>
    match playableRoundWindow nominal settings.endTimeUtc (settings.tickSeconds defaults) now
        (settings.minimumDurationSeconds hasApiHill) with
    | none => throw (.conflict ("No scoring round remains with enough publication and checker "
        ++ "runway before the event deadline"))
    | some (scheduledStart, requestedEndsAt, _) =>
      if now < scheduledStart then throw (.conflict "The next round boundary is not due")
      else return (scheduledStart, requestedEndsAt)

end Window

inductive ChallengeType
  | attackDefense
  | kingOfTheHill
deriving DecidableEq, Repr

/-- An enabled challenge of the engine. -/
structure EngineChallenge where
  id : ℤ
  challengeType : ChallengeType
  selfHosted : Bool
  apiArena : Bool
deriving DecidableEq, Repr

structure RoundRow where
  id : ℤ
  number : ℤ
  startTimeUtc : ℤ
  endTimeUtc : ℤ
  finalized : Bool
  pipelineCompleted : Bool
deriving DecidableEq, Repr

/-- A service of an accepted team; a managed one receives its flag in its container. -/
structure ServiceRow where
  id : ℤ
  participationId : ℤ
  challengeId : ℤ
  managed : Bool
  containerId : Option String
deriving DecidableEq, Repr

structure FlagRow where
  roundId : ℤ
  teamServiceId : ℤ
  flag : String
deriving DecidableEq, Repr

def FlagRow.key (row : FlagRow) : ℤ × ℤ := (row.roundId, row.teamServiceId)

structure CheckResultRow where
  roundId : ℤ
  teamServiceId : ℤ
  status : AdCheckStatus
  message : String
  checkedAt : ℤ
  slaCredit : Option ℚ
  flagVerified : Bool
deriving DecidableEq, Repr

def CheckResultRow.key (row : CheckResultRow) : ℤ × ℤ := (row.roundId, row.teamServiceId)

/-- Identity of the round which a caller saw as the latest one. -/
structure RoundCursor where
  id : ℤ
  number : ℤ
deriving DecidableEq, Repr

structure AdvancedRoundFlag where
  teamServiceId : ℤ
  participationId : ℤ
  challengeId : ℤ
  managed : Bool
  containerId : Option String
  flag : String
deriving DecidableEq, Repr

structure AdvancedRound where
  id : ℤ
  number : ℤ
  startedAt : ℤ
  endsAt : ℤ
  created : Bool
  flags : List AdvancedRoundFlag
deriving DecidableEq, Repr

/-- The tables of one game.  The frozen scoring boundaries are of any type `σ`. -/
structure EngineGame (σ : Type) where
  settings : GameSettings
  challenges : List EngineChallenge
  services : List ServiceRow
  rounds : List RoundRow
  nextRoundId : ℤ
  flags : List FlagRow
  checkResults : List CheckResultRow
  scoring : σ

section Prepare

variable {σ : Type}

namespace EngineGame

def latestRound (game : EngineGame σ) : Option RoundRow := latest (·.number) game.rounds

def networkBound (game : EngineGame σ) : Bool :=
  game.challenges.any fun challenge =>
    challenge.challengeType = .attackDefense && challenge.selfHosted

def hasApiHill (game : EngineGame σ) : Bool :=
  game.challenges.any fun challenge =>
    challenge.challengeType = .kingOfTheHill && challenge.apiArena

end EngineGame

def networkScopeMatches (requiredNetworkBound : Option Bool) (networkBound : Bool) : Bool :=
  requiredNetworkBound.all (· = networkBound)

/-- The checks which come before any round is read. -/
def checkAdvancement (game : EngineGame σ) (requiredNetworkBound : Option Bool) (now : ℤ) :
    Except AppError Unit :=
  if game.settings.adScoringPaused ∨ now < game.settings.startTimeUtc ∨
      game.settings.endTimeUtc ≤ now then
    throw (.conflict "Game is not active for round advancement")
  else if game.challenges = [] then throw (.badRequest "Game has no enabled A&D challenges")
  else if networkScopeMatches requiredNetworkBound game.networkBound then return ()
  else throw (.conflict "Game network ownership changed before round preparation")

/-- A pending check of a round which is closed becomes an error without credit. -/
def closePendingCheck (roundId now : ℤ) (row : CheckResultRow) : CheckResultRow :=
  if row.roundId = roundId ∧ row.slaCredit = none then
    { row with
      status := .internalError
      message := "checker pass incomplete when the next round opened"
      checkedAt := now
      slaCredit := some 0
      flagVerified := false }
  else row

def finalizeRow (roundId : ℤ) (row : RoundRow) : RoundRow :=
  if row.id = roundId then { row with finalized := true } else row

/-- Finalize the round which the caller saw as the latest one. -/
def finalizeExpected (game : EngineGame σ) (expectedLatest : Option RoundCursor) (now : ℤ) :
    Except AppError (EngineGame σ) :=
  match expectedLatest with
  | none => return game
  | some expected =>
    match game.rounds.find? (·.id = expected.id) with
    | none => throw (.conflict "Expected round no longer exists")
    | some row =>
      if row.pipelineCompleted then
        return { game with
          checkResults := game.checkResults.map (closePendingCheck expected.id now)
          rounds := game.rounds.map (finalizeRow expected.id) }
      else throw (.conflict "The current round checker pipeline is still in flight")

/-- Insert the round with the target number, or find the one which is already there. -/
def insertRound (game : EngineGame σ) (number : ℤ) (window : ℤ × ℤ) :
    RoundRow × Bool × EngineGame σ :=
  let game' := { game with nextRoundId := game.nextRoundId + 1 }
  match game.rounds.find? (·.number = number) with
  | some row => (row, false, game')
  | none =>
    let row : RoundRow := ⟨game.nextRoundId, number, window.1, window.2, false, false⟩
    (row, true, { game' with rounds := game.rounds ++ [row] })

/-- A published flag consists of thirty-two characters in braces. -/
def wellFormedFlag (flag : String) : Bool :=
  let body := (flag.toList.drop 5).take 32
  flag.toList.length = 38 && flag.toList.take 5 = ['f', 'l', 'a', 'g', '\x7b'] &&
    flag.toList.drop 37 = ['\x7d'] &&
    body.all fun c => c.isAlphanum || c = '_' || c = '-'

/-- Plant a flag and a pending check for every service of a round. -/
def plantFlags (game : EngineGame σ) (roundId : ℤ) (generateFlag : ℤ → String) (now : ℤ) :
    EngineGame σ :=
  { game with
    flags := insertNew FlagRow.key game.flags (game.services.map fun service =>
      ⟨roundId, service.id, generateFlag service.id⟩)
    checkResults := insertNew CheckResultRow.key game.checkResults
      (game.services.map fun service =>
        ⟨roundId, service.id, .internalError,
          "checker not yet executed (pending k8s/docker runner)", now, none, false⟩) }

def advancedFlags (game : EngineGame σ) (roundId : ℤ) : List AdvancedRoundFlag :=
  game.services.filterMap fun service =>
    (game.flags.find? fun row =>
      row.roundId = roundId ∧ row.teamServiceId = service.id ∧ wellFormedFlag row.flag).map
      fun row => ⟨service.id, service.participationId, service.challengeId, service.managed,
        service.containerId, row.flag⟩

/-- What one call brings along: the network scope it relies on, the instant at which it
holds its locks, and fresh flags. -/
structure RoundCall where
  requiredNetworkBound : Option Bool
  now : ℤ
  generateFlag : ℤ → String

variable (defaults : AdScoringConfig) (freezeScoring : σ → ℤ → Except AppError σ)

/-- One transaction of round preparation. -/
def prepareRoundTransaction (game : EngineGame σ) (expectedLatest : Option RoundCursor)
    (call : RoundCall) : Except AppError (AdvancedRound × EngineGame σ) := do
  checkAdvancement game call.requiredNetworkBound call.now
  let latest := game.latestRound
  let expectedIdentity := expectedLatest.map fun round => (round.id, round.number)
  if classifyRoundTarget (latest.map fun round => (round.id, round.number)) expectedIdentity =
      .stale then
    throw (.conflict "Round advanced beyond the requested target. Refresh and retry.")
  else
    let game ← finalizeExpected game expectedLatest call.now
    let window ← roundWindow defaults game.settings game.hasApiHill
      (latest.map (·.endTimeUtc)) call.now
    let (round, created, game) := insertRound game (targetNumber expectedIdentity) window
    let scoring ← freezeScoring game.scoring (targetNumber expectedIdentity)
    let game := plantFlags { game with scoring } round.id call.generateFlag call.now
    return (⟨round.id, round.number, round.startTimeUtc, round.endTimeUtc, created,
      advancedFlags game round.id⟩, game)

/-- A call; an error rolls its transaction back. -/
def prepareRound (game : EngineGame σ) (expectedLatest : Option RoundCursor) (call : RoundCall) :
    Except AppError AdvancedRound × EngineGame σ :=
  match prepareRoundTransaction defaults freezeScoring game expectedLatest call with
  | .ok (round, game') => (.ok round, game')
  | .error error => (.error error, game)

/-- Calls with one cursor, one after the other. -/
def prepareRounds (game : EngineGame σ) (expectedLatest : Option RoundCursor) :
    List RoundCall → List (Except AppError AdvancedRound) × EngineGame σ
  | [] => ([], game)
  | call :: calls =>
    let (result, game') := prepareRound defaults freezeScoring game expectedLatest call
    let (results, final) := prepareRounds game' expectedLatest calls
    (result :: results, final)

end Prepare

end Engine

end Rsctf
