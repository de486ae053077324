import Mathlib.Logic.Function.Basic
import Rsctf.AttackDefense.BoardQuery
import Rsctf.AttackDefense.Normalization

/-!
# Building the scoreboard

The board continues the latest sealed epoch with the raw evidence after it.  A cutoff
limits what both of them may show: the freeze for the public while the contest runs,
and the end of the contest for everybody.
-/

open Keyed Guarded

namespace Rsctf

namespace AttackDefense

open Jeopardy (ChallengeCategory ChallengeType publicScoreboardFrozen)
open Scoring

def tickSecondsDefault : ℤ := 60

def AdScoreboardGameRow.clampedEpochTicks (game : AdScoreboardGameRow) : ℤ :=
  max 1 (min game.epochTicks 64)

def AdScoreboardGameRow.lifetimeTicks (game : AdScoreboardGameRow) : ℤ :=
  max 1 (min (game.flagLifetimeTicks.getD flagLifetimeTicksDefault) 50)

section Rollups

variable (sqrt : ℚ → ℚ) (game : AdScoreboardGameRow) (setup : AdSetup) (history : AdHistory)

/-- Seal an epoch whose evidence can no longer change. -/
def sealEpoch (officialStartRound : ℤ) (ended : Bool) (rollups : ℤ → RollupStore)
    (epoch : EpochMetaRow) : Except AppError RollupStore :=
  let cutoff := if ended then some game.endTimeUtc else none
  let range : EvidenceRange :=
    { officialStartRound
      startRound := epoch.startRound
      endRound := some epoch.endRound
      epochTicks := game.clampedEpochTicks
      roundCutoff := cutoff
      checkerCutoff := cutoff
      attackCutoff := cutoff
      eventEndSettlement := ended }
  let finalizedRound :=
    if ended then max epoch.currentRound epoch.endRound
    else epoch.endRound + game.lifetimeTicks
  materializeEpoch sqrt game.clampedEpochTicks (rollups game.id) finalizedRound epoch
    ((setup.tables history rollups).loadEpochEvidence game.id range)

/-- Seal the epochs of a list up to the first one which can still change. -/
def sealEpochs (officialStartRound : ℤ) (ended : Bool) :
    List EpochMetaRow → (ℤ → RollupStore) → Except AppError (ℤ → RollupStore)
  | [], rollups => .ok rollups
  | epoch :: epochs, rollups =>
    let full := epoch.roundCount = game.clampedEpochTicks
    if epoch.allChecksComplete && epoch.allFinalized &&
        (ended || (full && epoch.endRound + game.lifetimeTicks ≤ epoch.currentRound)) then do
      let store ← sealEpoch sqrt game setup history officialStartRound ended rollups epoch
      sealEpochs officialStartRound ended epochs (Function.update rollups game.id store)
    else .ok rollups

/-- Seal every epoch which became immutable. -/
def ensureEpochRollups (rollups : ℤ → RollupStore) (now : ℤ) :
    Except AppError (ℤ → RollupStore) :=
  match game.scoringStartRound with
  | none => .ok rollups
  | some officialStartRound =>
    let previousEpoch := (((rollups game.id).headers.map (·.epoch)).max?).getD 0
    let ended : Bool := game.endTimeUtc ≤ now
    let cutoff := if ended then some game.endTimeUtc else none
    let range : EvidenceRange :=
      { officialStartRound
        startRound := officialStartRound + previousEpoch * game.clampedEpochTicks
        endRound := none
        epochTicks := game.clampedEpochTicks
        roundCutoff := cutoff
        checkerCutoff := cutoff
        attackCutoff := none
        eventEndSettlement := ended }
    sealEpochs sqrt game setup history officialStartRound ended
      (loadEpochMeta setup history game.id range) rollups

end Rollups

/-- What the board shows of a challenge. -/
structure AdChallengeColumn extends AdScoreboardChallenge where
  category : ChallengeCategory
deriving DecidableEq

structure AdScoreboard where
  epochTicks : ℤ
  startRound : Option ℤ
  started : Bool
  fullySettled : Bool
  currentEpoch : ℤ
  latestRound : ℤ
  currentRoundEndsAt : Option ℤ
  tickSeconds : ℤ
  isFrozenView : Bool
  freeze : Option ℤ
  challenges : List AdChallengeColumn
  detailEpochLimit : ℕ
  maxFieldBestMultiplier : ℚ
  evidence : AdEvidenceStatus
  teams : List AdTeamScore
  generatedAt : ℤ
deriving DecidableEq

/-- The instant from which on a viewer sees no evidence. -/
def scoreboardEvidenceCutoff (freeze : Option ℤ) (finish now : ℤ) (isMonitor : Bool) :
    Option ℤ :=
  let freezeCutoff := if publicScoreboardFrozen freeze finish now isMonitor then freeze else none
  if finish ≤ now then some ((freezeCutoff.map fun value => min value finish).getD finish)
  else freezeCutoff

/-- The counts of a range, which every one of its rows repeats. -/
def rawStatus (rows : List EvidenceAggregateRow) : AdEvidenceStatus :=
  (rows.head?.map (·.status)).getD 0

def AdEvidenceStatus.counted (status : AdEvidenceStatus) : AdEvidenceStatus where
  eligibleFlags := count status.eligibleFlags
  capturedFlags := count status.capturedFlags
  acceptedCaptures := count status.acceptedCaptures
  defenseOpportunities := count status.defenseOpportunities
  protectedOpportunities := count status.protectedOpportunities

/-- The length of a round in whole seconds, rounded to the nearest one. -/
def BoardRound.tickSeconds (round : BoardRound) : ℤ :=
  let micros := round.endTimeUtc - round.startTimeUtc
  max ((micros + 500000) / 1000000) 0

def categoryValue : ChallengeCategory → ℕ
  | .misc => 0
  | .crypto => 1
  | .pwn => 2
  | .web => 3
  | .reverse => 4
  | .blockchain => 5
  | .forensics => 6
  | .hardware => 7
  | .mobile => 8
  | .ppc => 9
  | .ai => 10
  | .pentest => 11
  | .osint => 12

/-- The columns of the board, by category and challenge, before normalization. -/
def AdSetup.challengeRows (setup : AdSetup) (gameId : ℤ) : List AdChallengeColumn :=
  ((setup.gameChallenges.filter fun challenge =>
      challenge.gameId = gameId && challenge.isEnabled &&
        challenge.reviewStatus = .active && challenge.challengeType = .attackDefense).insertionSort
    fun left right =>
      categoryValue left.category < categoryValue right.category ∨
        (left.category = right.category ∧ left.id ≤ right.id)).map fun challenge =>
    { challengeId := challenge.id
      title := challenge.title
      category := challenge.category
      serviceWeight := min maxServiceWeight (max minServiceWeight challenge.adScoringWeight)
      settledFieldBest := 0
      projectedFieldBest := 0
      settledMultiplier := 1
      projectedMultiplier := 1 }

/-- The order of the ranked rows: every score from the highest one on. -/
def ranksBefore (left right : AdTeamScore) : Bool :=
  let scores (row : AdTeamScore) :=
    toLex (row.settledTotal, toLex (row.projectedTotal,
      toLex (row.offenseRate, toLex (row.defenseRate, row.slaRate))))
  scores right < scores left ∨
    (scores left = scores right ∧ left.participationId ≤ right.participationId)

def sortAndRankTeamRows (rows : List AdTeamScore) : List AdTeamScore :=
  (rows.insertionSort fun left right => ranksBefore left right).mapIdx fun index row =>
    { row with rank := index + 1 }

/-- What the board reads once the official start round is declared. -/
structure BoardEvidence where
  services : List StableServiceRow
  snapshot : RollupSnapshot
  epochMetas : List EpochMetaRow
  aggregateRows : List EvidenceAggregateRow
  latestChecks : List LatestCheckStatusRow

section Board

variable (sqrt : ℚ → ℚ) (game : AdScoreboardGameRow) (setup : AdSetup) (history : AdHistory)
  (rollups : ℤ → RollupStore)

/-- The latest round within a cutoff. -/
def roundClock (cutoff : Option ℤ) (eventEndSettlement : Bool) : Option BoardRound :=
  latest (·.number) (history.roundsWithin game.id eventEndSettlement cutoff)

/-- The evidence of the epochs after a snapshot. -/
def rawRange (startRound : ℤ) (cutoff : Option ℤ) (eventEndSettlement : Bool)
    (snapshot : RollupSnapshot) : EvidenceRange :=
  let firstRawEpoch := (snapshot.header.map fun header => header.epoch + 1).getD 1
  { officialStartRound := startRound
    startRound := startRound + (firstRawEpoch - 1) * game.clampedEpochTicks
    endRound := none
    epochTicks := game.clampedEpochTicks
    roundCutoff := cutoff
    checkerCutoff := cutoff
    attackCutoff := cutoff
    eventEndSettlement := eventEndSettlement }

def rollupBlocked (rawRoundCount rawRoundLimit : ℤ) : AppError :=
  .internal ("A&D scoring rollup is blocked by incomplete checker evidence: " ++
    toString rawRoundCount ++ " unresolved rounds exceeds the " ++
    toString rawRoundLimit ++ "-round limit")

def loadBoardEvidence (startRound : ℤ) (cutoff : Option ℤ) (eventEndSettlement : Bool) :
    Except AppError BoardEvidence :=
  let clock := roundClock game history cutoff eventEndSettlement
  let cutoffRound := cutoff.bind fun _ => clock.map (·.number)
  let services := loadStableServices setup history game.id startRound cutoff eventEndSettlement
  let snapshot := loadRollupSnapshot (rollups game.id) cutoffRound
  let range := rawRange game startRound cutoff eventEndSettlement snapshot
  let rawRoundCount := (clock.map fun round => round.number - range.startRound + 1).getD 0
  let rawRoundLimit := game.clampedEpochTicks + game.lifetimeTicks
  if rawRoundLimit < rawRoundCount then .error (rollupBlocked rawRoundCount rawRoundLimit)
  else .ok
    { services
      snapshot
      epochMetas := loadEpochMeta setup history game.id range
      aggregateRows := (setup.tables history rollups).loadEpochEvidence game.id range
      latestChecks :=
        loadLatestCheckStatuses history game.id startRound services cutoff cutoff
          eventEndSettlement }

def BoardEvidence.none : BoardEvidence := ⟨[], .none, [], [], []⟩

/-- The board of what was read: the rows of the teams, normalized and ranked. -/
def assembleAdScoreboard (isMonitor : Bool) (now : ℤ) (clock : Option BoardRound)
    (read : BoardEvidence) : Except AppError AdScoreboard := do
  let acceptanceClosed : Bool := game.endTimeUtc ≤ now
  let scoringStartRound := game.scoringStartRound.map (max · 1)
  let latestRound := (clock.map (·.number)).getD 0
  let currentEpoch :=
    match scoringStartRound with
    | some start =>
      if start ≤ latestRound then (latestRound - start).tdiv game.clampedEpochTicks + 1 else 0
    | none => 0
  let finalRoundSealed := acceptanceClosed && clock.any (·.finalized)
  let fullySettled := finalRoundSealed && (scoringStartRound.isNone ||
    (0 < currentEpoch && read.snapshot.header.any (currentEpoch ≤ ·.epoch)))
  let raw := rawStatus read.aggregateRows
  let columns := setup.challengeRows game.id
  let rows ← teamRows sqrt
    ⟨game.clampedEpochTicks, game.lifetimeTicks, acceptanceClosed, latestRound⟩
    read.services read.snapshot read.epochMetas read.aggregateRows read.latestChecks
  let normalized := applyFieldBestNormalization rows (columns.map (·.toAdScoreboardChallenge))
  return {
    epochTicks := game.clampedEpochTicks
    startRound := scoringStartRound
    started := scoringStartRound.isSome
    fullySettled
    currentEpoch
    latestRound
    currentRoundEndsAt := clock.map (·.endTimeUtc)
    tickSeconds := (clock.map (·.tickSeconds)).getD (game.tickSeconds.getD tickSecondsDefault)
    isFrozenView := publicScoreboardFrozen game.freezeTimeUtc game.endTimeUtc now isMonitor
    freeze := game.freezeTimeUtc
    challenges := List.zipWith (fun column challenge =>
      { column with toAdScoreboardChallenge := challenge }) columns normalized.2
    detailEpochLimit := teamDetailEpochLimit
    maxFieldBestMultiplier := maxFieldBestMultiplier
    evidence := (read.snapshot.header.map fun header => header.cumulative.counted + raw).getD raw
    teams := sortAndRankTeamRows normalized.1
    generatedAt := now }

/-- The scoreboard of a game at a moment.  From the end on, the rollups are first
brought up to date. -/
def buildAdScoreboard (isMonitor : Bool) (now : ℤ) : Except AppError AdScoreboard := do
  let ended : Bool := game.endTimeUtc ≤ now
  let rollups ← if ended then ensureEpochRollups sqrt game setup history rollups now
    else pure rollups
  let cutoff := scoreboardEvidenceCutoff game.freezeTimeUtc game.endTimeUtc now isMonitor
  let read ← match game.scoringStartRound.map (max · 1) with
    | some startRound => loadBoardEvidence game setup history rollups startRound cutoff ended
    | none => pure BoardEvidence.none
  assembleAdScoreboard sqrt game setup isMonitor now (roundClock game history cutoff ended) read

end Board

end AttackDefense

end Rsctf
