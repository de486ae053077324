import Rsctf.Data.LeaseTable
import Rsctf.Leaderboard.Materialisable

/-!
# The submission of observations

A signed observation is reserved under its digest, processed in one transaction and, if
it is refused, released again.  Retries of one observation meet at the row of its
digest: the transaction which still owns the lease writes the response there, and
everybody else reads it.  The steps of several callers interleave freely; a failure or
a crash is a step that does not come.
-/

open Fallible

namespace Rsctf

namespace Leaderboard

/-- The reply to an accepted observation. -/
structure KothObservationAcceptedModel where
  accepted : Bool
  cycleNumber : ℤ
  resetAttempt : ℤ
  roundNumber : ℤ
  submittedWaves : ℕ
  submittedTeams : ℕ
  recognizedTeams : ℕ
  acceptedAt : ℤ

inductive SigningCredentialKind
  | observer
  | targetReporter (cycleId resetAttempt : ℤ)

structure SigningCredential where
  kind : SigningCredentialKind
  secret : String

/-- The target that is observed now, with its scoring round; instants are in
microseconds. -/
structure ActiveObserverContext where
  identity : Identity
  cycleNumber : ℤ
  reportingRevision : ℤ
  roundNumber : ℤ
  scoringStartsAt : ℤ
  scoringEndsAt : ℤ
  roundStartsAt : ℤ
  roundEndsAt : ℤ

/-- What the opaque context of a request is a digest of. -/
structure OpaqueContext where
  gameId : ℤ
  challengeId : ℤ
  identity : Identity
  reportingRevision : ℤ
  objectiveSchemaHash : Option Bytes
  eligibleTokens : List String

structure VerifiedObservation where
  now : ℤ
  timestamp : ℤ
  signature : Bytes
  credential : SigningCredential
  input : KothArenaSnapshotInput

/-- The digests, the JSON decoder and the collation of the database. -/
structure Primitives where
  decode : Bytes → Option KothArenaSnapshotInput
  tokenHash : String → Bytes
  textLE : String → String → Bool
  opaqueContext : OpaqueContext → String
  objectiveSchemaHash : List String → Bytes
  snapshotHash : String → Bytes → List ResolvedWave → Digest
  requestDigest : SigningCredentialKind → KothArenaSnapshotInput → Bytes
  replayHash : Bytes → Bytes

/-- What the transaction reads of the rest of the game: the secret of the observer, the
active context, the secrets of the live reporters of its target, and the capabilities. -/
structure Environment where
  observerSecret : Option String
  activeContext : Option ActiveObserverContext
  reporterSecret : ℤ → ℤ → Option String
  capabilities : List EligibleApiCapability

abbrev Operation := LeaseTable.Row Bytes ℕ KothObservationAcceptedModel

/-- The tables of the observations of a challenge. -/
structure Tables where
  operations : List Operation
  snapshots : List Snapshot
  arenaScheme : Option (List String × Bytes)
  replays : List (Bytes × ℤ)

/-- The lease of a reservation: 20 seconds. -/
def observationLease : ℤ := 20 * 1000000

/-- The time a row is kept: 10 minutes. -/
def operationLifetime : ℤ := 10 * 60 * 1000000

/-- Reserve the row of a digest, unless somebody else has it. -/
abbrev reserveObservation (requestDigest : Bytes) (leaseToken : ℕ) (clock : ℤ)
    (operations : List Operation) : Option (List Operation) :=
  LeaseTable.reserve observationLease operationLifetime requestDigest leaseToken clock operations

/-- The response of a digest whose row has not expired. -/
abbrev completedObservation (requestDigest : Bytes) (clock : ℤ) (operations : List Operation) :
    Option KothObservationAcceptedModel :=
  LeaseTable.read requestDigest clock operations

/-- Release a reservation that was refused. -/
abbrev releaseObservation (requestDigest : Bytes) (leaseToken : ℕ) (operations : List Operation) :
    List Operation :=
  LeaseTable.release requestDigest leaseToken operations

def apiWaveSettlementLag : ℤ := 20 * 1000000

/-- The window in which waves of the round may end. -/
def ActiveObserverContext.waveWindow (context : ActiveObserverContext) : ℤ × ℤ :=
  let shiftedStart :=
    if context.roundNumber ≤ 1 then context.roundStartsAt
    else context.roundStartsAt - apiWaveSettlementLag
  let settledEnd := min (context.roundEndsAt - apiWaveSettlementLag) context.scoringEndsAt
  let windowEnd := if settledEnd = context.scoringEndsAt then settledEnd + 1000 else settledEnd
  (max context.scoringStartsAt shiftedStart, windowEnd)

def waveEndsInsideWindow (endedAt windowStart windowEnd : ℤ) : Bool :=
  decide (windowStart ≤ endedAt) && decide (endedAt < windowEnd)

/-- The context of a request whose credential is valid now. -/
def authorize (environment : Environment) (credential : SigningCredential) :
    Except AppError ActiveObserverContext :=
  match environment.observerSecret with
  | none => .error .unauthorized
  | some lockedSecret =>
      match environment.activeContext with
      | none => .error (.conflict "Leaderboard KotH context is not active")
      | some context =>
          match credential.kind with
          | .observer => if lockedSecret ≠ credential.secret then .error .unauthorized else .ok context
          | .targetReporter cycleId resetAttempt =>
              if environment.reporterSecret cycleId resetAttempt ≠ some credential.secret ∨
                  cycleId ≠ context.identity.cycleId ∨
                  resetAttempt ≠ context.identity.resetAttempt then .error .unauthorized
              else .ok context

/-- The objectives of a challenge are those of its first observation. -/
def freezeScheme (frozen : Option (List String × Bytes)) (scheme : List String × Bytes) :
    Except AppError (List String × Bytes) :=
  match frozen with
  | none => .ok scheme
  | some stored =>
      if stored.1 ≠ scheme.1 ∨ stored.2 ≠ scheme.2 then
        .error (.conflict "Leaderboard objective IDs and order are frozen for this challenge")
      else .ok stored

/-- Every wave ends inside the window and not in the future. -/
def checkWaveEnds (now : ℤ) (window : ℤ × ℤ) (waves : List NormalizedWave) :
    Except AppError Unit :=
  waves.forM fun wave =>
    match fromTimestampMillis wave.endedAtUnixMs with
    | none => .error (.badRequest "Leaderboard wave timestamp is out of range")
    | some endedAt =>
        if !waveEndsInsideWindow endedAt window.1 window.2 then
          .error (.conflict "Leaderboard waves must end inside the active settlement window")
        else if now < endedAt then
          .error (.conflict "Leaderboard waves cannot be finalized in the future")
        else .ok ()

/-- Record the signature of a request; at most 128 expired records are purged. -/
def recordReplay (clock : ℤ) (requestHash : Bytes) (replays : List (Bytes × ℤ)) :
    Except AppError (List (Bytes × ℤ)) :=
  let expired := (((replays.filter fun replay => replay.2 < clock).insertionSort
    fun a b => a.2 ≤ b.2).take 128).map Prod.fst
  let live := replays.filter fun replay => !expired.any fun hash => decide (hash = replay.1)
  if live.any fun replay => decide (replay.1 = requestHash) then
    .error (.conflict "Leaderboard reporting request was already accepted")
  else .ok (live ++ [(requestHash, clock + operationLifetime)])

section Process

variable (p : Primitives) (gameId challengeId : ℤ)

/-- The transaction that stores an observation.  It reads the clock when it writes the
snapshot and again when it writes the response; the written snapshot is returned with the
response. -/
def processObservation (environment : Environment) (tables : Tables) (clock now : ℤ)
    (verified : VerifiedObservation) (leaseToken : ℕ) :
    Except AppError (Tables × KothObservationAcceptedModel × Snapshot) := do
  let input := verified.input
  let objectiveSchemaHash := p.objectiveSchemaHash input.objectiveIds
  let context ← authorize environment verified.credential
  if input.context ≠ p.opaqueContext
      { gameId := gameId
        challengeId := challengeId
        identity := context.identity
        reportingRevision := context.reportingRevision
        objectiveSchemaHash := tables.arenaScheme.map Prod.snd
        eligibleTokens := environment.capabilities.map EligibleApiCapability.token } then
    .error (.conflict "Leaderboard KotH context changed; fetch context and retry")
  else
    let arenaScheme ← freezeScheme tables.arenaScheme (input.objectiveIds, objectiveSchemaHash)
    let normalized := flattenWaves input.waves input.objectiveIds.length
    checkWaveEnds verified.now context.waveWindow normalized
    let waves ← resolveCurrentCapabilities p.tokenHash normalized environment.capabilities
    validateResolvedCrowns waves
    let rebased ← rebaseStored p.textLE tables.snapshots gameId challengeId context.identity
      (environment.capabilities.map EligibleApiCapability.participationId) waves
    let replays ← recordReplay clock (p.replayHash verified.signature) tables.replays
    let snapshot : Snapshot :=
      { identity := context.identity
        gameId := gameId
        challengeId := challengeId
        contextHash := input.context
        snapshotHash := p.snapshotHash input.context objectiveSchemaHash waves
        objectiveSchemaHash := objectiveSchemaHash
        requestTimestamp := verified.timestamp
        acceptedAt := clock
        waves := waves }
    let snapshots ← storeSnapshot rebased snapshot clock context.roundEndsAt
    match fromTimestampMillis (clock / 1000) with
    | none => .error (.internal "accepted observation timestamp is out of range")
    | some acceptedAt =>
        let response : KothObservationAcceptedModel :=
          { accepted := true
            cycleNumber := context.cycleNumber
            resetAttempt := context.identity.resetAttempt
            roundNumber := context.roundNumber
            submittedWaves := input.waves.length
            submittedTeams := (input.waves.flatMap fun wave =>
              wave.teams.map TeamEvidenceInput.tokenHash).dedup.length
            recognizedTeams := (waves.flatMap fun wave =>
              wave.rows.map EvidenceRow.participationId).dedup.length
            acceptedAt := acceptedAt }
        match LeaseTable.complete operationLifetime
            (p.requestDigest verified.credential.kind input) leaseToken response now
            tables.operations with
        | none =>
            .error (.unavailable
              "Leaderboard observation ownership changed before commit; retry later")
        | some operations =>
            .ok (⟨operations, snapshots, some arenaScheme, replays⟩, response, snapshot)

variable {p gameId challengeId} {environment : Environment} {tables tables' : Tables}
  {clock now : ℤ} {verified : VerifiedObservation} {leaseToken : ℕ}
  {response : KothObservationAcceptedModel} {s : Snapshot}

theorem authorize_ok {credential : SigningCredential} {context : ActiveObserverContext}
    (h : authorize environment credential = .ok context) :
    environment.activeContext = some context := by
  unfold authorize at h
  split at h
  case h_1 => cases h
  case h_2 =>
    split at h
    case h_1 => cases h
    case h_2 found hfound =>
      split at h <;> split at h <;> cases h <;> exact hfound

/-- What a transaction that succeeds has done. -/
structure Processed (p : Primitives) (gameId challengeId : ℤ) (environment : Environment)
    (tables tables' : Tables) (clock now : ℤ) (verified : VerifiedObservation) (leaseToken : ℕ)
    (response : KothObservationAcceptedModel) (s : Snapshot) : Prop where
  active : ∃ context, environment.activeContext = some context ∧
    s.identity = context.identity ∧ ∃ rebased,
      rebaseStored p.textLE tables.snapshots gameId challengeId s.identity
        (environment.capabilities.map EligibleApiCapability.participationId) s.waves =
          .ok rebased ∧
      storeSnapshot rebased s clock context.roundEndsAt = .ok tables'.snapshots
  gameId : s.gameId = gameId
  challengeId : s.challengeId = challengeId
  timestamp : s.requestTimestamp = verified.timestamp
  resolved : resolveCurrentCapabilities p.tokenHash
    (flattenWaves verified.input.waves verified.input.objectiveIds.length)
      environment.capabilities = .ok s.waves
  crowned : ∃ u, validateResolvedCrowns s.waves = .ok u
  completed : LeaseTable.complete operationLifetime
    (p.requestDigest verified.credential.kind verified.input) leaseToken response now
      tables.operations = some tables'.operations

theorem processObservation_ok
    (h : processObservation p gameId challengeId environment tables clock now verified leaseToken =
      .ok (tables', response, s)) :
    Processed p gameId challengeId environment tables tables' clock now verified leaseToken
      response s := by
  unfold processObservation at h
  obtain ⟨context, hcontext, h⟩ := bind_eq_ok_iff.mp h
  split at h
  case isTrue => cases h
  case isFalse =>
    obtain ⟨scheme, -, h⟩ := bind_eq_ok_iff.mp h
    obtain ⟨u, -, h⟩ := bind_eq_ok_iff.mp h
    obtain ⟨waves, hwaves, h⟩ := bind_eq_ok_iff.mp h
    obtain ⟨v, hcrowns, h⟩ := bind_eq_ok_iff.mp h
    obtain ⟨rebased, hrebased, h⟩ := bind_eq_ok_iff.mp h
    obtain ⟨replays, -, h⟩ := bind_eq_ok_iff.mp h
    obtain ⟨snapshots, hstored, h⟩ := bind_eq_ok_iff.mp h
    split at h
    case h_1 => cases h
    case h_2 =>
      dsimp only at h
      split at h
      case h_1 => cases h
      case h_2 operations hcompleted =>
        cases h
        exact
          { active := ⟨context, authorize_ok hcontext, rfl, rebased, hrebased, hstored⟩
            gameId := rfl
            challengeId := rfl
            timestamp := rfl
            resolved := hwaves
            crowned := ⟨v, hcrowns⟩
            completed := hcompleted }

end Process

end Leaderboard

end Rsctf
