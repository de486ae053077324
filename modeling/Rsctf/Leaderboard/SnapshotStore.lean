import Rsctf.Leaderboard.Contract

/-!
# The store of unsettled snapshots

A target has at most one snapshot: the waves of the last accepted observation.  An
observation replaces the waves of its target; the revocation of capabilities removes
the rows of some participations and derives the crowns of the touched waves again.
Every change of a snapshot gives it a new version.
-/

open Fallible

namespace Rsctf

namespace Leaderboard

/-- A digest of 32 bytes. -/
abbrev Digest := { bytes : Bytes // bytes.length = 32 }

/-- What a snapshot was taken of. -/
structure Identity where
  targetId : ℤ
  roundId : ℤ
  cycleId : ℤ
  resetAttempt : ℤ
  containerId : String
  deriving DecidableEq

structure Snapshot where
  identity : Identity
  gameId : ℤ
  challengeId : ℤ
  contextHash : String
  snapshotHash : Digest
  objectiveSchemaHash : Bytes
  requestTimestamp : ℤ
  acceptedAt : ℤ
  waves : List ResolvedWave
  deriving DecidableEq

def Snapshot.targetId (s : Snapshot) : ℤ := s.identity.targetId

/-- Add one to a byte, modulo 256. -/
def wrappingSucc (byte : Fin 256) : Fin 256 :=
  ⟨(byte.val + 1) % 256, Nat.mod_lt _ (Nat.succ_pos 255)⟩

/-- Add one, from the least significant byte on. -/
def increment : Bytes → Bytes
  | [] => []
  | byte :: rest =>
      if (wrappingSucc byte).val = 0 then wrappingSucc byte :: increment rest
      else wrappingSucc byte :: rest

@[simp] theorem length_increment (value : Bytes) : (increment value).length = value.length := by
  induction value with
  | nil => rfl
  | cons byte rest ih =>
      rw [increment]
      split <;> simp [ih]

/-- The next 256-bit version of a snapshot. -/
def nextSnapshotVersion (value : Bytes) : Except AppError Digest :=
  if h : value.length = 32 then
    .ok ⟨(increment value.reverse).reverse, by simpa using h⟩
  else .error (.internal "Leaderboard snapshot has an invalid digest")

/-- Advance the versions of the snapshots of some targets. -/
def bumpSnapshotVersions (store : List Snapshot) (targets : List ℤ) :
    Except AppError (List Snapshot) :=
  store.mapM fun s =>
    if s.targetId ∈ targets then do
      let hash ← nextSnapshotVersion s.snapshotHash.val
      .ok { s with snapshotHash := hash }
    else .ok s

/-- Which snapshots a revocation is about. -/
structure Scope where
  gameId : ℤ
  challengeId : Option ℤ
  targetId : Option ℤ

def Scope.covers (scope : Scope) (s : Snapshot) : Bool :=
  s.gameId == scope.gameId && scope.challengeId.all (s.challengeId == ·) &&
    scope.targetId.all (s.targetId == ·)

def EvidenceRow.isOf (ids : List ℤ) (row : EvidenceRow) : Bool := row.participationId ∈ ids

/-- The target and wave of every row that a revocation removes. -/
def removedScoreWaves (ids : List ℤ) (s : Snapshot) : List (ℤ × String) :=
  s.waves.flatMap fun wave =>
    (wave.rows.filter (EvidenceRow.isOf ids)).map fun _ => (s.targetId, wave.waveId)

/-- Whether a revocation locks a snapshot: it has rows to remove, or the capability
change is fenced. -/
def locks (scope : Scope) (ids : List ℤ) (fence : Bool) (s : Snapshot) : Bool :=
  scope.covers s && (fence || !(removedScoreWaves ids s).isEmpty)

/-- Remove rows from a wave; the crown of an affected wave is derived again. -/
def clearWave (ids : List ℤ) (wave : ResolvedWave) : ResolvedWave :=
  if wave.rows.any (EvidenceRow.isOf ids) then
    { wave with
      rows := rederiveCrowns (wave.rows.filter fun row => !row.isOf ids) }
  else wave

def clearSnapshot (ids : List ℤ) (s : Snapshot) : Snapshot :=
  { s with waves := s.waves.map (clearWave ids) }

/-- Remove some participations from the snapshots of a scope.  The count of removed
rows is returned; a capability change fences every snapshot of the scope. -/
def clearUnsettledScoresInner (store : List Snapshot) (scope : Scope) (ids : List ℤ)
    (fenceCapabilityChange : Bool) : Except AppError (List Snapshot × ℕ) :=
  if ids.isEmpty then .ok (store, 0)
  else
    let locked := store.filter (locks scope ids fenceCapabilityChange)
    let lockedIds := locked.map Snapshot.targetId
    let removed := locked.flatMap (removedScoreWaves ids)
    if removed.isEmpty then
      if fenceCapabilityChange then do
        let bumped ← bumpSnapshotVersions store lockedIds
        .ok (bumped, 0)
      else .ok (store, 0)
    else
      let affectedTargets := removed.map Prod.fst
      let cleared := store.map fun s =>
        if s.targetId ∈ lockedIds then clearSnapshot ids s else s
      let touched :=
        if fenceCapabilityChange then lockedIds
        else lockedIds.filter fun target => target ∈ affectedTargets
      if !fenceCapabilityChange && touched.length != affectedTargets.dedup.length then
        .error (.internal "Leaderboard snapshot disappeared during capability revocation")
      else do
        let bumped ← bumpSnapshotVersions cleared touched
        .ok (bumped, removed.length)

def Scope.ofTarget (gameId challengeId targetId : ℤ) : Scope :=
  ⟨gameId, some challengeId, some targetId⟩

/-- The participations with stored rows that are not eligible now. -/
def staleParticipations (store : List Snapshot) (gameId challengeId targetId : ℤ)
    (eligible : List ℤ) : List ℤ :=
  (Keyed.sortedKeys (((store.filter (Scope.ofTarget gameId challengeId targetId).covers).flatMap
    fun s => s.waves.flatMap ResolvedWave.rows).map EvidenceRow.participationId)).filter
      (· ∉ eligible)

/-- Rebase a target on the participations that are eligible now. -/
def retainEligibleUnsettledScores (store : List Snapshot) (gameId challengeId targetId : ℤ)
    (eligible : List ℤ) : Except AppError (List Snapshot) :=
  (clearUnsettledScoresInner store (Scope.ofTarget gameId challengeId targetId)
    (staleParticipations store gameId challengeId targetId eligible) false).map Prod.fst

/-- The order in which the database lists waves and rows. -/
def listWaves (textLE : String → String → Bool) (waves : List ResolvedWave) : List ResolvedWave :=
  (waves.insertionSort fun a b =>
    a.endedAt < b.endedAt ∨ a.endedAt = b.endedAt ∧ textLE a.waveId b.waveId = true).map
      fun wave =>
        { wave with
          rows := wave.rows.insertionSort fun a b => a.participationId ≤ b.participationId }

/-- The stored waves of an identity. -/
def loadStoredWaves (textLE : String → String → Bool) (store : List Snapshot)
    (identity : Identity) : Option (List ResolvedWave) :=
  (store.find? fun s => s.identity = identity).map fun s => listWaves textLE s.waves

/-- Finalized waves may not change: a proposal starts with the stored waves. -/
def ensureFinalizedWavesAreAppendOnly (stored proposed : List ResolvedWave) :
    Except AppError Unit :=
  if proposed.length < stored.length ∨ proposed.take stored.length ≠ stored then
    .error (.conflict
      "Leaderboard finalized waves are append-only and cannot be changed or removed")
  else .ok ()

/-- The comparison with the stored waves, when there are any. -/
def ensureExtendsStored (textLE : String → String → Bool) (store : List Snapshot)
    (identity : Identity) (waves : List ResolvedWave) : Except AppError Unit :=
  match loadStoredWaves textLE store identity with
  | some stored => ensureFinalizedWavesAreAppendOnly stored waves
  | none => .ok ()

/-- Insert the snapshot of a target, or replace it when it is of another identity or
older. -/
def upsertSnapshot (store : List Snapshot) (s : Snapshot) (clock roundEndsAt : ℤ) :
    Except AppError (List Snapshot) :=
  let late := .error (.conflict
    "KotH arena snapshot is late or older than the accepted snapshot")
  if roundEndsAt ≤ clock then late
  else
    match store.find? fun stored => stored.targetId = s.targetId with
    | none => .ok (store ++ [s])
    | some stored =>
        if stored.identity ≠ s.identity ∨ stored.requestTimestamp < s.requestTimestamp then
          .ok (store.map fun other =>
            if other.targetId = s.targetId then { s with waves := other.waves } else other)
        else late

/-- The keys of the wave and score tables. -/
def WavesKeyed (waves : List ResolvedWave) : Prop :=
  (waves.map ResolvedWave.waveId).Nodup ∧
    ∀ wave ∈ waves, (wave.rows.map EvidenceRow.participationId).Nodup ∧
      (wave.rows.filter EvidenceRow.isCrown).length ≤ 1

instance (waves : List ResolvedWave) : Decidable (WavesKeyed waves) :=
  inferInstanceAs (Decidable (_ ∧ _))

/-- Write the waves of a target; the tables refuse a repeated key. -/
def replaceSnapshotRows (store : List Snapshot) (targetId : ℤ) (waves : List ResolvedWave) :
    Except AppError (List Snapshot) :=
  if WavesKeyed waves then
    .ok (store.map fun s => if s.targetId = targetId then { s with waves := waves } else s)
  else .error (.internal "duplicate key value violates unique constraint")

/-- Rebase a target on the eligible participations and compare a proposal with what is
left of its waves. -/
def rebaseStored (textLE : String → String → Bool) (store : List Snapshot) (gameId challengeId : ℤ)
    (identity : Identity) (eligible : List ℤ) (waves : List ResolvedWave) :
    Except AppError (List Snapshot) := do
  let rebased ← retainEligibleUnsettledScores store gameId challengeId identity.targetId eligible
  ensureExtendsStored textLE rebased identity waves
  .ok rebased

/-- Replace the snapshot and the waves of a target. -/
def storeSnapshot (store : List Snapshot) (s : Snapshot) (clock roundEndsAt : ℤ) :
    Except AppError (List Snapshot) := do
  let upserted ← upsertSnapshot store { s with waves := [] } clock roundEndsAt
  replaceSnapshotRows upserted s.targetId s.waves

/-- Store an accepted observation. -/
def recordObservation (textLE : String → String → Bool) (store : List Snapshot) (s : Snapshot)
    (eligible : List ℤ) (clock roundEndsAt : ℤ) : Except AppError (List Snapshot) := do
  let rebased ← rebaseStored textLE store s.gameId s.challengeId s.identity eligible s.waves
  storeSnapshot rebased s clock roundEndsAt

/-- The waves of a body that is accepted: parsed, normalized, resolved and crowned. -/
def admitWaves (decode : Bytes → Option KothArenaSnapshotInput) (sha256 : String → Bytes)
    (capabilities : List EligibleApiCapability) (body : Bytes) :
    Except AppError (List ResolvedWave) := do
  let input ← parseAndNormalize decode body
  let waves ← resolveCurrentCapabilities sha256
    (flattenWaves input.waves input.objectiveIds.length) capabilities
  validateResolvedCrowns waves
  .ok waves

end Leaderboard

end Rsctf
