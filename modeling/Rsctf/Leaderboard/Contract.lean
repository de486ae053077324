import Mathlib.Data.Fin.Basic
import Mathlib.Data.List.Lex
import Mathlib.Data.List.Sort
import Mathlib.Data.Prod.Lex
import Mathlib.Data.String.Basic
import Rsctf.Data.Fallible
import Rsctf.Leaderboard.Crown

/-!
# The wire contract of an observation

A referee submits finalized waves of evidence.  A submission is checked field by
field, its objectives are normalized to one scale, its teams are resolved through the
capabilities of the moment, and a crown is accepted only for the unique leader of a
wave.  Whatever passes has positive budgets.
-/

open Fallible

namespace Rsctf

namespace Leaderboard

abbrev Bytes := List (Fin 256)

inductive AppError
  | badRequest (message : String)
  | conflict (message : String)
  | internal (message : String)
  | unavailable (message : String)
  | unauthorized

structure EvidenceRatioInput where
  earned : ℤ
  possible : ℤ

structure TeamEvidenceInput where
  tokenHash : String
  activity : EvidenceRatioInput
  objectives : List EvidenceRatioInput
  isCrown : Bool

structure WaveEvidenceInput where
  waveId : String
  endedAtUnixMs : ℤ
  teams : List TeamEvidenceInput

structure KothArenaSnapshotInput where
  context : String
  objectiveIds : List String
  waves : List WaveEvidenceInput

structure NormalizedInputRow where
  tokenHash : Bytes
  activityEarned : ℤ
  activityPossible : ℤ
  objectiveEarned : ℤ
  objectivePossible : ℤ
  objectiveCount : ℤ
  isCrown : Bool

structure NormalizedWave where
  waveId : String
  endedAtUnixMs : ℤ
  rows : List NormalizedInputRow

/-- A wave whose teams are resolved to participations. -/
structure ResolvedWave where
  waveId : String
  endedAt : ℤ
  rows : List EvidenceRow
  deriving DecidableEq

/-- A participation and its secret token. -/
structure EligibleApiCapability where
  participationId : ℤ
  token : String

def maxTeamEntries : ℕ := 2000

def maxWaves : ℕ := 64

def maxObjectives : ℕ := 16

def maxEvidenceBudget : ℤ := 1000000000000

def objectiveNormalizationScale : ℤ := 1000000

def asciiLowercase (c : Char) : Bool := 'a' ≤ c && c ≤ 'z'

def asciiDigit (c : Char) : Bool := '0' ≤ c && c ≤ '9'

def asciiAlphanumeric (c : Char) : Bool :=
  asciiLowercase c || asciiDigit c || ('A' ≤ c && c ≤ 'Z')

def canonicalObjectiveId (value : String) : Bool :=
  value.toList.head?.any asciiLowercase && decide (value.utf8ByteSize ≤ 64) &&
    value.toList.all fun c =>
      asciiLowercase c || asciiDigit c || c == '-' || c == '_' || c == '.'

def canonicalContext (context : String) : Bool :=
  decide (context.utf8ByteSize = 64) &&
    context.toList.all fun c => asciiDigit c || ('a' ≤ c && c ≤ 'f')

def canonicalWaveId (value : String) : Bool :=
  value.toList.head?.any asciiAlphanumeric && decide (value.utf8ByteSize ≤ 128) &&
    value.toList.all fun c =>
      asciiAlphanumeric c || c == '-' || c == '_' || c == '.' || c == ':'

def hexDigit (c : Char) : ℕ :=
  if asciiDigit c then c.toNat - 48 else c.toNat - 87

/-- The bytes of a hexadecimal text. -/
def hexDecode : List Char → Bytes
  | high :: low :: rest => Fin.ofNat 256 (16 * hexDigit high + hexDigit low) :: hexDecode rest
  | _ => []

def parseTokenHash (value : String) : Except AppError Bytes :=
  if canonicalContext value then .ok (hexDecode value.toList)
  else .error (.badRequest "tokenHash must be 64 lowercase hexadecimal characters")

def validateRatio (ratio : EvidenceRatioInput) (field : String) : Except AppError Unit :=
  if ratio.earned < 0 ∨ ratio.possible ≤ 0 ∨ ratio.possible < ratio.earned ∨
      maxEvidenceBudget < ratio.possible then
    .error (.badRequest
      (field ++ " evidence must satisfy 0 <= earned <= possible <= 1000000000000"))
  else .ok ()

/-- Check the identifiers of the objectives, given those seen before. -/
def validateObjectiveIds (seen : List String) : List String → Except AppError Unit
  | [] => .ok ()
  | objectiveId :: rest =>
      if !canonicalObjectiveId objectiveId || decide (objectiveId ∈ seen) then
        .error (.badRequest
          "Leaderboard objectiveIds must be unique lowercase IDs of at most 64 bytes")
      else validateObjectiveIds (objectiveId :: seen) rest

/-- Check the teams of a wave, given the tokens and the number of crowns seen before. -/
def validateTeams (objectiveCount : ℕ) (tokenHashes : List Bytes) (crownCount : ℕ) :
    List TeamEvidenceInput → Except AppError ℕ
  | [] => .ok crownCount
  | team :: rest => do
      let tokenHash ← parseTokenHash team.tokenHash
      if tokenHash ∈ tokenHashes then
        .error (.badRequest "Leaderboard token hashes must be unique within each wave")
      else
        validateRatio team.activity "activity"
        if team.objectives.length ≠ objectiveCount then
          .error (.badRequest
            "every Leaderboard team row must match objectiveIds exactly and in order")
        else
          team.objectives.forM fun objective => validateRatio objective "objective"
          validateTeams objectiveCount (tokenHash :: tokenHashes)
            (if team.isCrown then crownCount + 1 else crownCount) rest

/-- Check the waves, given the identifiers seen before. -/
def validateWaves (objectiveCount : ℕ) (waveIds : List String) :
    List WaveEvidenceInput → Except AppError Unit
  | [] => .ok ()
  | wave :: rest =>
      if !canonicalWaveId wave.waveId || decide (wave.waveId ∈ waveIds) then
        .error (.badRequest
          "Leaderboard waveId values must be unique canonical IDs of at most 128 bytes")
      else if wave.endedAtUnixMs ≤ 0 then
        .error (.badRequest
          "Leaderboard endedAtUnixMs must be a positive Unix-millisecond timestamp")
      else do
        let crownCount ← validateTeams objectiveCount [] 0 wave.teams
        if 1 < crownCount then
          .error (.badRequest "each Leaderboard wave may name at most one Crown holder")
        else validateWaves objectiveCount (wave.waveId :: waveIds) rest

/-- Parse a body and check every field; the JSON decoder is a parameter. -/
def parseAndNormalize (decode : Bytes → Option KothArenaSnapshotInput) (body : Bytes) :
    Except AppError KothArenaSnapshotInput :=
  match decode body with
  | none => .error (.badRequest "invalid JSON body")
  | some input =>
      if !canonicalContext input.context then
        .error (.badRequest "invalid KotH observer context")
      else if maxWaves < input.waves.length then
        .error (.badRequest "Leaderboard snapshot may contain at most 64 finalized waves")
      else if maxTeamEntries < (input.waves.flatMap WaveEvidenceInput.teams).length then
        .error (.badRequest "Leaderboard snapshot may contain at most 2000 team-wave rows")
      else if input.objectiveIds.isEmpty || decide (maxObjectives < input.objectiveIds.length) then
        .error (.badRequest
          "Leaderboard objectiveIds must contain between 1 and 16 stable IDs")
      else do
        validateObjectiveIds [] input.objectiveIds
        validateWaves input.objectiveIds.length [] input.waves
        .ok input

/-- Normalize every objective to one scale and add them up. -/
def flatten (objectiveCount : ℕ) (team : TeamEvidenceInput) : NormalizedInputRow where
  tokenHash := hexDecode team.tokenHash.toList
  activityEarned := team.activity.earned
  activityPossible := team.activity.possible
  objectiveEarned := team.objectives.foldl (fun sum objective =>
    sum + (objective.earned * objectiveNormalizationScale + objective.possible / 2) /
      objective.possible) 0
  objectivePossible := objectiveNormalizationScale * team.objectives.length
  objectiveCount := objectiveCount
  isCrown := team.isCrown

def NormalizedWave.sortKey (wave : NormalizedWave) : ℤ ×ₗ String :=
  toLex (wave.endedAtUnixMs, wave.waveId)

def flattenWave (objectiveCount : ℕ) (wave : WaveEvidenceInput) : NormalizedWave where
  waveId := wave.waveId
  endedAtUnixMs := wave.endedAtUnixMs
  rows := (wave.teams.map (flatten objectiveCount)).insertionSort fun a b =>
    a.tokenHash ≤ b.tokenHash

/-- The waves in the order of their ends. -/
def flattenWaves (waves : List WaveEvidenceInput) (objectiveCount : ℕ) : List NormalizedWave :=
  (waves.map (flattenWave objectiveCount)).insertionSort fun a b => a.sortKey ≤ b.sortKey

/-- The instant of a Unix timestamp in milliseconds, within the calendar. -/
def fromTimestampMillis (ms : ℤ) : Option ℤ :=
  if -8334601228800000 ≤ ms ∧ ms ≤ 8210266876799999 then some (1000 * ms) else none

/-- The participation behind a token; a token without a capability is skipped. -/
def resolveRow (sha256 : String → Bytes) (capabilities : List EligibleApiCapability)
    (row : NormalizedInputRow) : Option EvidenceRow :=
  (Keyed.get (fun capability => sha256 capability.token) row.tokenHash capabilities).map
    fun capability =>
      { participationId := capability.participationId
        activityEarned := row.activityEarned
        activityPossible := row.activityPossible
        objectiveEarned := row.objectiveEarned
        objectivePossible := row.objectivePossible
        objectiveCount := row.objectiveCount
        isCrown := row.isCrown }

def resolveWave (sha256 : String → Bytes) (capabilities : List EligibleApiCapability)
    (wave : NormalizedWave) : Except AppError ResolvedWave :=
  match fromTimestampMillis wave.endedAtUnixMs with
  | none => .error (.badRequest "Leaderboard wave timestamp is out of range")
  | some endedAt =>
      .ok
        { waveId := wave.waveId
          endedAt := endedAt
          rows := (wave.rows.filterMap (resolveRow sha256 capabilities)).insertionSort
            fun a b => a.participationId ≤ b.participationId }

def resolveCurrentCapabilities (sha256 : String → Bytes) (waves : List NormalizedWave)
    (capabilities : List EligibleApiCapability) : Except AppError (List ResolvedWave) :=
  waves.mapM (resolveWave sha256 capabilities)

/-- The first wave whose crown the check refuses is named. -/
def validateResolvedCrowns (waves : List ResolvedWave) : Except AppError Unit :=
  waves.forM fun wave =>
    if leaderboardCrownIsValid wave.rows then .ok ()
    else
      .error (.badRequest ("Leaderboard wave " ++ wave.waveId ++
        " may name a Crown only for one unique completed leader"))

/-- The budgets of a row are positive. -/
def EvidenceRow.Budgeted (row : EvidenceRow) : Prop :=
  0 < row.activityPossible ∧ 0 < row.objectivePossible

theorem validateRatio_ok {ratio : EvidenceRatioInput} {field : String} {u : Unit}
    (h : validateRatio ratio field = .ok u) : 0 < ratio.possible := by
  unfold validateRatio at h
  split at h
  case isTrue => cases h
  case isFalse hvalid =>
    rw [not_or, not_or] at hvalid
    exact not_le.mp hvalid.2.1

/-- Every accepted team has a positive activity budget and all objectives. -/
theorem validateTeams_ok {objectiveCount : ℕ} {teams : List TeamEvidenceInput}
    {seen : List Bytes} {crowns k : ℕ} (h : validateTeams objectiveCount seen crowns teams = .ok k) :
    ∀ team ∈ teams, 0 < team.activity.possible ∧ team.objectives.length = objectiveCount := by
  induction teams generalizing seen crowns with
  | nil => simp
  | cons team teams ih =>
      rw [validateTeams, bind_eq_ok_iff] at h
      obtain ⟨tokenHash, -, h⟩ := h
      split at h
      case isTrue => cases h
      case isFalse =>
        obtain ⟨u, hactivity, h⟩ := bind_eq_ok_iff.mp h
        split at h
        case isTrue => cases h
        case isFalse hlength =>
          obtain ⟨u', -, h⟩ := bind_eq_ok_iff.mp h
          intro other hother
          rcases List.mem_cons.mp hother with rfl | hother
          · exact ⟨validateRatio_ok hactivity, not_not.mp hlength⟩
          · exact ih h other hother

theorem validateWaves_ok {objectiveCount : ℕ} {waves : List WaveEvidenceInput}
    {seen : List String} {u : Unit} (h : validateWaves objectiveCount seen waves = .ok u) :
    ∀ wave ∈ waves, ∀ team ∈ wave.teams,
      0 < team.activity.possible ∧ team.objectives.length = objectiveCount := by
  induction waves generalizing seen with
  | nil => simp
  | cons wave waves ih =>
      rw [validateWaves] at h
      split at h
      case isTrue => cases h
      case isFalse =>
        split at h
        case isTrue => cases h
        case isFalse =>
          obtain ⟨crowns, hteams, h⟩ := bind_eq_ok_iff.mp h
          split at h
          case isTrue => cases h
          case isFalse =>
            intro other hother
            rcases List.mem_cons.mp hother with rfl | hother
            · exact validateTeams_ok hteams
            · exact ih h other hother

/-- An accepted body has objectives, and every team of it has all of them. -/
theorem parseAndNormalize_ok {decode : Bytes → Option KothArenaSnapshotInput} {body : Bytes}
    {input : KothArenaSnapshotInput} (h : parseAndNormalize decode body = .ok input) :
    0 < input.objectiveIds.length ∧ ∀ wave ∈ input.waves, ∀ team ∈ wave.teams,
      0 < team.activity.possible ∧ team.objectives.length = input.objectiveIds.length := by
  unfold parseAndNormalize at h
  split at h
  case h_1 => cases h
  case h_2 parsed _ =>
    split at h
    case isTrue => cases h
    case isFalse =>
      split at h
      case isTrue => cases h
      case isFalse =>
        split at h
        case isTrue => cases h
        case isFalse =>
          split at h
          case isTrue => cases h
          case isFalse hids =>
            obtain ⟨u, -, h⟩ := bind_eq_ok_iff.mp h
            obtain ⟨u', hwaves, h⟩ := bind_eq_ok_iff.mp h
            cases h
            refine ⟨?_, validateWaves_ok hwaves⟩
            rw [Bool.or_eq_true, not_or, List.isEmpty_iff] at hids
            exact List.length_pos_of_ne_nil hids.1

/-- The rows that an accepted body resolves to have positive budgets. -/
theorem budgeted_of_accepted {decode : Bytes → Option KothArenaSnapshotInput} {body : Bytes}
    {input : KothArenaSnapshotInput} (hinput : parseAndNormalize decode body = .ok input)
    {sha256 : String → Bytes} {capabilities : List EligibleApiCapability}
    {waves : List ResolvedWave}
    (hwaves : resolveCurrentCapabilities sha256
      (flattenWaves input.waves input.objectiveIds.length) capabilities = .ok waves) :
    ∀ wave ∈ waves, ∀ row ∈ wave.rows, row.Budgeted := by
  obtain ⟨hobjectives, hteams⟩ := parseAndNormalize_ok hinput
  intro wave hwave row hrow
  obtain ⟨normalized, hnormalized, hresolve⟩ := exists_source_of_mapM_eq_ok hwaves hwave
  unfold resolveWave at hresolve
  split at hresolve
  case h_1 => cases hresolve
  case h_2 =>
    cases hresolve
    obtain ⟨source, hsource, hresolved⟩ :=
      List.mem_filterMap.mp ((List.mem_insertionSort _).mp hrow)
    obtain ⟨submitted, hsubmitted, rfl⟩ :=
      List.mem_map.mp ((List.mem_insertionSort _).mp hnormalized)
    obtain ⟨team, hteam, rfl⟩ := List.mem_map.mp ((List.mem_insertionSort _).mp hsource)
    obtain ⟨capability, -, rfl⟩ := Option.map_eq_some_iff.mp hresolved
    obtain ⟨hactivity, hlength⟩ := hteams submitted hsubmitted team hteam
    refine ⟨hactivity, ?_⟩
    have hpositive : (0 : ℤ) < team.objectives.length := by
      rw [hlength]
      exact_mod_cast hobjectives
    exact Int.mul_pos (by decide) hpositive

/-- Waves pass the check exactly when every one of them does. -/
theorem validateResolvedCrowns_ok {waves : List ResolvedWave} {u : Unit}
    (h : validateResolvedCrowns waves = .ok u) {wave : ResolvedWave} (hwave : wave ∈ waves) :
    leaderboardCrownIsValid wave.rows = true := by
  have hcheck := of_forM_eq_ok h hwave
  split at hcheck
  case isTrue hvalid => exact hvalid
  case isFalse => cases hcheck

end Leaderboard

end Rsctf
