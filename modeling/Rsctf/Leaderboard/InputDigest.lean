import Mathlib.Data.List.Perm.Basic
import Rsctf.Data.Keyed
import Rsctf.Data.PrefixCode
import Rsctf.Leaderboard.Contract

/-!
# The digest of an observation

The digest by which a repeated observation is recognized is taken of a canonical message:
waves and teams are sorted, texts are written behind their length and numbers in eight bytes.
Two accepted inputs have one message exactly when they differ in nothing but the order of
their waves and of the teams in a wave.
-/

open Fallible PrefixCode

namespace Rsctf

namespace Leaderboard

section Message

/-- The bytes of a text. -/
def utf8 (text : String) : Bytes := text.toByteArray.data.toList.map UInt8.toFin

def lengthBytes (n : ℕ) : Bytes := beBytes 8 (n % 2 ^ 64)

/-- A 64-bit integer in two's complement. -/
def i64Bytes (n : ℤ) : Bytes := beBytes 8 (n % 2 ^ 64).toNat

def textBytes (text : String) : Bytes := lengthBytes (utf8 text).length ++ utf8 text

def ratioBytes (ratio : EvidenceRatioInput) : Bytes :=
  i64Bytes ratio.earned ++ i64Bytes ratio.possible

def teamBytes (team : TeamEvidenceInput) : Bytes :=
  utf8 team.tokenHash ++ (ratioBytes team.activity ++
    (lengthBytes team.objectives.length ++ team.objectives.flatMap ratioBytes ++
      [PrefixCode.byte (if team.isCrown then 1 else 0)]))

def WaveEvidenceInput.sortKey (wave : WaveEvidenceInput) : ℤ ×ₗ String :=
  toLex (wave.endedAtUnixMs, wave.waveId)

def sortTeams (teams : List TeamEvidenceInput) : List TeamEvidenceInput :=
  teams.insertionSort fun left right => left.tokenHash ≤ right.tokenHash

def sortWaves (waves : List WaveEvidenceInput) : List WaveEvidenceInput :=
  waves.insertionSort fun left right => left.sortKey ≤ right.sortKey

def waveBytes (wave : WaveEvidenceInput) : Bytes :=
  textBytes wave.waveId ++ (i64Bytes wave.endedAtUnixMs ++
    (lengthBytes wave.teams.length ++ (sortTeams wave.teams).flatMap teamBytes))

/-- The message of which the digest is taken. -/
def canonicalInputBytes (input : KothArenaSnapshotInput) : Bytes :=
  utf8 "rsctf:koth-observation-body:v2\x00" ++ (textBytes input.context ++
    (lengthBytes input.objectiveIds.length ++ input.objectiveIds.flatMap textBytes ++
      (lengthBytes input.waves.length ++ (sortWaves input.waves).flatMap waveBytes)))

def canonicalInputDigest (sha256 : Bytes → Bytes) (input : KothArenaSnapshotInput) : Bytes :=
  sha256 (canonicalInputBytes input)

end Message

/-- Waves with the same teams, in any order. -/
structure SameWave (wave wave' : WaveEvidenceInput) : Prop where
  waveId : wave.waveId = wave'.waveId
  endedAt : wave.endedAtUnixMs = wave'.endedAtUnixMs
  teams : wave.teams.Perm wave'.teams

/-- Inputs which are equal up to the order of the waves and of the teams of a wave. -/
structure SameInput (input input' : KothArenaSnapshotInput) : Prop where
  context : input.context = input'.context
  objectiveIds : input.objectiveIds = input'.objectiveIds
  waves : ∃ waves, input.waves.Perm waves ∧ List.Forall₂ SameWave waves input'.waves

/-- A number which the source keeps in an `i64`. -/
def InI64 (n : ℤ) : Prop := -2 ^ 63 ≤ n ∧ n < 2 ^ 63

section Fields

def RatioFits (ratio : EvidenceRatioInput) : Prop := InI64 ratio.earned ∧ InI64 ratio.possible

structure TeamFits (team : TeamEvidenceInput) : Prop where
  tokenHash : (utf8 team.tokenHash).length = 64
  activity : RatioFits team.activity
  objectives : team.objectives.length < 2 ^ 64 ∧ ∀ objective ∈ team.objectives, RatioFits objective

structure WaveFits (wave : WaveEvidenceInput) : Prop where
  waveId : (utf8 wave.waveId).length < 2 ^ 64
  endedAt : InI64 wave.endedAtUnixMs
  teams : wave.teams.length < 2 ^ 64 ∧ ∀ team ∈ wave.teams, TeamFits team

theorem utf8_injective : Function.Injective utf8 := by
  intro a b h
  have hfin : Function.Injective UInt8.toFin := fun x y hxy => UInt8.toFin_inj.mp hxy
  have hlist := List.map_injective_iff.mpr hfin h
  have harray := Array.toList_inj.mp hlist
  exact String.toByteArray_inj.mp (ByteArray.ext harray)

theorem length_utf8 (text : String) : (utf8 text).length = text.utf8ByteSize := by
  rw [utf8, List.length_map]
  rfl

theorem decodes_lengthBytes : Decodes (· < 2 ^ 64) lengthBytes := by
  intro m n s t hm hn h
  rw [lengthBytes, lengthBytes, Nat.mod_eq_of_lt hm, Nat.mod_eq_of_lt hn] at h
  exact decodes_beBytes 8 m n s t (by simpa using hm) (by simpa using hn) h

theorem decodes_i64Bytes : Decodes InI64 i64Bytes := by
  refine .fixed 8 (fun n _ => length_beBytes 8 _) fun m n hm hn h => ?_
  have hmod := mod_eq_of_beBytes_eq h
  unfold InI64 at hm hn
  omega

theorem decodes_textBytes : Decodes (fun text => (utf8 text).length < 2 ^ 64) textBytes :=
  (Decodes.raw decodes_lengthBytes).of_fields utf8 (fun _ h => h) fun _ _ h => utf8_injective h

theorem decodes_ratioBytes : Decodes RatioFits ratioBytes := by
  refine (decodes_i64Bytes.pair decodes_i64Bytes).of_fields
    (fun ratio : EvidenceRatioInput => (ratio.earned, ratio.possible)) (fun _ h => h) ?_
  intro ratio ratio' h
  cases ratio
  cases ratio'
  simpa using h

theorem decodes_crown :
    Decodes (fun _ => True)
      fun isCrown : Bool => [PrefixCode.byte (if isCrown then 1 else 0)] := by
  refine .fixed 1 (fun _ _ => rfl) fun crown crown' _ _ h => ?_
  revert h
  revert crown crown'
  decide

theorem decodes_teamBytes : Decodes TeamFits teamBytes := by
  have htoken : Decodes (fun text => (utf8 text).length = 64) utf8 :=
    .fixed 64 (fun _ h => h) fun _ _ _ _ h => utf8_injective h
  have hobjectives := decodes_lengthBytes.list decodes_ratioBytes
  refine (htoken.pair (decodes_ratioBytes.pair (hobjectives.pair decodes_crown))).of_fields
    (fun team : TeamEvidenceInput =>
      (team.tokenHash, team.activity, team.objectives, team.isCrown))
    (fun team h => ⟨h.tokenHash, h.activity, h.objectives, trivial⟩) ?_
  intro team team' h
  cases team
  cases team'
  simpa using h

/-- A wave with its teams in order. -/
def canonicalWave (wave : WaveEvidenceInput) : WaveEvidenceInput :=
  { wave with teams := sortTeams wave.teams }

/-- An input with its waves and teams in order. -/
def canonicalInput (input : KothArenaSnapshotInput) : KothArenaSnapshotInput :=
  { input with waves := (sortWaves input.waves).map canonicalWave }

theorem perm_sortTeams (teams : List TeamEvidenceInput) : (sortTeams teams).Perm teams :=
  List.perm_insertionSort _ teams

theorem perm_sortWaves (waves : List WaveEvidenceInput) : (sortWaves waves).Perm waves :=
  List.perm_insertionSort _ waves

/-- A wave in the order in which it lists its teams. -/
def listedWaveBytes (wave : WaveEvidenceInput) : Bytes :=
  textBytes wave.waveId ++ (i64Bytes wave.endedAtUnixMs ++
    (lengthBytes wave.teams.length ++ wave.teams.flatMap teamBytes))

def listedInputBytes (input : KothArenaSnapshotInput) : Bytes :=
  textBytes input.context ++
    (lengthBytes input.objectiveIds.length ++ input.objectiveIds.flatMap textBytes ++
      (lengthBytes input.waves.length ++ input.waves.flatMap listedWaveBytes))

theorem waveBytes_eq (wave : WaveEvidenceInput) :
    waveBytes wave = listedWaveBytes (canonicalWave wave) := by
  rw [waveBytes, listedWaveBytes, canonicalWave, (perm_sortTeams wave.teams).length_eq]

/-- The message is that of the input in order. -/
theorem canonicalInputBytes_eq (input : KothArenaSnapshotInput) : canonicalInputBytes input =
    utf8 "rsctf:koth-observation-body:v2\x00" ++ listedInputBytes (canonicalInput input) := by
  have hwaves : (sortWaves input.waves).flatMap waveBytes =
      ((sortWaves input.waves).map canonicalWave).flatMap listedWaveBytes := by
    rw [List.flatMap_map]
    exact congrArg (fun f => (sortWaves input.waves).flatMap f) (funext waveBytes_eq)
  rw [canonicalInputBytes, listedInputBytes, canonicalInput, hwaves, List.length_map,
    (perm_sortWaves input.waves).length_eq]

theorem decodes_listedWaveBytes : Decodes WaveFits listedWaveBytes := by
  have hteams := decodes_lengthBytes.list decodes_teamBytes
  refine (decodes_textBytes.pair (decodes_i64Bytes.pair hteams)).of_fields
    (fun wave : WaveEvidenceInput => (wave.waveId, wave.endedAtUnixMs, wave.teams))
    (fun wave h => ⟨h.waveId, h.endedAt, h.teams⟩) ?_
  intro wave wave' h
  cases wave
  cases wave'
  simpa using h

structure InputFits (input : KothArenaSnapshotInput) : Prop where
  context : (utf8 input.context).length < 2 ^ 64
  objectiveIds : input.objectiveIds.length < 2 ^ 64 ∧
    ∀ objectiveId ∈ input.objectiveIds, (utf8 objectiveId).length < 2 ^ 64
  waves : input.waves.length < 2 ^ 64 ∧ ∀ wave ∈ input.waves, WaveFits wave

theorem decodes_listedInputBytes : Decodes InputFits listedInputBytes := by
  have hids := decodes_lengthBytes.list decodes_textBytes
  have hwaves := decodes_lengthBytes.list decodes_listedWaveBytes
  refine (decodes_textBytes.pair (hids.pair hwaves)).of_fields
    (fun input : KothArenaSnapshotInput => (input.context, input.objectiveIds, input.waves))
    (fun input h => ⟨h.context, h.objectiveIds, h.waves⟩) ?_
  intro input input' h
  cases input
  cases input'
  simpa using h

theorem WaveFits.canonicalWave {wave : WaveEvidenceInput} (h : WaveFits wave) :
    WaveFits (canonicalWave wave) where
  waveId := h.waveId
  endedAt := h.endedAt
  teams := by
    have hperm := perm_sortTeams wave.teams
    exact ⟨hperm.length_eq.symm ▸ h.teams.1,
      fun team hteam => h.teams.2 team (hperm.mem_iff.mp hteam)⟩

theorem InputFits.canonicalInput {input : KothArenaSnapshotInput} (h : InputFits input) :
    InputFits (canonicalInput input) where
  context := h.context
  objectiveIds := h.objectiveIds
  waves := by
    have hperm := perm_sortWaves input.waves
    refine ⟨?_, fun wave hwave => ?_⟩
    · change ((sortWaves input.waves).map _).length < 2 ^ 64
      rw [List.length_map, hperm.length_eq]
      exact h.waves.1
    · obtain ⟨listed, hlisted, rfl⟩ := List.mem_map.mp hwave
      exact (h.waves.2 listed (hperm.mem_iff.mp hlisted)).canonicalWave

/-- One message has one input in order. -/
theorem canonicalInputBytes_eq_iff_canonicalInput {input input' : KothArenaSnapshotInput}
    (h : InputFits input) (h' : InputFits input') :
    canonicalInputBytes input = canonicalInputBytes input' ↔
      canonicalInput input = canonicalInput input' := by
  rw [canonicalInputBytes_eq, canonicalInputBytes_eq, List.append_cancel_left_eq]
  exact ⟨decodes_listedInputBytes.injOn h.canonicalInput h'.canonicalInput,
    fun heq => by rw [heq]⟩

end Fields

section Order

/-- Every wave has its own name, and so has every team of a wave. -/
structure Distinct (input : KothArenaSnapshotInput) : Prop where
  waves : (input.waves.map (·.waveId)).Nodup
  teams : ∀ wave ∈ input.waves, (wave.teams.map (·.tokenHash)).Nodup

theorem sameWave_of_canonicalWave {wave wave' : WaveEvidenceInput}
    (h : canonicalWave wave = canonicalWave wave') : SameWave wave wave' := by
  simp only [canonicalWave, WaveEvidenceInput.mk.injEq] at h
  refine ⟨h.1, h.2.1, (perm_sortTeams wave.teams).symm.trans ?_⟩
  rw [h.2.2]
  exact perm_sortTeams wave'.teams

theorem SameWave.canonicalWave {wave wave' : WaveEvidenceInput} (h : SameWave wave wave')
    (hteams : (wave.teams.map (·.tokenHash)).Nodup) : canonicalWave wave = canonicalWave wave' := by
  have hsort : sortTeams wave.teams = sortTeams wave'.teams :=
    Keyed.insertionSort_key_eq h.teams hteams
  simp only [Leaderboard.canonicalWave, hsort, h.waveId, h.endedAt]

theorem nodup_sortKeys {waves : List WaveEvidenceInput} (h : (waves.map (·.waveId)).Nodup) :
    (waves.map (·.sortKey)).Nodup := by
  have hids : (waves.map (·.waveId)) = (waves.map (·.sortKey)).map fun key => (ofLex key).2 := by
    rw [List.map_map]
    rfl
  rw [hids] at h
  exact List.Nodup.of_map _ h

theorem map_canonicalWave_of_same {waves waves' : List WaveEvidenceInput}
    (hnodup : ∀ wave ∈ waves, (wave.teams.map (·.tokenHash)).Nodup)
    (h : List.Forall₂ SameWave waves waves') :
    waves.map canonicalWave = waves'.map canonicalWave := by
  induction h with
  | nil => rfl
  | cons hwave _ ih =>
      rw [List.map_cons, List.map_cons, hwave.canonicalWave (hnodup _ List.mem_cons_self),
        ih fun wave hmem => hnodup wave (List.mem_cons_of_mem _ hmem)]

/-- Putting the teams in order does not change where a wave belongs. -/
theorem map_sortWaves (waves : List WaveEvidenceInput) :
    (sortWaves waves).map canonicalWave = sortWaves (waves.map canonicalWave) :=
  List.map_insertionSort _ _ canonicalWave waves fun _ _ _ _ => Iff.rfl

theorem sameInput_of_canonicalInput {input input' : KothArenaSnapshotInput}
    (h : canonicalInput input = canonicalInput input') : SameInput input input' := by
  simp only [canonicalInput, KothArenaSnapshotInput.mk.injEq] at h
  refine ⟨h.1, h.2.1, ?_⟩
  have hcanonical : List.Forall₂ Eq ((sortWaves input.waves).map canonicalWave)
      ((sortWaves input'.waves).map canonicalWave) := by
    rw [List.forall₂_eq_eq_eq]
    exact h.2.2
  have hsame : List.Forall₂ SameWave (sortWaves input.waves) (sortWaves input'.waves) :=
    (List.forall₂_map_right_iff.mp (List.forall₂_map_left_iff.mp hcanonical)).imp
      fun _ _ => sameWave_of_canonicalWave
  have hcomp : Relation.Comp (List.Forall₂ SameWave) List.Perm (sortWaves input.waves)
      input'.waves := ⟨_, hsame, perm_sortWaves input'.waves⟩
  rw [List.forall₂_comp_perm_eq_perm_comp_forall₂] at hcomp
  obtain ⟨waves, hperm, hwaves⟩ := hcomp
  exact ⟨waves, (perm_sortWaves input.waves).symm.trans hperm, hwaves⟩

theorem SameInput.canonicalInput {input input' : KothArenaSnapshotInput} (h : SameInput input input')
    (hdistinct : Distinct input) : canonicalInput input = canonicalInput input' := by
  obtain ⟨waves, hperm, hwaves⟩ := h.waves
  have hmap : waves.map canonicalWave = input'.waves.map canonicalWave :=
    map_canonicalWave_of_same (fun wave hwave => hdistinct.teams wave (hperm.mem_iff.mpr hwave)) hwaves
  have hnodup : ((input.waves.map canonicalWave).map (·.sortKey)).Nodup := by
    rw [List.map_map]
    exact nodup_sortKeys hdistinct.waves
  have hsort : sortWaves (input.waves.map canonicalWave) =
      sortWaves (input'.waves.map canonicalWave) := by
    rw [← hmap]
    exact Keyed.insertionSort_key_eq (hperm.map canonicalWave) hnodup
  simp only [Leaderboard.canonicalInput, map_sortWaves, hsort, h.context, h.objectiveIds]

/-- Inputs with distinct names have one form in order exactly when they are the same up to
order. -/
theorem canonicalInput_eq_iff {input input' : KothArenaSnapshotInput} (hdistinct : Distinct input) :
    canonicalInput input = canonicalInput input' ↔ SameInput input input' :=
  ⟨sameInput_of_canonicalInput, fun h => h.canonicalInput hdistinct⟩

end Order

section Accepted

/-- The instants which the source reads are of its type. -/
def TypedDecode (decode : Bytes → Option KothArenaSnapshotInput) : Prop :=
  ∀ body input, decode body = some input → ∀ wave ∈ input.waves, wave.endedAtUnixMs < 2 ^ 63

theorem ratioFits_of_validateRatio {ratio : EvidenceRatioInput} {field : String} {u : Unit}
    (h : validateRatio ratio field = .ok u) : RatioFits ratio := by
  unfold validateRatio at h
  split at h
  case isTrue => cases h
  case isFalse hvalid =>
    simp only [maxEvidenceBudget, not_or, not_lt, not_le] at hvalid
    unfold RatioFits InI64
    omega

theorem forall_of_forM {α ε : Type} {f : α → Except ε Unit} {l : List α} {u : Unit}
    (h : l.forM f = .ok u) : ∀ a ∈ l, f a = .ok () := by
  induction l with
  | nil => simp
  | cons a l ih =>
      change (f a >>= fun _ => l.forM f) = .ok u at h
      obtain ⟨u', hhead, htail⟩ := bind_eq_ok_iff.mp h
      intro b hb
      rcases List.mem_cons.mp hb with rfl | hb
      · exact hhead
      · exact ih htail b hb

theorem length_of_canonicalContext {text : String} (h : canonicalContext text = true) :
    (utf8 text).length = 64 := by
  rw [canonicalContext, Bool.and_eq_true, decide_eq_true_eq] at h
  rw [length_utf8, h.1]

/-- The teams of an accepted wave fit their encoding, and their tokens are distinct. -/
theorem fits_of_validateTeams {objectiveCount : ℕ} (hcount : objectiveCount < 2 ^ 64)
    {teams : List TeamEvidenceInput} {seen : List Bytes} {crowns k : ℕ}
    (h : validateTeams objectiveCount seen crowns teams = .ok k) :
    (∀ team ∈ teams, TeamFits team) ∧
      (teams.map fun team => hexDecode team.tokenHash.toList).Nodup ∧
      ∀ team ∈ teams, hexDecode team.tokenHash.toList ∉ seen := by
  induction teams generalizing seen crowns with
  | nil => simp
  | cons team teams ih =>
      rw [validateTeams, bind_eq_ok_iff] at h
      obtain ⟨tokenHash, htoken, h⟩ := h
      unfold parseTokenHash at htoken
      split at htoken
      case isFalse => cases htoken
      case isTrue hcanonical =>
        obtain rfl := Except.ok.inj htoken
        split at h
        case isTrue => cases h
        case isFalse hfresh =>
          obtain ⟨u, hactivity, h⟩ := bind_eq_ok_iff.mp h
          split at h
          case isTrue => cases h
          case isFalse hlength =>
            obtain ⟨u', hobjectives, h⟩ := bind_eq_ok_iff.mp h
            obtain ⟨hfits, hnodup, hseen⟩ := ih h
            have hteam : TeamFits team := by
              refine ⟨length_of_canonicalContext hcanonical, ratioFits_of_validateRatio hactivity,
                by omega, fun objective hobjective => ?_⟩
              exact ratioFits_of_validateRatio (forall_of_forM hobjectives objective hobjective)
            refine ⟨List.forall_mem_cons.mpr ⟨hteam, hfits⟩, ?_, ?_⟩
            · rw [List.map_cons, List.nodup_cons]
              refine ⟨fun hmem => ?_, hnodup⟩
              obtain ⟨other, hother, heq⟩ := List.mem_map.mp hmem
              exact hseen other hother (heq ▸ List.mem_cons_self)
            · refine List.forall_mem_cons.mpr ⟨hfresh, fun other hother hmem => ?_⟩
              exact hseen other hother (List.mem_cons_of_mem _ hmem)

theorem length_le_of_canonicalWaveId {text : String} (h : canonicalWaveId text = true) :
    (utf8 text).length ≤ 128 := by
  rw [canonicalWaveId, Bool.and_eq_true, Bool.and_eq_true, decide_eq_true_eq] at h
  rw [length_utf8]
  exact h.1.2

theorem length_le_of_canonicalObjectiveId {text : String} (h : canonicalObjectiveId text = true) :
    (utf8 text).length ≤ 64 := by
  rw [canonicalObjectiveId, Bool.and_eq_true, Bool.and_eq_true, decide_eq_true_eq] at h
  rw [length_utf8]
  exact h.1.2

theorem canonical_of_validateObjectiveIds {ids seen : List String} {u : Unit}
    (h : validateObjectiveIds seen ids = .ok u) : ∀ id ∈ ids, canonicalObjectiveId id = true := by
  induction ids generalizing seen with
  | nil => simp
  | cons id ids ih =>
      unfold validateObjectiveIds at h
      split at h
      case isTrue => cases h
      case isFalse hvalid =>
        rw [Bool.or_eq_true, not_or, Bool.not_eq_true', Bool.not_eq_false] at hvalid
        exact List.forall_mem_cons.mpr ⟨hvalid.1, ih h⟩

/-- The waves of an accepted input fit their encoding, and their names are distinct. -/
theorem fits_of_validateWaves {objectiveCount : ℕ} (hcount : objectiveCount < 2 ^ 64)
    {waves : List WaveEvidenceInput} (htyped : ∀ wave ∈ waves, wave.endedAtUnixMs < 2 ^ 63)
    (hteams : ∀ wave ∈ waves, wave.teams.length < 2 ^ 64) {seen : List String} {u : Unit}
    (h : validateWaves objectiveCount seen waves = .ok u) :
    (∀ wave ∈ waves, WaveFits wave ∧ (wave.teams.map (·.tokenHash)).Nodup) ∧
      (waves.map (·.waveId)).Nodup ∧ ∀ wave ∈ waves, wave.waveId ∉ seen := by
  induction waves generalizing seen with
  | nil => simp
  | cons wave waves ih =>
      rw [validateWaves] at h
      split at h
      case isTrue => cases h
      case isFalse hid =>
        rw [Bool.or_eq_true, not_or, Bool.not_eq_true', Bool.not_eq_false, decide_eq_true_eq] at hid
        split at h
        case isTrue => cases h
        case isFalse hended =>
          obtain ⟨crowns, hvalid, h⟩ := bind_eq_ok_iff.mp h
          split at h
          case isTrue => cases h
          case isFalse =>
            obtain ⟨hfits, hnodup, hseen⟩ := ih (List.forall_mem_cons.mp htyped).2
              (List.forall_mem_cons.mp hteams).2 h
            obtain ⟨hteamFits, htokens, -⟩ := fits_of_validateTeams hcount hvalid
            have htyped := (List.forall_mem_cons.mp htyped).1
            have hwave : WaveFits wave := by
              refine ⟨?_, ⟨by omega, htyped⟩, (List.forall_mem_cons.mp hteams).1, hteamFits⟩
              have hlength := length_le_of_canonicalWaveId hid.1
              omega
            have htexts : (wave.teams.map (·.tokenHash)).Nodup := by
              refine List.Nodup.of_map (fun text => hexDecode text.toList) ?_
              rw [List.map_map]
              exact htokens
            refine ⟨List.forall_mem_cons.mpr ⟨⟨hwave, htexts⟩, hfits⟩, ?_, ?_⟩
            · rw [List.map_cons, List.nodup_cons]
              refine ⟨fun hmem => ?_, hnodup⟩
              obtain ⟨other, hother, heq⟩ := List.mem_map.mp hmem
              exact hseen other hother (heq ▸ List.mem_cons_self)
            · refine List.forall_mem_cons.mpr ⟨hid.2, fun other hother hmem => ?_⟩
              exact hseen other hother (List.mem_cons_of_mem _ hmem)

/-- What the parser accepts fits its encoding, and its names are distinct. -/
theorem fits_of_accepted {decode : Bytes → Option KothArenaSnapshotInput}
    (hdecode : TypedDecode decode) {body : Bytes} {input : KothArenaSnapshotInput}
    (h : parseAndNormalize decode body = .ok input) : InputFits input ∧ Distinct input := by
  unfold parseAndNormalize at h
  split at h
  case h_1 => cases h
  case h_2 parsed hparsed =>
    split at h
    case isTrue => cases h
    case isFalse hcontext =>
      split at h
      case isTrue => cases h
      case isFalse hwaveCount =>
        split at h
        case isTrue => cases h
        case isFalse hteamCount =>
          split at h
          case isTrue => cases h
          case isFalse hids =>
            obtain ⟨u, hidsValid, h⟩ := bind_eq_ok_iff.mp h
            obtain ⟨u', hwavesValid, h⟩ := bind_eq_ok_iff.mp h
            cases h
            rw [Bool.not_eq_true', Bool.not_eq_false] at hcontext
            rw [Bool.or_eq_true, not_or, decide_eq_true_eq, not_lt, maxObjectives] at hids
            simp only [maxWaves, maxTeamEntries, not_lt] at hwaveCount hteamCount
            have hteams : ∀ wave ∈ input.waves, wave.teams.length < 2 ^ 64 := by
              intro wave hwave
              have hle : wave.teams.length ≤ (input.waves.flatMap WaveEvidenceInput.teams).length := by
                rw [List.flatMap_def]
                exact (List.sublist_flatten_of_mem (List.mem_map_of_mem hwave)).length_le
              omega
            obtain ⟨hfits, hnodup, -⟩ := fits_of_validateWaves (by omega) (hdecode body input hparsed)
              hteams hwavesValid
            have hcontextLength := length_of_canonicalContext hcontext
            refine ⟨⟨by omega, ⟨by omega, fun id hid => ?_⟩, by omega, fun wave hwave =>
              (hfits wave hwave).1⟩, hnodup, fun wave hwave => (hfits wave hwave).2⟩
            have hlength := length_le_of_canonicalObjectiveId
              (canonical_of_validateObjectiveIds hidsValid id hid)
            omega

end Accepted

/-- Two accepted inputs feed the hash the same bytes exactly when they are the same up to the
order of the waves and of the teams in a wave. -/
theorem canonicalInputBytes_eq_iff {decode : Bytes → Option KothArenaSnapshotInput}
    (hdecode : TypedDecode decode) {body body' : Bytes} {input input' : KothArenaSnapshotInput}
    (h : parseAndNormalize decode body = .ok input)
    (h' : parseAndNormalize decode body' = .ok input') :
    canonicalInputBytes input = canonicalInputBytes input' ↔ SameInput input input' := by
  obtain ⟨hfits, hdistinct⟩ := fits_of_accepted hdecode h
  obtain ⟨hfits', -⟩ := fits_of_accepted hdecode h'
  exact (canonicalInputBytes_eq_iff_canonicalInput hfits hfits').trans
    (canonicalInput_eq_iff hdistinct)

section Reordered

def digestTeam (digit : Char) : TeamEvidenceInput :=
  ⟨String.ofList (List.replicate 64 digit), ⟨1, 2⟩, [⟨3, 4⟩], false⟩

def digestInput (waves : List WaveEvidenceInput) : KothArenaSnapshotInput :=
  ⟨String.ofList (List.replicate 64 'c'), ["core"], waves⟩

/-- Two waves which end at one instant. -/
def listedInput : KothArenaSnapshotInput :=
  digestInput [⟨"w1", 5, [digestTeam 'a', digestTeam 'b']⟩, ⟨"w2", 5, [digestTeam 'a']⟩]

def reorderedInput : KothArenaSnapshotInput :=
  digestInput [⟨"w2", 5, [digestTeam 'a']⟩, ⟨"w1", 5, [digestTeam 'b', digestTeam 'a']⟩]

def digestDecode (body : Bytes) : Option KothArenaSnapshotInput :=
  if body = [] then some listedInput else some reorderedInput

theorem typedDecode_digestDecode : TypedDecode digestDecode := by
  intro body input h wave hwave
  unfold digestDecode at h
  split at h
  all_goals
    obtain rfl := Option.some.inj h
    revert wave
    decide

theorem canonicalInputBytes_eq_iff_reordered :
    canonicalInputBytes listedInput = canonicalInputBytes reorderedInput ↔
      SameInput listedInput reorderedInput :=
  have h : parseAndNormalize digestDecode [] = .ok listedInput := rfl
  have h' : parseAndNormalize digestDecode [Fin.ofNat 256 0] = .ok reorderedInput := rfl
  canonicalInputBytes_eq_iff typedDecode_digestDecode h h'

end Reordered

end Leaderboard

end Rsctf
