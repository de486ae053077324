import Rsctf.Leaderboard.Redaction

/-!
# Stored waves are materialisable

A wave is sound when its participations are distinct, its budgets are positive and its
crown is the unique leader.  Observations store sound waves only and a revocation keeps
a wave sound, so over every run the settlement never meets a wave whose crown it has to
refuse.
-/

open Fallible

namespace Rsctf

namespace Leaderboard

/-- The row is completed and has a greater ratio than every other completed row. -/
def EvidenceRow.LeadsAlone (rows : List EvidenceRow) (row : EvidenceRow) : Prop :=
  row.Completed ∧ ∀ other ∈ rows, other.Completed → row.ratio ≤ other.ratio → other = row

section Leaders

variable {rows : List EvidenceRow}

theorem mem_waveLeaders {row : EvidenceRow} :
    row ∈ waveLeaders rows ↔ row ∈ rows ∧ row.Completed ∧
      ∀ other ∈ rows, other.Completed → other.ratio ≤ row.ratio := by
  rw [waveLeaders_eq, Leaders.mem_leaders]
  simp [and_assoc]

theorem leaderIds_eq_singleton_iff (hnd : (rows.map EvidenceRow.participationId).Nodup)
    {row : EvidenceRow} (hrow : row ∈ rows) :
    leaderIds rows = [row.participationId] ↔ row.LeadsAlone rows := by
  have hsub : (waveLeaders rows).Sublist rows := by
    rw [waveLeaders_eq]
    exact List.filter_sublist.trans List.filter_sublist
  constructor
  · intro h
    obtain ⟨leader, hleaders, hid⟩ := List.map_eq_singleton_iff.mp h
    have hleader : leader ∈ waveLeaders rows := by
      rw [hleaders]
      exact List.mem_singleton_self leader
    obtain ⟨hmem, hcompleted, hmax⟩ := mem_waveLeaders.mp hleader
    obtain rfl := List.inj_on_of_nodup_map hnd hmem hrow hid
    refine ⟨hcompleted, fun other hother hdone hle => ?_⟩
    have hother : other ∈ waveLeaders rows :=
      mem_waveLeaders.mpr ⟨hother, hdone, fun rival hrival hrdone =>
        (hmax rival hrival hrdone).trans hle⟩
    rw [hleaders] at hother
    exact List.mem_singleton.mp hother
  · rintro ⟨hcompleted, halone⟩
    have hmax : ∀ other ∈ rows, other.Completed → other.ratio ≤ row.ratio := by
      intro other hother hdone
      rcases le_total other.ratio row.ratio with hle | hle
      · exact hle
      · rw [halone other hother hdone hle]
    have hleader : row ∈ waveLeaders rows := mem_waveLeaders.mpr ⟨hrow, hcompleted, hmax⟩
    have hall : ∀ other ∈ waveLeaders rows, other = row := by
      intro other hother
      obtain ⟨hmem, hdone, hbest⟩ := mem_waveLeaders.mp hother
      exact halone other hmem hdone (hbest row hrow hcompleted)
    have hsingle : waveLeaders rows = [row] := by
      have hnodup : (waveLeaders rows).Nodup := (hnd.of_map _).sublist hsub
      rw [List.eq_replicate_of_mem hall] at hnodup hleader ⊢
      have hle := List.nodup_replicate.mp hnodup
      have hne : (waveLeaders rows).length ≠ 0 := (List.mem_replicate.mp hleader).1
      have hone : (waveLeaders rows).length = 1 := by omega
      rw [hone, List.replicate_one]
    rw [leaderIds, hsingle, List.map_singleton]

/-- The verdict of the check: the crowned rows are those that lead alone. -/
theorem leaderboardCrownIsValid_iff_leadsAlone
    (hnd : (rows.map EvidenceRow.participationId).Nodup)
    (hactivity : ∀ row ∈ rows, 0 < row.activityPossible) :
    leaderboardCrownIsValid rows = true ↔
      ∀ row ∈ rows, row.isCrown = true ↔ row.LeadsAlone rows := by
  rw [leaderboardCrownIsValid_iff hactivity, ← Crowned, crowned_iff hnd]
  apply forall₂_congr
  intro row hrow
  rw [← leaderIds_eq_singleton_iff hnd hrow, Bool.eq_iff_iff, decide_eq_true_iff]

end Leaders

/-- A wave whose rows are keyed, budgeted and rightly crowned. -/
structure WaveSound (wave : ResolvedWave) : Prop where
  keyed : (wave.rows.map EvidenceRow.participationId).Nodup
  budgeted : ∀ row ∈ wave.rows, row.Budgeted
  crowned : Crowned wave.rows

/-- Remove rows from a wave and derive its crown again. -/
def redactWave (ids : List ℤ) (wave : ResolvedWave) : ResolvedWave :=
  { wave with rows := rederiveCrowns (wave.rows.filter fun row => !row.isOf ids) }

theorem map_demote_filter_isOf (ids : List ℤ) (rows : List EvidenceRow) :
    (rows.filter fun row => !row.isOf ids).map EvidenceRow.demote =
      (rows.map EvidenceRow.demote).filter fun row => !row.isOf ids := by
  rw [List.filter_map]
  rfl

/-- Removing in two steps is removing at once. -/
theorem redactWave_redactWave (ids ids' : List ℤ) (wave : ResolvedWave) :
    redactWave ids' (redactWave ids wave) = redactWave (ids ++ ids') wave := by
  have hrows : rederiveCrowns ((rederiveCrowns (wave.rows.filter fun row => !row.isOf ids)).filter
      fun row => !row.isOf ids') =
        rederiveCrowns (wave.rows.filter fun row => !row.isOf (ids ++ ids')) := by
    apply rederiveCrowns_congr
    rw [map_demote_filter_isOf, map_demote_rederiveCrowns, ← map_demote_filter_isOf,
      List.filter_filter]
    apply congrArg (List.map EvidenceRow.demote)
    apply List.filter_congr
    intro row _
    simp [EvidenceRow.isOf, Bool.and_comm]
  rw [redactWave, redactWave, redactWave, hrows]

theorem redactWave_congr {ids ids' : List ℤ} (h : ∀ id, id ∈ ids ↔ id ∈ ids')
    (wave : ResolvedWave) : redactWave ids wave = redactWave ids' wave := by
  have hisOf : (fun row : EvidenceRow => !row.isOf ids) = fun row => !row.isOf ids' := by
    funext row
    rw [EvidenceRow.isOf, EvidenceRow.isOf, decide_eq_decide.mpr (h row.participationId)]
  rw [redactWave, redactWave, hisOf]

/-- The rows that are left keep every column but the crown. -/
theorem map_demote_redactWave (ids : List ℤ) (wave : ResolvedWave) :
    (redactWave ids wave).rows.map EvidenceRow.demote =
      (wave.rows.filter fun row => !row.isOf ids).map EvidenceRow.demote :=
  map_demote_rederiveCrowns _

namespace WaveSound

variable {wave : ResolvedWave}

theorem redactWave (h : WaveSound wave) (ids : List ℤ) : WaveSound (redactWave ids wave) where
  keyed := by
    rw [Leaderboard.redactWave, map_participationId_rederiveCrowns]
    exact h.keyed.sublist (List.filter_sublist.map _)
  budgeted := by
    intro row hrow
    rw [Leaderboard.redactWave, rederiveCrowns_eq] at hrow
    obtain ⟨source, hsource, rfl⟩ := List.mem_map.mp hrow
    exact h.budgeted source (List.mem_of_mem_filter hsource)
  crowned := crowned_rederiveCrowns (h.keyed.sublist (List.filter_sublist.map _))

/-- On a sound wave the crown can be derived again without effect. -/
theorem clearWave_eq (h : WaveSound wave) (ids : List ℤ) :
    clearWave ids wave = Leaderboard.redactWave ids wave := by
  rw [clearWave]
  split
  case isTrue => rfl
  case isFalse hnone =>
    have hall : (wave.rows.filter fun row => !row.isOf ids) = wave.rows := by
      apply List.filter_eq_self.mpr
      intro row hrow
      rw [List.any_eq_true, not_exists] at hnone
      have hout : row.isOf ids = false := by
        apply Bool.eq_false_of_not_eq_true
        exact fun hof => hnone row ⟨hrow, hof⟩
      rw [hout, Bool.not_false]
    rw [Leaderboard.redactWave, hall, rederiveCrowns_of_crowned h.keyed h.crowned]

theorem redactWave_nil (h : WaveSound wave) : Leaderboard.redactWave [] wave = wave := by
  have hall : (wave.rows.filter fun row => !row.isOf []) = wave.rows := by
    apply List.filter_eq_self.mpr
    intro row _
    rfl
  rw [Leaderboard.redactWave, hall, rederiveCrowns_of_crowned h.keyed h.crowned]

theorem crownIsValid (h : WaveSound wave) : leaderboardCrownIsValid wave.rows = true :=
  (leaderboardCrownIsValid_iff fun row hrow => (h.budgeted row hrow).1).mpr h.crowned

end WaveSound

/-- One snapshot for each target, and sound waves. -/
structure StoreSound (store : List Snapshot) : Prop where
  targets : (store.map Snapshot.targetId).Nodup
  waves : ∀ s ∈ store, ∀ wave ∈ s.waves, WaveSound wave

/-- A snapshot after a revocation. -/
def redacted (scope : Scope) (ids : List ℤ) (fence : Bool) (s : Snapshot) : Snapshot :=
  if touches scope ids fence s then (clearSnapshot ids s).bump else s

/-- The participations that a revocation removes from a snapshot. -/
def Scope.idsFor (scope : Scope) (ids : List ℤ) (s : Snapshot) : List ℤ :=
  if scope.covers s then ids else []

@[simp] theorem redacted_targetId (scope : Scope) (ids : List ℤ) (fence : Bool) (s : Snapshot) :
    (redacted scope ids fence s).targetId = s.targetId := by
  rw [redacted]
  split <;> rfl

theorem covers_redacted (other scope : Scope) (ids : List ℤ) (fence : Bool) (s : Snapshot) :
    other.covers (redacted scope ids fence s) = other.covers s := by
  rw [redacted]
  split <;> rfl

theorem clearSnapshot_waves {s : Snapshot} (h : ∀ wave ∈ s.waves, WaveSound wave) (ids : List ℤ) :
    (clearSnapshot ids s).waves = s.waves.map (redactWave ids) :=
  List.map_congr_left fun wave hwave => (h wave hwave).clearWave_eq ids

theorem map_redactWave_nil {waves : List ResolvedWave} (h : ∀ wave ∈ waves, WaveSound wave) :
    waves.map (redactWave []) = waves :=
  (List.map_congr_left fun wave hwave => (h wave hwave).redactWave_nil).trans (List.map_id _)

/-- Touched or not, a snapshot of the scope loses exactly the removed participations. -/
theorem redacted_waves {s : Snapshot} (h : ∀ wave ∈ s.waves, WaveSound wave) (scope : Scope)
    (ids : List ℤ) (fence : Bool) :
    (redacted scope ids fence s).waves = s.waves.map (redactWave (scope.idsFor ids s)) := by
  rw [redacted, Scope.idsFor]
  by_cases hcovers : scope.covers s = true
  · rw [if_pos hcovers]
    split
    case isTrue => exact clearSnapshot_waves h ids
    case isFalse htouch =>
      rw [← clearSnapshot_waves h ids]
      by_cases hids : ids.isEmpty = true
      · rw [List.isEmpty_iff.mp hids, clearSnapshot_waves h, map_redactWave_nil h]
      · have hnone : fence = false ∧ removedScoreWaves ids s = [] := by
          simpa [touches, locks, hids, hcovers] using htouch
        rw [clearSnapshot_of_no_rows hnone.2]
  · have htouch : touches scope ids fence s = false := by
      simp [touches, locks, hcovers]
    rw [if_neg hcovers, htouch, if_neg Bool.false_ne_true, map_redactWave_nil h]

theorem redacted_sound {s : Snapshot} (h : ∀ wave ∈ s.waves, WaveSound wave) (scope : Scope)
    (ids : List ℤ) (fence : Bool) :
    ∀ wave ∈ (redacted scope ids fence s).waves, WaveSound wave := by
  rw [redacted_waves h, List.forall_mem_map]
  exact fun wave hwave => (h wave hwave).redactWave _

/-- A touched snapshot is told apart by its version. -/
theorem redacted_snapshotHash_ne {scope : Scope} {ids : List ℤ} {fence : Bool} {s : Snapshot}
    (h : touches scope ids fence s = true) :
    (redacted scope ids fence s).snapshotHash ≠ s.snapshotHash := by
  rw [redacted, if_pos h]
  exact nextDigest_ne s.snapshotHash

namespace StoreSound

variable {store store' : List Snapshot}

theorem nil : StoreSound [] where
  targets := List.nodup_nil
  waves := fun _ hs => absurd hs List.not_mem_nil

/-- A change of the snapshots one by one. -/
theorem map (h : StoreSound store) {f : Snapshot → Snapshot}
    (htarget : ∀ s, (f s).targetId = s.targetId)
    (hwaves : ∀ s ∈ store, ∀ wave ∈ (f s).waves, WaveSound wave) : StoreSound (store.map f) where
  targets := by
    have htargets : Snapshot.targetId ∘ f = Snapshot.targetId := funext htarget
    rw [List.map_map, htargets]
    exact h.targets
  waves := List.forall_mem_map.mpr hwaves

theorem map_redacted (h : StoreSound store) (scope : Scope) (ids : List ℤ) (fence : Bool) :
    StoreSound (store.map (redacted scope ids fence)) :=
  h.map (redacted_targetId scope ids fence) fun s hs =>
    redacted_sound (h.waves s hs) scope ids fence

theorem clear_spec (h : StoreSound store) (scope : Scope) (ids : List ℤ) (fence : Bool) :
    ∃ removed, clearUnsettledScoresInner store scope ids fence =
      .ok (store.map (redacted scope ids fence), removed) :=
  clearUnsettledScoresInner_spec h.targets scope ids fence

theorem clear_eq (h : StoreSound store) {scope : Scope} {ids : List ℤ} {fence : Bool}
    {removed : ℕ} (hclear : clearUnsettledScoresInner store scope ids fence = .ok (store', removed)) :
    store' = store.map (redacted scope ids fence) := by
  obtain ⟨count, hspec⟩ := h.clear_spec scope ids fence
  rw [hspec] at hclear
  cases hclear
  rfl

/-- The rebase of a target is the revocation of the participations that are not
eligible any more. -/
theorem retain_eq (h : StoreSound store) {gameId challengeId targetId : ℤ} {eligible : List ℤ}
    (hretain : retainEligibleUnsettledScores store gameId challengeId targetId eligible =
      .ok store') :
    store' = store.map (redacted (Scope.ofTarget gameId challengeId targetId)
      (staleParticipations store gameId challengeId targetId eligible) false) := by
  unfold retainEligibleUnsettledScores at hretain
  obtain ⟨⟨rebased, removed⟩, hclear, rfl⟩ := map_eq_ok_iff.mp hretain
  exact h.clear_eq hclear

/-- An accepted insertion or replacement keeps one snapshot for each target. -/
theorem upsert (h : StoreSound store) {s : Snapshot} (hwaves : s.waves = [])
    {clock roundEndsAt : ℤ} (hupsert : upsertSnapshot store s clock roundEndsAt = .ok store') :
    StoreSound store' := by
  unfold upsertSnapshot at hupsert
  split at hupsert
  case isTrue => cases hupsert
  case isFalse =>
    split at hupsert
    case h_1 hnone =>
      cases hupsert
      constructor
      · rw [List.map_append, List.map_singleton]
        rw [← List.concat_eq_append]
        apply List.Nodup.concat _ h.targets
        intro hmem
        obtain ⟨other, hother, htarget⟩ := List.mem_map.mp hmem
        exact absurd (decide_eq_true htarget) (List.find?_eq_none.mp hnone other hother)
      · intro other hother
        rcases List.mem_append.mp hother with hother | hother
        · exact h.waves other hother
        · rw [List.mem_singleton.mp hother, hwaves]
          simp
    case h_2 =>
      split at hupsert
      case isFalse => cases hupsert
      case isTrue =>
        cases hupsert
        apply h.map
        · intro other
          split
          case isTrue htarget => exact htarget.symm
          case isFalse => rfl
        · intro other hother
          split
          · exact h.waves other hother
          · exact h.waves other hother

theorem replace (h : StoreSound store) {targetId : ℤ} {waves : List ResolvedWave}
    (hbudget : ∀ wave ∈ waves, ∀ row ∈ wave.rows, row.Budgeted)
    (hvalid : ∀ wave ∈ waves, leaderboardCrownIsValid wave.rows = true)
    (hreplace : replaceSnapshotRows store targetId waves = .ok store') : StoreSound store' := by
  unfold replaceSnapshotRows at hreplace
  split at hreplace
  case isFalse => cases hreplace
  case isTrue hkeyed =>
    cases hreplace
    have hsound : ∀ wave ∈ waves, WaveSound wave := by
      intro wave hwave
      have hactivity : ∀ row ∈ wave.rows, 0 < row.activityPossible := fun row hrow =>
        (hbudget wave hwave row hrow).1
      exact ⟨(hkeyed.2 wave hwave).1, hbudget wave hwave,
        (leaderboardCrownIsValid_iff hactivity).mp (hvalid wave hwave)⟩
    apply h.map
    · intro s
      split <;> rfl
    · intro s hs
      split
      · exact hsound
      · exact h.waves s hs

theorem rebase_eq (h : StoreSound store) {textLE : String → String → Bool}
    {gameId challengeId : ℤ} {identity : Identity} {eligible : List ℤ} {waves : List ResolvedWave}
    (hrebase : rebaseStored textLE store gameId challengeId identity eligible waves = .ok store') :
    store' = store.map (redacted (Scope.ofTarget gameId challengeId identity.targetId)
        (staleParticipations store gameId challengeId identity.targetId eligible) false) ∧
      ensureExtendsStored textLE store' identity waves = .ok () := by
  unfold rebaseStored at hrebase
  obtain ⟨rebased, hretain, hrebase⟩ := bind_eq_ok_iff.mp hrebase
  obtain ⟨u, hextends, hrebase⟩ := bind_eq_ok_iff.mp hrebase
  cases hrebase
  exact ⟨h.retain_eq hretain, hextends⟩

theorem storeSnapshot (h : StoreSound store) {s : Snapshot} {clock roundEndsAt : ℤ}
    (hbudget : ∀ wave ∈ s.waves, ∀ row ∈ wave.rows, row.Budgeted)
    (hvalid : ∀ wave ∈ s.waves, leaderboardCrownIsValid wave.rows = true)
    (hstore : Leaderboard.storeSnapshot store s clock roundEndsAt = .ok store') :
    StoreSound store' := by
  unfold Leaderboard.storeSnapshot at hstore
  obtain ⟨upserted, hupsert, hreplace⟩ := bind_eq_ok_iff.mp hstore
  exact (h.upsert rfl hupsert).replace hbudget hvalid hreplace

theorem record (h : StoreSound store) {textLE : String → String → Bool} {s : Snapshot}
    {eligible : List ℤ} {clock roundEndsAt : ℤ}
    (hbudget : ∀ wave ∈ s.waves, ∀ row ∈ wave.rows, row.Budgeted)
    (hvalid : ∀ wave ∈ s.waves, leaderboardCrownIsValid wave.rows = true)
    (hrecord : recordObservation textLE store s eligible clock roundEndsAt = .ok store') :
    StoreSound store' := by
  unfold recordObservation at hrecord
  obtain ⟨rebased, hrebase, hstore⟩ := bind_eq_ok_iff.mp hrecord
  obtain ⟨rfl, -⟩ := h.rebase_eq hrebase
  exact (h.map_redacted _ _ _).storeSnapshot hbudget hvalid hstore

end StoreSound

section Runs

variable (decode : Bytes → Option KothArenaSnapshotInput) (sha256 : String → Bytes)
  (textLE : String → String → Bool)

/-- The stores that accepted observations and revocations lead to. -/
inductive StoreRun : List Snapshot → Prop
  | empty : StoreRun []
  | observe {store store' : List Snapshot} {body : Bytes}
      {capabilities : List EligibleApiCapability} {s : Snapshot} {clock roundEndsAt : ℤ}
      (run : StoreRun store)
      (admitted : admitWaves decode sha256 capabilities body = .ok s.waves)
      (recorded : recordObservation textLE store s
        (capabilities.map EligibleApiCapability.participationId) clock roundEndsAt = .ok store') :
      StoreRun store'
  | redact {store store' : List Snapshot} {scope : Scope} {ids : List ℤ} {fence : Bool}
      {removed : ℕ} (run : StoreRun store)
      (cleared : clearUnsettledScoresInner store scope ids fence = .ok (store', removed)) :
      StoreRun store'

variable {decode sha256 textLE} {store : List Snapshot}

/-- The waves of an accepted body are budgeted and pass the crown check. -/
theorem admitWaves_ok {capabilities : List EligibleApiCapability} {body : Bytes}
    {waves : List ResolvedWave} (h : admitWaves decode sha256 capabilities body = .ok waves) :
    (∀ wave ∈ waves, ∀ row ∈ wave.rows, row.Budgeted) ∧
      ∀ wave ∈ waves, leaderboardCrownIsValid wave.rows = true := by
  unfold admitWaves at h
  obtain ⟨input, hinput, h⟩ := bind_eq_ok_iff.mp h
  obtain ⟨resolved, hresolved, h⟩ := bind_eq_ok_iff.mp h
  obtain ⟨u, hcrowns, h⟩ := bind_eq_ok_iff.mp h
  cases h
  exact ⟨budgeted_of_accepted hinput hresolved, fun wave hwave =>
    validateResolvedCrowns_ok hcrowns hwave⟩

/-- Every reachable store is sound. -/
theorem StoreRun.sound (run : StoreRun decode sha256 textLE store) : StoreSound store := by
  induction run with
  | empty => exact StoreSound.nil
  | observe _ admitted recorded ih =>
      obtain ⟨hbudget, hvalid⟩ := admitWaves_ok admitted
      exact ih.record hbudget hvalid recorded
  | redact _ cleared ih =>
      rw [ih.clear_eq cleared]
      exact ih.map_redacted _ _ _

end Runs

/-- One revocation. -/
structure Redaction where
  scope : Scope
  ids : List ℤ
  fence : Bool

/-- Several revocations, one after the other. -/
def redactAll (store : List Snapshot) : List Redaction → Except AppError (List Snapshot)
  | [] => .ok store
  | r :: rest => do
      let (cleared, _) ← clearUnsettledScoresInner store r.scope r.ids r.fence
      redactAll cleared rest

/-- Everything that revocations remove from a snapshot. -/
def idsForAll (redactions : List Redaction) (s : Snapshot) : List ℤ :=
  redactions.flatMap fun r => r.scope.idsFor r.ids s

/-- The waves of every target. -/
def contents (store : List Snapshot) : List (ℤ × List ResolvedWave) :=
  store.map fun s => (s.targetId, s.waves)

theorem idsForAll_redacted (redactions : List Redaction) (r : Redaction) (s : Snapshot) :
    idsForAll redactions (redacted r.scope r.ids r.fence s) = idsForAll redactions s := by
  apply List.flatMap_congr
  intro other _
  rw [Scope.idsFor, Scope.idsFor, covers_redacted]

/-- Revocations in a row remove everything they are about, whatever the order. -/
theorem redactAll_spec {store : List Snapshot} (h : StoreSound store)
    (redactions : List Redaction) :
    ∃ store', redactAll store redactions = .ok store' ∧
      contents store' = store.map fun s =>
        (s.targetId, s.waves.map (redactWave (idsForAll redactions s))) := by
  induction redactions generalizing store with
  | nil =>
      refine ⟨store, rfl, ?_⟩
      apply List.map_congr_left
      intro s hs
      exact congrArg (Prod.mk s.targetId) (map_redactWave_nil (h.waves s hs)).symm
  | cons r redactions ih =>
      obtain ⟨removed, hclear⟩ := h.clear_spec r.scope r.ids r.fence
      obtain ⟨store', hrest, hcontents⟩ := ih (h.map_redacted r.scope r.ids r.fence)
      refine ⟨store', ?_, ?_⟩
      · rw [redactAll, hclear]
        exact hrest
      · rw [hcontents, List.map_map]
        apply List.map_congr_left
        intro s hs
        have hwaves : (redacted r.scope r.ids r.fence s).waves.map
            (redactWave (idsForAll redactions s)) =
              s.waves.map (redactWave (idsForAll (r :: redactions) s)) := by
          rw [redacted_waves (h.waves s hs), List.map_map]
          apply List.map_congr_left
          intro wave _
          exact redactWave_redactWave _ _ wave
        rw [Function.comp_apply, idsForAll_redacted, redacted_targetId, hwaves]

/-- What a revocation makes of a snapshot: the other participations keep all columns but
the crown, and a touched snapshot gets another version. -/
structure RevokedTo (scope : Scope) (ids : List ℤ) (fence : Bool) (s s' : Snapshot) : Prop where
  identity : s'.identity = s.identity
  waves : List.Forall₂ (fun wave wave' : ResolvedWave =>
    wave'.waveId = wave.waveId ∧ wave'.endedAt = wave.endedAt ∧
      wave'.rows.map EvidenceRow.demote =
        (wave.rows.filter fun row => !row.isOf (scope.idsFor ids s)).map EvidenceRow.demote)
    s.waves s'.waves
  version : touches scope ids fence s = true → s'.snapshotHash ≠ s.snapshotHash
  untouched : touches scope ids fence s = false → s' = s

theorem revokedTo_redacted {s : Snapshot} (h : ∀ wave ∈ s.waves, WaveSound wave) (scope : Scope)
    (ids : List ℤ) (fence : Bool) : RevokedTo scope ids fence s (redacted scope ids fence s) where
  identity := by
    rw [redacted]
    split <;> rfl
  waves := by
    rw [redacted_waves h, List.forall₂_map_right_iff, List.forall₂_same]
    exact fun wave _ => ⟨rfl, rfl, map_demote_redactWave _ wave⟩
  version := redacted_snapshotHash_ne
  untouched := fun htouch => if_neg (Bool.not_eq_true _ ▸ htouch)

/-- The crown check accepts a sound wave, and of all crowns on its rows no other. -/
theorem WaveSound.verdict {wave : ResolvedWave} (h : WaveSound wave) {rows : List EvidenceRow}
    (hrows : rows.map EvidenceRow.demote = wave.rows.map EvidenceRow.demote) :
    leaderboardCrownIsValid rows = true ↔
      ∀ row ∈ rows, row.isCrown = true ↔ row.LeadsAlone rows := by
  apply leaderboardCrownIsValid_iff_leadsAlone
  · have hids := congrArg (List.map EvidenceRow.participationId) hrows
    rw [List.map_map, List.map_map] at hids
    exact hids ▸ h.keyed
  · intro row hrow
    have hmem : row.demote ∈ wave.rows.map EvidenceRow.demote :=
      hrows ▸ List.mem_map_of_mem hrow
    obtain ⟨source, hsource, heq⟩ := List.mem_map.mp hmem
    have hpossible := congrArg EvidenceRow.activityPossible heq
    exact lt_of_lt_of_eq (h.budgeted source hsource).1 hpossible

/-- Whatever observations and revocations came before, every stored wave passes the
crown check, whose verdict is that the crown rows are those that lead alone; a
revocation keeps the other rows and tells touched snapshots apart; and the order of
revocations does not matter. -/
theorem storedSnapshots_materialisable {decode : Bytes → Option KothArenaSnapshotInput}
    {sha256 : String → Bytes} {textLE : String → String → Bool} {store : List Snapshot}
    (run : StoreRun decode sha256 textLE store) :
    (∀ s ∈ store, ∀ wave ∈ s.waves, leaderboardCrownIsValid wave.rows = true ∧
      ∀ rows : List EvidenceRow,
        rows.map EvidenceRow.demote = wave.rows.map EvidenceRow.demote →
          (leaderboardCrownIsValid rows = true ↔
            ∀ row ∈ rows, row.isCrown = true ↔ row.LeadsAlone rows)) ∧
    (∀ (scope : Scope) (ids : List ℤ) (fence : Bool), ∃ store' removed,
      clearUnsettledScoresInner store scope ids fence = .ok (store', removed) ∧
        List.Forall₂ (RevokedTo scope ids fence) store store') ∧
    (∀ redactions redactions' : List Redaction,
      (∀ s ∈ store, ∀ id, id ∈ idsForAll redactions s ↔ id ∈ idsForAll redactions' s) →
        ∃ store₁ store₂, redactAll store redactions = .ok store₁ ∧
          redactAll store redactions' = .ok store₂ ∧ contents store₁ = contents store₂) := by
  have hsound := run.sound
  refine ⟨?_, ?_, ?_⟩
  · intro s hs wave hwave
    have hwave := hsound.waves s hs wave hwave
    exact ⟨hwave.crownIsValid, fun rows hrows => hwave.verdict hrows⟩
  · intro scope ids fence
    obtain ⟨removed, hclear⟩ := hsound.clear_spec scope ids fence
    refine ⟨_, removed, hclear, ?_⟩
    rw [List.forall₂_map_right_iff, List.forall₂_same]
    exact fun s hs => revokedTo_redacted (hsound.waves s hs) scope ids fence
  · intro redactions redactions' hsame
    obtain ⟨store₁, hredact₁, hcontents₁⟩ := redactAll_spec hsound redactions
    obtain ⟨store₂, hredact₂, hcontents₂⟩ := redactAll_spec hsound redactions'
    refine ⟨store₁, store₂, hredact₁, hredact₂, ?_⟩
    rw [hcontents₁, hcontents₂]
    apply List.map_congr_left
    intro s hs
    have hwaves := List.map_congr_left (l := s.waves) fun wave _ =>
      redactWave_congr (hsame s hs) wave
    rw [hwaves]

/-- Two teams finish a wave, the second with the better ratio. -/
def closeRace : KothArenaSnapshotInput where
  context := "00000000000000000000000000000000" ++ "00000000000000000000000000000000"
  objectiveIds := ["core"]
  waves := [{
    waveId := "w1"
    endedAtUnixMs := 1000
    teams := [
      { tokenHash := "0000000000000000000000000000000000000000000000000000000000000001"
        activity := ⟨1, 1⟩, objectives := [⟨1, 2⟩], isCrown := false },
      { tokenHash := "0000000000000000000000000000000000000000000000000000000000000002"
        activity := ⟨1, 1⟩, objectives := [⟨2, 3⟩], isCrown := true }] }]

def closeRaceDecode (_ : Bytes) : Option KothArenaSnapshotInput := some closeRace

def zeroByte : Fin 256 := ⟨0, Nat.succ_pos 255⟩

/-- A hash that tells the two tokens apart. -/
def letterHash (token : String) : Bytes :=
  List.replicate 31 zeroByte ++ [if token = "a" then wrappingSucc zeroByte
    else wrappingSucc (wrappingSucc zeroByte)]

def closeRaceCapabilities : List EligibleApiCapability := [⟨7, "a"⟩, ⟨8, "b"⟩]

def closeRaceWaves : List ResolvedWave :=
  [⟨"w1", 1000000, [⟨7, 1, 1, 500000, 1000000, 1, false⟩, ⟨8, 1, 1, 666667, 1000000, 1, true⟩]⟩]

theorem zeroDigest_length : (List.replicate 32 zeroByte).length = 32 := rfl

def closeRaceSnapshot : Snapshot where
  identity := ⟨1, 1, 1, 0, "c"⟩
  gameId := 1
  challengeId := 1
  contextHash := ""
  snapshotHash := ⟨List.replicate 32 zeroByte, zeroDigest_length⟩
  objectiveSchemaHash := []
  requestTimestamp := 5
  acceptedAt := 5
  waves := closeRaceWaves

/-- The snapshot after the winner is removed: the other team has the crown. -/
def closeRaceRevoked : Snapshot :=
  { closeRaceSnapshot with
    snapshotHash := nextDigest closeRaceSnapshot.snapshotHash
    waves := [⟨"w1", 1000000, [⟨7, 1, 1, 500000, 1000000, 1, true⟩]⟩] }

theorem closeRace_run :
    StoreRun closeRaceDecode letterHash (fun a b => decide (a ≤ b)) [closeRaceRevoked] := by
  have hadmit : admitWaves closeRaceDecode letterHash closeRaceCapabilities [] =
      .ok closeRaceWaves := rfl
  have hrecord : recordObservation (fun a b => decide (a ≤ b)) [] closeRaceSnapshot [7, 8] 5 60 =
      .ok [closeRaceSnapshot] := rfl
  have hclear : clearUnsettledScoresInner [closeRaceSnapshot] ⟨1, none, none⟩ [8] false =
      .ok ([closeRaceRevoked], 1) := rfl
  exact (StoreRun.empty.observe hadmit hrecord).redact hclear

theorem storedSnapshots_materialisable_closeRace :
    leaderboardCrownIsValid [⟨7, 1, 1, 500000, 1000000, 1, true⟩] = true ∧
      ∃ store' removed, clearUnsettledScoresInner [closeRaceRevoked] ⟨1, some 1, none⟩ [7] true =
          .ok (store', removed) ∧
        List.Forall₂ (RevokedTo ⟨1, some 1, none⟩ [7] true) [closeRaceRevoked] store' := by
  obtain ⟨hvalid, hrevoke, -⟩ := storedSnapshots_materialisable closeRace_run
  have hcrown := hvalid closeRaceRevoked (List.mem_singleton_self _) _ (List.mem_singleton_self _)
  exact ⟨hcrown.1, hrevoke ⟨1, some 1, none⟩ [7] true⟩

end Leaderboard

end Rsctf
