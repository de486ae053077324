import Rsctf.Leaderboard.SnapshotStore

/-!
# Redaction keeps every snapshot materialisable

The revocation of capabilities removes rows, derives the crowns of the touched waves
again and advances the version of every touched snapshot.  Stored waves therefore
always pass the crown check, and since a crown is a function of the other columns of
the rows that are left, the order of the removals does not matter.
-/

open Fallible

namespace Rsctf

namespace Leaderboard

theorem increment_ne {value : Bytes} (h : value ≠ []) : increment value ≠ value := by
  cases value with
  | nil => exact absurd rfl h
  | cons byte rest =>
      have hbyte : wrappingSucc byte ≠ byte := by
        intro heq
        have hval : (byte.val + 1) % 256 = byte.val := congrArg Fin.val heq
        omega
      rw [increment]
      split
      · exact fun heq => hbyte (List.cons_eq_cons.mp heq).1
      · exact fun heq => hbyte (List.cons_eq_cons.mp heq).1

/-- The next version of a digest. -/
def nextDigest (hash : Digest) : Digest :=
  ⟨(increment hash.val.reverse).reverse, by simpa using hash.property⟩

theorem nextSnapshotVersion_digest (hash : Digest) :
    nextSnapshotVersion hash.val = .ok (nextDigest hash) :=
  dif_pos hash.property

/-- A version is never its own successor, also when the counter wraps around. -/
theorem nextDigest_ne (hash : Digest) : nextDigest hash ≠ hash := by
  intro heq
  have hval : (increment hash.val.reverse).reverse = hash.val := congrArg Subtype.val heq
  have hne : hash.val.reverse ≠ [] := by
    intro hnil
    have hlength := hash.property
    rw [List.reverse_eq_nil_iff.mp hnil] at hlength
    exact absurd hlength (by decide)
  have hreverse := congrArg List.reverse hval
  rw [List.reverse_reverse] at hreverse
  exact increment_ne hne hreverse

def Snapshot.bump (s : Snapshot) : Snapshot := { s with snapshotHash := nextDigest s.snapshotHash }

@[simp] theorem Snapshot.bump_targetId (s : Snapshot) : s.bump.targetId = s.targetId := rfl

@[simp] theorem Snapshot.bump_waves (s : Snapshot) : s.bump.waves = s.waves := rfl

@[simp] theorem clearSnapshot_targetId (ids : List ℤ) (s : Snapshot) :
    (clearSnapshot ids s).targetId = s.targetId := rfl

theorem bumpSnapshotVersions_eq (store : List Snapshot) (targets : List ℤ) :
    bumpSnapshotVersions store targets =
      .ok (store.map fun s => if s.targetId ∈ targets then s.bump else s) := by
  apply mapM_eq_ok_map
  intro s _
  split
  · rw [nextSnapshotVersion_digest]
    rfl
  · rfl

/-- Whether a revocation touches a snapshot. -/
def touches (scope : Scope) (ids : List ℤ) (fence : Bool) (s : Snapshot) : Bool :=
  !ids.isEmpty && locks scope ids fence s

theorem removedScoreWaves_eq_nil_iff {ids : List ℤ} {s : Snapshot} :
    removedScoreWaves ids s = [] ↔
      ∀ wave ∈ s.waves, ∀ row ∈ wave.rows, row.participationId ∉ ids := by
  simp [removedScoreWaves, EvidenceRow.isOf]

/-- A snapshot without rows of the removed participations is left as it is. -/
theorem clearSnapshot_of_no_rows {ids : List ℤ} {s : Snapshot}
    (h : removedScoreWaves ids s = []) : clearSnapshot ids s = s := by
  have hwaves : ∀ wave ∈ s.waves, clearWave ids wave = id wave := by
    intro wave hwave
    apply if_neg
    rw [List.any_eq_true]
    rintro ⟨row, hrow, hof⟩
    exact removedScoreWaves_eq_nil_iff.mp h wave hwave row hrow (of_decide_eq_true hof)
  rw [clearSnapshot, List.map_congr_left hwaves, List.map_id]

section Spec

variable {store : List Snapshot}

theorem mem_filter_targets (hnd : (store.map Snapshot.targetId).Nodup) (p : Snapshot → Bool)
    {s : Snapshot} (hs : s ∈ store) :
    s.targetId ∈ (store.filter p).map Snapshot.targetId ↔ p s = true := by
  constructor
  · intro h
    obtain ⟨other, hother, htarget⟩ := List.mem_map.mp h
    obtain ⟨hmem, hp⟩ := List.mem_filter.mp hother
    rwa [← List.inj_on_of_nodup_map hnd hmem hs htarget]
  · intro hp
    exact List.mem_map_of_mem (List.mem_filter.mpr ⟨hs, hp⟩)

/-- Without a fence only snapshots with rows to remove are locked. -/
theorem removedScoreWaves_ne_nil {scope : Scope} {ids : List ℤ} {s : Snapshot}
    (h : locks scope ids false s = true) : removedScoreWaves ids s ≠ [] := by
  simpa [locks] using (Bool.and_eq_true_iff.mp h).2

theorem fst_of_mem_removedScoreWaves {ids : List ℤ} {s : Snapshot} {removed : ℤ × String}
    (h : removed ∈ removedScoreWaves ids s) : removed.1 = s.targetId := by
  obtain ⟨wave, -, h⟩ := List.mem_flatMap.mp h
  obtain ⟨row, -, rfl⟩ := List.mem_map.mp h
  rfl

/-- The affected targets are the locked snapshots with rows to remove. -/
theorem mem_affectedTargets {locked : List Snapshot} {ids : List ℤ} {target : ℤ} :
    target ∈ (locked.flatMap (removedScoreWaves ids)).map Prod.fst ↔
      ∃ s ∈ locked, s.targetId = target ∧ removedScoreWaves ids s ≠ [] := by
  constructor
  · intro h
    obtain ⟨removed, hremoved, rfl⟩ := List.mem_map.mp h
    obtain ⟨s, hs, hremoved⟩ := List.mem_flatMap.mp hremoved
    exact ⟨s, hs, (fst_of_mem_removedScoreWaves hremoved).symm, List.ne_nil_of_mem hremoved⟩
  · rintro ⟨s, hs, rfl, hne⟩
    obtain ⟨removed, hremoved⟩ := List.exists_mem_of_ne_nil _ hne
    rw [← fst_of_mem_removedScoreWaves hremoved]
    exact List.mem_map_of_mem (List.mem_flatMap.mpr ⟨s, hs, hremoved⟩)

/-- The statement touches every locked snapshot when there is something to remove. -/
theorem touched_eq_locked {scope : Scope} {ids : List ℤ} :
    let lockedIds := (store.filter (locks scope ids false)).map Snapshot.targetId
    let affected := ((store.filter (locks scope ids false)).flatMap
      (removedScoreWaves ids)).map Prod.fst
    (lockedIds.filter fun target => target ∈ affected) = lockedIds := by
  intro lockedIds affected
  apply List.filter_eq_self.mpr
  intro target htarget
  obtain ⟨s, hs, rfl⟩ := List.mem_map.mp htarget
  have hremoved := removedScoreWaves_ne_nil (List.mem_filter.mp hs).2
  exact decide_eq_true (mem_affectedTargets.mpr ⟨s, hs, rfl, hremoved⟩)

theorem length_dedup_affected (hnd : (store.map Snapshot.targetId).Nodup) {scope : Scope}
    {ids : List ℤ} :
    ((store.filter (locks scope ids false)).map Snapshot.targetId).length =
      (((store.filter (locks scope ids false)).flatMap
        (removedScoreWaves ids)).map Prod.fst).dedup.length := by
  apply List.Perm.length_eq
  apply (List.perm_ext_iff_of_nodup (hnd.sublist (List.filter_sublist.map _))
    (List.nodup_dedup _)).mpr
  intro target
  rw [List.mem_dedup, mem_affectedTargets]
  constructor
  · intro htarget
    obtain ⟨s, hs, rfl⟩ := List.mem_map.mp htarget
    exact ⟨s, hs, rfl, removedScoreWaves_ne_nil (List.mem_filter.mp hs).2⟩
  · rintro ⟨s, hs, rfl, -⟩
    exact List.mem_map_of_mem hs

/-- What a revocation does: touched snapshots lose the rows and get the next version,
all others stay. -/
theorem clearUnsettledScoresInner_spec (hnd : (store.map Snapshot.targetId).Nodup) (scope : Scope)
    (ids : List ℤ) (fence : Bool) :
    ∃ count, clearUnsettledScoresInner store scope ids fence =
      .ok (store.map fun s =>
        if touches scope ids fence s then (clearSnapshot ids s).bump else s, count) := by
  by_cases hids : ids.isEmpty = true
  · have hnone : ∀ s ∈ store,
        (if touches scope ids fence s then (clearSnapshot ids s).bump else s) = id s := by
      intro s _
      rw [touches, hids]
      rfl
    rw [clearUnsettledScoresInner, if_pos hids, List.map_congr_left hnone, List.map_id]
    exact ⟨0, rfl⟩
  have htouches : touches scope ids fence = locks scope ids fence := by
    funext s
    rw [touches, Bool.eq_false_of_not_eq_true hids]
    rfl
  have hlocked : ∀ s ∈ store,
      s.targetId ∈ (store.filter (locks scope ids fence)).map Snapshot.targetId ↔
        locks scope ids fence s = true := fun s hs => mem_filter_targets hnd _ hs
  rw [clearUnsettledScoresInner, if_neg hids, htouches]
  by_cases hnil : ((store.filter (locks scope ids fence)).flatMap
      (removedScoreWaves ids)).isEmpty = true
  · have hunchanged : ∀ s ∈ store, locks scope ids fence s = true →
        removedScoreWaves ids s = [] := by
      intro s hs hlock
      exact List.flatMap_eq_nil_iff.mp (List.isEmpty_iff.mp hnil) s
        (List.mem_filter.mpr ⟨hs, hlock⟩)
    refine ⟨0, (if_pos hnil).trans ?_⟩
    cases fence with
    | true =>
        rw [if_pos rfl, bumpSnapshotVersions_eq]
        apply congrArg fun rows => Except.ok (rows, 0)
        apply List.map_congr_left
        intro s hs
        simp only [hlocked s hs]
        split
        case isTrue hlock => rw [clearSnapshot_of_no_rows (hunchanged s hs hlock)]
        case isFalse => rfl
    | false =>
        rw [if_neg Bool.false_ne_true]
        apply congrArg fun rows => Except.ok (rows, 0)
        symm
        apply (List.map_congr_left fun s hs => ?_).trans (List.map_id store)
        rw [if_neg fun hlock => removedScoreWaves_ne_nil hlock (hunchanged s hs hlock)]
        rfl
  · have hcleared : ∀ targets : List ℤ,
        (∀ s ∈ store, s.targetId ∈ targets ↔ locks scope ids fence s = true) →
        bumpSnapshotVersions (store.map fun s =>
            if s.targetId ∈ (store.filter (locks scope ids fence)).map Snapshot.targetId then
              clearSnapshot ids s else s) targets =
          .ok (store.map fun s =>
            if locks scope ids fence s then (clearSnapshot ids s).bump else s) := by
      intro targets htargets
      rw [bumpSnapshotVersions_eq, List.map_map]
      apply congrArg Except.ok
      apply List.map_congr_left
      intro s hs
      rw [Function.comp_apply]
      simp only [hlocked s hs]
      by_cases hlock : locks scope ids fence s = true
      · simp [hlock, htargets s hs]
      · simp [hlock, htargets s hs]
    apply Exists.intro ((store.filter (locks scope ids fence)).flatMap
      (removedScoreWaves ids)).length
    apply (if_neg hnil).trans
    cases fence with
    | true =>
        simp only [Bool.not_true, Bool.false_and, Bool.false_eq_true, if_false, if_true]
        rw [hcleared _ hlocked]
        rfl
    | false =>
        simp only [Bool.not_false, Bool.true_and, Bool.false_eq_true, if_false]
        rw [touched_eq_locked, length_dedup_affected hnd, bne_self_eq_false,
          if_neg Bool.false_ne_true, hcleared _ hlocked]
        rfl

end Spec

end Leaderboard

end Rsctf
