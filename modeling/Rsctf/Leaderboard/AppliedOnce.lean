import Rsctf.Leaderboard.ObservationRun

/-!
# Observations are applied once

Over every run the store agrees with the history: the waves of a target are those of
its last commit without the participations revoked since.  A commit passes the
comparison with exactly these waves and a snapshot of the same identity is replaced by
a newer one only, so the waves of an identity only grow and its timestamps increase.
-/

open Fallible

namespace Rsctf

namespace Leaderboard

section Store

variable {store store' : List Snapshot} {s : Snapshot} {clock roundEndsAt : ℤ}

/-- An insertion or replacement is refused unless it is newer. -/
theorem upsertSnapshot_ok (hnd : (store.map Snapshot.targetId).Nodup)
    (h : upsertSnapshot store s clock roundEndsAt = .ok store') :
    (∀ old ∈ store, old.identity = s.identity → old.requestTimestamp < s.requestTimestamp) ∧
      ((∀ old ∈ store, old.targetId ≠ s.targetId) ∧ store' = store ++ [s] ∨
        (∃ old ∈ store, old.targetId = s.targetId) ∧
          store' = store.map fun other =>
            if other.targetId = s.targetId then { s with waves := other.waves } else other) := by
  unfold upsertSnapshot at h
  split at h
  case isTrue => cases h
  case isFalse =>
    split at h
    case h_1 hnone =>
      have hfree : ∀ old ∈ store, old.targetId ≠ s.targetId := fun old hold htarget =>
        List.find?_eq_none.mp hnone old hold (decide_eq_true htarget)
      cases h
      refine ⟨fun old hold hidentity => ?_, .inl ⟨hfree, rfl⟩⟩
      exact absurd (congrArg Identity.targetId hidentity) (hfree old hold)
    case h_2 stored hfound =>
      have hstored := List.mem_of_find?_eq_some hfound
      have htarget : stored.targetId = s.targetId := by simpa using List.find?_some hfound
      split at h
      case isFalse => cases h
      case isTrue hnewer =>
        cases h
        refine ⟨fun old hold hidentity => ?_, .inr ⟨⟨stored, hstored, htarget⟩, rfl⟩⟩
        have hsame : old.targetId = stored.targetId :=
          (congrArg Identity.targetId hidentity).trans htarget.symm
        rw [List.inj_on_of_nodup_map hnd hold hstored hsame] at hidentity ⊢
        exact hnewer.resolve_left (not_not.mpr hidentity)

/-- After an accepted observation its target has the new snapshot, and the other targets
keep theirs. -/
theorem storeSnapshot_ok (hnd : (store.map Snapshot.targetId).Nodup)
    (h : storeSnapshot store s clock roundEndsAt = .ok store') :
    (∀ old ∈ store, old.identity = s.identity → old.requestTimestamp < s.requestTimestamp) ∧
      WavesKeyed s.waves ∧
      ∀ other, other ∈ store' ↔ other = s ∨ other ∈ store ∧ other.targetId ≠ s.targetId := by
  unfold storeSnapshot at h
  obtain ⟨upserted, hupsert, h⟩ := bind_eq_ok_iff.mp h
  unfold replaceSnapshotRows at h
  split at h
  case isFalse => cases h
  case isTrue hkeyed =>
    cases h
    have hupserted : (∀ old ∈ store, old.identity = s.identity →
          old.requestTimestamp < s.requestTimestamp) ∧
        ((∀ old ∈ store, old.targetId ≠ s.targetId) ∧ upserted = store ++ [{ s with waves := [] }] ∨
          (∃ old ∈ store, old.targetId = s.targetId) ∧ upserted = store.map fun other =>
            if other.targetId = s.targetId then { s with waves := other.waves } else other) :=
      upsertSnapshot_ok hnd hupsert
    obtain ⟨hnewer, hcases⟩ := hupserted
    refine ⟨hnewer, hkeyed, fun other => ?_⟩
    rw [List.mem_map]
    rcases hcases with ⟨hfree, rfl⟩ | ⟨⟨stored, hstored, htarget⟩, rfl⟩
    · constructor
      · rintro ⟨row, hrow, rfl⟩
        rcases List.mem_append.mp hrow with hrow | hrow
        · rw [if_neg (hfree row hrow)]
          exact .inr ⟨hrow, hfree row hrow⟩
        · rw [List.mem_singleton.mp hrow]
          exact .inl (if_pos rfl)
      · rintro (rfl | ⟨hother, hne⟩)
        · exact ⟨_, List.mem_append_right _ (List.mem_singleton_self _), if_pos rfl⟩
        · exact ⟨other, List.mem_append_left _ hother, if_neg hne⟩
    · constructor
      · rintro ⟨row, hrow, rfl⟩
        obtain ⟨old, hold, rfl⟩ := List.mem_map.mp hrow
        by_cases hsame : old.targetId = s.targetId
        · rw [if_pos hsame]
          exact .inl (if_pos rfl)
        · rw [if_neg hsame, if_neg hsame]
          exact .inr ⟨hold, hsame⟩
      · rintro (rfl | ⟨hother, hne⟩)
        · refine ⟨_, List.mem_map_of_mem hstored, ?_⟩
          rw [if_pos htarget]
          exact if_pos rfl
        · refine ⟨_, List.mem_map_of_mem hother, ?_⟩
          rw [if_neg hne, if_neg hne]

/-- A proposal that passes the comparison starts with the stored waves. -/
theorem ensureExtendsStored_ok {textLE : String → String → Bool} {identity : Identity}
    {waves : List ResolvedWave} {u : Unit}
    (h : ensureExtendsStored textLE store identity waves = .ok u)
    (hnd : (store.map Snapshot.targetId).Nodup) (hs : s ∈ store) (hidentity : s.identity = identity) :
    listWaves textLE s.waves <+: waves := by
  have hfound : store.find? (fun other => other.identity = identity) = some s := by
    apply Keyed.find?_eq_some_of_unique hs (decide_eq_true hidentity)
    intro other hother hsame
    have htarget := (of_decide_eq_true hsame).trans hidentity.symm
    exact List.inj_on_of_nodup_map hnd hother hs (congrArg Identity.targetId htarget)
  unfold ensureExtendsStored loadStoredWaves at h
  rw [hfound, Option.map_some] at h
  dsimp only at h
  unfold ensureFinalizedWavesAreAppendOnly at h
  split at h
  case isTrue => cases h
  case isFalse hprefix =>
    rw [not_or, not_not] at hprefix
    rw [← hprefix.2]
    exact List.take_prefix _ waves

end Store

/-- A snapshot agrees with the history of its target. -/
def Snapshot.Agrees (gameId challengeId : ℤ) (log : List LogEntry) (s : Snapshot) : Prop :=
  s.gameId = gameId ∧ s.challengeId = challengeId ∧ ∃ c, lastCommit s.targetId log = some c ∧
    s.identity = c.identity ∧ s.requestTimestamp = c.requestTimestamp ∧
      s.waves = c.waves.map (redactWave (revokedSince gameId challengeId s.targetId log))

/-- The store and the history agree: every snapshot is what the history expects, and a
target with a commit has a snapshot. -/
structure Tracks (gameId challengeId : ℤ) (store : List Snapshot) (log : List LogEntry) :
    Prop where
  sound : StoreSound store
  agrees : ∀ s ∈ store, s.Agrees gameId challengeId log
  present : ∀ targetId c, lastCommit targetId log = some c → ∃ s ∈ store, s.targetId = targetId

section Tracks

variable {gameId challengeId : ℤ} {store store' : List Snapshot} {log : List LogEntry}

theorem idsFor_of_agrees {s : Snapshot} (h : s.Agrees gameId challengeId log) (scope : Scope)
    (ids : List ℤ) :
    scope.idsFor ids s =
      if scope.coversTarget gameId challengeId s.targetId then ids else [] := by
  obtain ⟨rfl, rfl, -⟩ := h
  rfl

theorem Snapshot.Agrees.redacted {s : Snapshot} (h : s.Agrees gameId challengeId log)
    (hsound : ∀ wave ∈ s.waves, WaveSound wave) (scope : Scope) (ids : List ℤ) (fence : Bool) :
    (redacted scope ids fence s).Agrees gameId challengeId (.revocation scope ids :: log) := by
  have hwaves := redacted_waves hsound scope ids fence
  rw [idsFor_of_agrees h] at hwaves
  obtain ⟨hgame, hchallenge, c, hlast, hidentity, htimestamp, hexpected⟩ := h
  have hcolumns : (Leaderboard.redacted scope ids fence s).gameId = s.gameId ∧
      (Leaderboard.redacted scope ids fence s).challengeId = s.challengeId ∧
      (Leaderboard.redacted scope ids fence s).identity = s.identity ∧
      (Leaderboard.redacted scope ids fence s).requestTimestamp = s.requestTimestamp := by
    rw [Leaderboard.redacted]
    split <;> exact ⟨rfl, rfl, rfl, rfl⟩
  refine ⟨hcolumns.1.trans hgame, hcolumns.2.1.trans hchallenge, c, ?_,
    hcolumns.2.2.1.trans hidentity, hcolumns.2.2.2.trans htimestamp, ?_⟩
  · rw [redacted_targetId]
    exact hlast
  · rw [hwaves, hexpected, redacted_targetId, List.map_map, revokedSince]
    apply List.map_congr_left
    intro wave _
    exact redactWave_redactWave _ _ wave

namespace Tracks

theorem nil : Tracks gameId challengeId [] [] where
  sound := StoreSound.nil
  agrees := fun _ hs => absurd hs List.not_mem_nil
  present := fun _ _ h => nomatch h

/-- A revocation is recorded. -/
theorem revoke (h : Tracks gameId challengeId store log) (scope : Scope) (ids : List ℤ)
    (fence : Bool) :
    Tracks gameId challengeId (store.map (redacted scope ids fence))
      (.revocation scope ids :: log) where
  sound := h.sound.map_redacted scope ids fence
  agrees := List.forall_mem_map.mpr fun s hs =>
    (h.agrees s hs).redacted (h.sound.waves s hs) scope ids fence
  present := by
    intro targetId c hlast
    obtain ⟨s, hs, rfl⟩ := h.present targetId c hlast
    exact ⟨_, List.mem_map_of_mem hs, redacted_targetId scope ids fence s⟩

/-- A reset is recorded. -/
theorem reset (h : Tracks gameId challengeId store log) (targetId : ℤ) :
    Tracks gameId challengeId (store.filter fun s => s.targetId ≠ targetId)
      (.reset targetId :: log) where
  sound :=
    { targets := h.sound.targets.sublist (List.filter_sublist.map _)
      waves := fun s hs => h.sound.waves s (List.mem_of_mem_filter hs) }
  agrees := by
    intro s hs
    obtain ⟨hs, hne⟩ := List.mem_filter.mp hs
    have hne : targetId ≠ s.targetId := fun heq => of_decide_eq_true hne heq.symm
    obtain ⟨hgame, hchallenge, c, hagrees⟩ := h.agrees s hs
    refine ⟨hgame, hchallenge, c, ?_⟩
    rw [lastCommit, revokedSince, if_neg hne, if_neg hne]
    exact hagrees
  present := by
    intro target c hlast
    rw [lastCommit] at hlast
    split at hlast
    case isTrue => cases hlast
    case isFalse hne =>
      obtain ⟨s, hs, rfl⟩ := h.present target c hlast
      exact ⟨s, List.mem_filter.mpr ⟨hs, decide_eq_true (Ne.symm hne)⟩, rfl⟩

/-- A commit is recorded. -/
theorem commit (h : Tracks gameId challengeId store log) {s : Snapshot} {clock roundEndsAt : ℤ}
    (hgame : s.gameId = gameId) (hchallenge : s.challengeId = challengeId)
    (hbudget : ∀ wave ∈ s.waves, ∀ row ∈ wave.rows, row.Budgeted)
    (hvalid : ∀ wave ∈ s.waves, leaderboardCrownIsValid wave.rows = true)
    (hstore : storeSnapshot store s clock roundEndsAt = .ok store') {c : CommittedObservation}
    (hidentity : s.identity = c.identity) (htimestamp : s.requestTimestamp = c.requestTimestamp)
    (hwaves : s.waves = c.waves) : Tracks gameId challengeId store' (.commit c :: log) := by
  have hsound := h.sound.storeSnapshot hbudget hvalid hstore
  obtain ⟨-, -, hmem⟩ := storeSnapshot_ok h.sound.targets hstore
  have htarget : c.identity.targetId = s.targetId := by
    rw [← hidentity]
    rfl
  have hself : s ∈ store' := (hmem s).mpr (.inl rfl)
  refine ⟨hsound, fun other hother => ?_, fun targetId c' hlast => ?_⟩
  · rcases (hmem other).mp hother with rfl | ⟨hother, hne⟩
    · refine ⟨hgame, hchallenge, c, if_pos htarget, hidentity, htimestamp, ?_⟩
      rw [revokedSince, if_pos htarget, ← hwaves, map_redactWave_nil (hsound.waves other hself)]
    · have hne : ¬c.identity.targetId = other.targetId := fun heq => hne (heq.symm.trans htarget)
      obtain ⟨hgame', hchallenge', c', hagrees⟩ := h.agrees other hother
      refine ⟨hgame', hchallenge', c', ?_⟩
      rw [lastCommit, revokedSince, if_neg hne, if_neg hne]
      exact hagrees
  · rw [lastCommit] at hlast
    split at hlast
    case isTrue hsame => exact ⟨s, hself, htarget.symm.trans hsame⟩
    case isFalse hne =>
      obtain ⟨other, hother, rfl⟩ := h.present targetId c' hlast
      exact ⟨other, (hmem other).mpr (.inr ⟨hother, fun heq => hne (htarget.trans heq.symm)⟩), rfl⟩

end Tracks

end Tracks

section World

variable {p : Primitives} {gameId challengeId : ℤ} {w w' : World}

theorem expectedWaves_of_agrees {log : List LogEntry} {s : Snapshot}
    (h : s.Agrees gameId challengeId log) :
    expectedWaves gameId challengeId s.targetId log = s.waves := by
  obtain ⟨-, -, c, hlast, -, -, hwaves⟩ := h
  rw [expectedWaves, hlast, hwaves]

/-- What holds of the tables of a challenge and their history at all times. -/
structure WorldSound (p : Primitives) (gameId challengeId : ℤ) (w : World) : Prop where
  tracks : Tracks gameId challengeId w.snapshots w.log
  active : ∀ context, w.environment.activeContext = some context →
    w.current = some context.identity
  newest : ∀ c ∈ w.commits, w.current = some c.identity →
    ∃ s ∈ w.snapshots, s.identity = c.identity ∧ c.requestTimestamp ≤ s.requestTimestamp
  increasing : w.commits.Pairwise fun newer older =>
    newer.identity = older.identity → older.requestTimestamp < newer.requestTimestamp
  appended : ∀ c older, LogEntry.commit c :: older <:+ w.log →
    ∀ c₀, lastCommit c.identity.targetId older = some c₀ → c₀.identity = c.identity →
      listWaves p.textLE (expectedWaves gameId challengeId c.identity.targetId older) <+: c.waves

namespace WorldSound

/-- Entries other than commits leave the comparisons of the commits alone. -/
theorem appended_cons (h : WorldSound p gameId challengeId w) {entry : LogEntry}
    (hentry : entry.commit? = none) :
    ∀ c older, LogEntry.commit c :: older <:+ entry :: w.log →
      ∀ c₀, lastCommit c.identity.targetId older = some c₀ → c₀.identity = c.identity →
        listWaves p.textLE (expectedWaves gameId challengeId c.identity.targetId older) <+:
          c.waves := by
  intro c older hsuffix
  rcases List.suffix_cons_iff.mp hsuffix with heq | hsuffix
  · rw [← (List.cons_eq_cons.mp heq).1] at hentry
    cases hentry
  · exact h.appended c older hsuffix

theorem revoke (h : WorldSound p gameId challengeId w) (scope : Scope) (ids : List ℤ)
    (fence : Bool) :
    WorldSound p gameId challengeId
      { w with
        snapshots := w.snapshots.map (redacted scope ids fence)
        log := .revocation scope ids :: w.log } where
  tracks := h.tracks.revoke scope ids fence
  active := h.active
  newest := by
    intro c hc hcurrent
    obtain ⟨s, hs, hidentity, hle⟩ := h.newest c hc hcurrent
    have hcolumns : (redacted scope ids fence s).identity = s.identity ∧
        (redacted scope ids fence s).requestTimestamp = s.requestTimestamp := by
      rw [redacted]
      split <;> exact ⟨rfl, rfl⟩
    exact ⟨_, List.mem_map_of_mem hs, hcolumns.1.trans hidentity, hle.trans_eq hcolumns.2.symm⟩
  increasing := h.increasing
  appended := h.appended_cons rfl

theorem reset (h : WorldSound p gameId challengeId w) (targetId : ℤ) :
    WorldSound p gameId challengeId
      { w with
        snapshots := w.snapshots.filter fun s => s.targetId ≠ targetId
        environment := { w.environment with activeContext := none }
        current := w.current.filter fun identity => identity.targetId ≠ targetId
        log := .reset targetId :: w.log } where
  tracks := h.tracks.reset targetId
  active := fun _ hnone => nomatch hnone
  newest := by
    intro c hc hcurrent
    obtain ⟨hcurrent, hkeep⟩ := Option.filter_eq_some_iff.mp hcurrent
    obtain ⟨s, hs, hidentity, hle⟩ := h.newest c hc hcurrent
    refine ⟨s, List.mem_filter.mpr ⟨hs, ?_⟩, hidentity, hle⟩
    rw [Snapshot.targetId, hidentity]
    exact hkeep
  increasing := h.increasing
  appended := h.appended_cons rfl

/-- A new context is the current one or has no commits. -/
theorem move (h : WorldSound p gameId challengeId w) {environment : Environment}
    (fresh : ∀ context, environment.activeContext = some context →
      w.current = some context.identity ∨ ∀ c ∈ w.commits, c.identity ≠ context.identity) :
    WorldSound p gameId challengeId
      { w with
        environment := environment
        current := (environment.activeContext.map ActiveObserverContext.identity).or w.current } where
  tracks := h.tracks
  active := by
    intro context hcontext
    have hcontext : environment.activeContext = some context := hcontext
    simp [hcontext]
  newest := by
    intro c hc hcurrent
    cases hcontext : environment.activeContext with
    | none =>
        have hcurrent : w.current = some c.identity := by simpa [hcontext] using hcurrent
        exact h.newest c hc hcurrent
    | some context =>
        have hidentity : context.identity = c.identity := by simpa [hcontext] using hcurrent
        rcases fresh context hcontext with hsame | hnew
        · exact h.newest c hc (hidentity ▸ hsame)
        · exact absurd hidentity.symm (hnew c hc)
  increasing := h.increasing
  appended := h.appended

theorem accept (h : WorldSound p gameId challengeId w) {body : Bytes} {clock : ℤ}
    {verified : VerifiedObservation} {leaseToken : ℕ} {tables : Tables}
    {response : KothObservationAcceptedModel} {s : Snapshot}
    (parsed : parseAndNormalize p.decode body = .ok verified.input)
    (processed : Processed p gameId challengeId w.environment w.tables tables clock w.lease.now
      verified leaseToken response s) (delivered : Bool) :
    WorldSound p gameId challengeId
      (w.accept p gameId challengeId tables verified leaseToken response s delivered) := by
  obtain ⟨context, hcontext, hidentity, rebased, hrebase, hstore⟩ := processed.active
  have hcurrent : w.current = some s.identity := (h.active context hcontext).trans (hidentity ▸ rfl)
  obtain ⟨rfl, hextends⟩ := h.tracks.sound.rebase_eq hrebase
  have hrebased := h.revoke (Scope.ofTarget gameId challengeId s.targetId)
    (staleParticipations w.snapshots gameId challengeId s.targetId
      (w.environment.capabilities.map EligibleApiCapability.participationId)) false
  have hbudget := budgeted_of_accepted parsed processed.resolved
  obtain ⟨u, hcrowned⟩ := processed.crowned
  have hvalid : ∀ wave ∈ s.waves, leaderboardCrownIsValid wave.rows = true := fun wave hwave =>
    validateResolvedCrowns_ok hcrowned hwave
  obtain ⟨hnewer, -, hmem⟩ := storeSnapshot_ok hrebased.tracks.sound.targets hstore
  -- every earlier commit of the identity is older than the snapshot that is replaced
  have holder : ∀ c ∈ w.commits, s.identity = c.identity →
      c.requestTimestamp < s.requestTimestamp := by
    intro c hc hsame
    obtain ⟨old, hold, holdIdentity, hle⟩ := hrebased.newest c hc (hcurrent.trans (hsame ▸ rfl))
    exact hle.trans_lt (hnewer old hold (holdIdentity.trans hsame.symm))
  refine
    { tracks := hrebased.tracks.commit processed.gameId processed.challengeId hbudget hvalid hstore
        rfl rfl rfl
      active := h.active
      newest := fun c hc hsame => ?_
      increasing := List.pairwise_cons.mpr ⟨holder, h.increasing⟩
      appended := fun c older hsuffix c₀ hlast hsame => ?_ }
  · refine ⟨s, (hmem s).mpr (.inl rfl), ?_, ?_⟩
    · exact Option.some.inj (hcurrent.symm.trans hsame)
    · rcases List.mem_cons.mp hc with rfl | hc
      · exact le_rfl
      · exact (holder c hc (Option.some.inj (hcurrent.symm.trans hsame))).le
  · rcases List.suffix_cons_iff.mp hsuffix with heq | hsuffix
    · obtain ⟨hc, rfl⟩ := List.cons_eq_cons.mp heq
      cases hc
      obtain ⟨old, hold, htarget⟩ := hrebased.tracks.present _ c₀ hlast
      have hagrees := hrebased.tracks.agrees old hold
      obtain ⟨-, -, c₁, hlast₁, holdIdentity, -⟩ := hagrees
      rw [htarget, hlast] at hlast₁
      cases hlast₁
      have hprefix := ensureExtendsStored_ok hextends hrebased.tracks.sound.targets hold
        (holdIdentity.trans hsame)
      rw [← expectedWaves_of_agrees (hrebased.tracks.agrees old hold), htarget] at hprefix
      exact hprefix
    · exact hrebased.appended c older hsuffix c₀ hlast hsame

end WorldSound

theorem ObservationStep.worldSound (h : WorldSound p gameId challengeId w)
    (next : ObservationStep p gameId challengeId w w') : WorldSound p gameId challengeId w' := by
  cases next with
  | process parsed processed delivered =>
      exact h.accept parsed (processObservation_ok processed) delivered
  | revoke cleared =>
      rw [h.tracks.sound.clear_eq cleared]
      exact h.revoke _ _ _
  | move fresh => exact h.move fresh
  | reset targetId => exact h.reset targetId
  | tick => exact ⟨h.tracks, h.active, h.newest, h.increasing, h.appended⟩
  | purge => exact ⟨h.tracks, h.active, h.newest, h.increasing, h.appended⟩
  | reserve => exact ⟨h.tracks, h.active, h.newest, h.increasing, h.appended⟩
  | join => exact ⟨h.tracks, h.active, h.newest, h.increasing, h.appended⟩
  | release => exact ⟨h.tracks, h.active, h.newest, h.increasing, h.appended⟩

theorem ObservationRun.worldSound (run : ObservationRun p gameId challengeId w) :
    WorldSound p gameId challengeId w := by
  induction run with
  | start now environment =>
      constructor
      case tracks => exact Tracks.nil
      case active =>
        intro context hcontext
        have hcontext : environment.activeContext = some context := hcontext
        simp [hcontext]
      case newest => exact fun c hc => absurd hc List.not_mem_nil
      case increasing => exact List.Pairwise.nil
      case appended =>
        intro c older hsuffix
        exact absurd (List.suffix_nil.mp hsuffix) (List.cons_ne_nil _ _)
  | step _ next ih => exact next.worldSound ih

/-- A commit is the one that a response was served from. -/
def CommittedObservation.Serves (c : CommittedObservation)
    (r : LeaseTable.Served Bytes KothObservationAcceptedModel) : Prop :=
  c.requestDigest = r.key ∧ c.time ≤ r.time ∧ r.time < c.time + operationLifetime

theorem ObservationRun.commits_apart (run : ObservationRun p gameId challengeId w) :
    w.commits.Pairwise fun newer older =>
      newer.requestDigest = older.requestDigest → older.time + operationLifetime ≤ newer.time := by
  have hapart := run.lease.apart
  rw [run.receipts, List.pairwise_map] at hapart
  exact hapart

theorem ObservationRun.exists_serves (run : ObservationRun p gameId challengeId w)
    {r : LeaseTable.Served Bytes KothObservationAcceptedModel} (hr : r ∈ w.lease.served) :
    (∃ c ∈ w.commits, c.Serves r) ∧ ∀ c ∈ w.commits, c.Serves r → c.response = r.response := by
  obtain ⟨receipt, hreceipt, hkey, hresponse, hpast, hlive⟩ := run.lease.served r hr
  have hreceipts := run.receipts
  constructor
  · rw [hreceipts] at hreceipt
    obtain ⟨c, hc, rfl⟩ := List.mem_map.mp hreceipt
    exact ⟨c, hc, hkey, hpast, hlive⟩
  · rintro c hc ⟨hdigest, hpast', hlive'⟩
    have hc : c.receipt ∈ w.lease.commits := hreceipts ▸ List.mem_map_of_mem hc
    have hsame := run.lease.commit_unique hc hreceipt (hdigest.trans hkey.symm) hpast' hpast hlive'
      hlive
    exact (congrArg LeaseTable.Commit.response hsame).trans hresponse

theorem ObservationRun.superseded_never_commits (run : ObservationRun p gameId challengeId w)
    {leaseToken : ℕ} (h : leaseToken ∈ w.lease.superseded) :
    ∀ c ∈ w.commits, c.leaseToken ≠ leaseToken := by
  rintro c hc rfl
  have hc : c.receipt ∈ w.lease.commits := run.receipts ▸ List.mem_map_of_mem hc
  exact run.lease.fenced _ hc h

/-- Over every run: commits of a digest are a row lifetime apart, and whoever succeeds with
a digest has the response of its one live commit; a reservation that was taken over does
not commit; the timestamps of an identity increase; the stored waves are those of the last
commit without the participations revoked since; and a commit extends what is stored. -/
theorem observations_applied_once (run : ObservationRun p gameId challengeId w) :
    (w.commits.Pairwise fun newer older =>
      newer.requestDigest = older.requestDigest → older.time + operationLifetime ≤ newer.time) ∧
    (∀ r ∈ w.lease.served, (∃ c ∈ w.commits, c.Serves r) ∧
      ∀ c ∈ w.commits, c.Serves r → c.response = r.response) ∧
    (∀ leaseToken ∈ w.lease.superseded, ∀ c ∈ w.commits, c.leaseToken ≠ leaseToken) ∧
    (w.commits.Pairwise fun newer older =>
      newer.identity = older.identity → older.requestTimestamp < newer.requestTimestamp) ∧
    (∀ s ∈ w.snapshots, s.waves = expectedWaves gameId challengeId s.targetId w.log ∧
      ∃ c, lastCommit s.targetId w.log = some c ∧ s.identity = c.identity ∧
        s.requestTimestamp = c.requestTimestamp) ∧
    (∀ targetId c, lastCommit targetId w.log = some c →
      ∃ s ∈ w.snapshots, s.targetId = targetId) ∧
    ∀ c older, LogEntry.commit c :: older <:+ w.log →
      ∀ c₀, lastCommit c.identity.targetId older = some c₀ → c₀.identity = c.identity →
        listWaves p.textLE (expectedWaves gameId challengeId c.identity.targetId older) <+:
          c.waves := by
  have hsound := run.worldSound
  refine ⟨run.commits_apart, fun r hr => run.exists_serves hr,
    fun leaseToken h => run.superseded_never_commits h, hsound.increasing, ?_,
    hsound.tracks.present, hsound.appended⟩
  intro s hs
  have hagrees := hsound.tracks.agrees s hs
  obtain ⟨-, -, c, hlast, hidentity, htimestamp, -⟩ := hagrees
  exact ⟨(expectedWaves_of_agrees (hsound.tracks.agrees s hs)).symm, c, hlast, hidentity, htimestamp⟩

end World

/-- Digests for the examples. -/
def racePrimitives : Primitives where
  decode := closeRaceDecode
  tokenHash := letterHash
  textLE a b := decide (a ≤ b)
  opaqueContext _ := closeRace.context
  objectiveSchemaHash _ := []
  snapshotHash _ _ _ := closeRaceSnapshot.snapshotHash
  requestDigest _ _ := []
  replayHash signature := signature

def raceEnvironment : Environment where
  observerSecret := some "s"
  activeContext := some
    { identity := ⟨1, 1, 1, 0, "c"⟩
      cycleNumber := 1
      reportingRevision := 0
      roundNumber := 1
      scoringStartsAt := 0
      scoringEndsAt := 100000000
      roundStartsAt := 0
      roundEndsAt := 60000000 }
  reporterSecret _ _ := none
  capabilities := closeRaceCapabilities

def raceObservation : VerifiedObservation where
  now := 2000000
  timestamp := 2000
  signature := []
  credential := ⟨.observer, "s"⟩
  input := closeRace

def raceResponse : KothObservationAcceptedModel := ⟨true, 1, 0, 1, 1, 2, 2, 21000000⟩

def raceSnapshot : Snapshot :=
  { closeRaceSnapshot with
    contextHash := closeRace.context
    requestTimestamp := 2000
    acceptedAt := 21000000 }

def raceCommit : CommittedObservation :=
  ⟨[], 2, raceResponse, 21000000, ⟨1, 1, 1, 0, "c"⟩, 2000, closeRaceWaves⟩

/-- A reservation that is taken over after its lease, the commit of the second caller and
a retry that joins it. -/
def raceWorld : World where
  lease :=
    { now := 21000000
      rows := [⟨[], 2, 41000000, some raceResponse, 621000000⟩]
      issued := [2, 1]
      superseded := [1]
      commits := [⟨[], 2, raceResponse, 21000000⟩]
      served := [⟨[], raceResponse, 21000000⟩] }
  snapshots := [raceSnapshot]
  arenaScheme := some (["core"], [])
  replays := [([], 621000000)]
  environment := raceEnvironment
  current := some ⟨1, 1, 1, 0, "c"⟩
  log := [.commit raceCommit, .revocation (Scope.ofTarget 1 1 1) []]

theorem raceWorld_run : ObservationRun racePrimitives 1 1 raceWorld := by
  have started : ObservationRun racePrimitives 1 1 _ := .start 0 raceEnvironment
  have hreserve : reserveObservation [] 1 0 [] = some [⟨[], 1, 20000000, none, 600000000⟩] := rfl
  have hovertake : reserveObservation [] 2 21000000 [⟨[], 1, 20000000, none, 600000000⟩] =
      some [⟨[], 2, 41000000, none, 621000000⟩] := rfl
  have hparse : parseAndNormalize racePrimitives.decode [] = .ok raceObservation.input := rfl
  have hprocess : processObservation racePrimitives 1 1 raceEnvironment
      ⟨[⟨[], 2, 41000000, none, 621000000⟩], [], none, []⟩ 21000000 21000000 raceObservation 2 =
        .ok (raceWorld.tables, raceResponse, raceSnapshot) := rfl
  have hjoin : completedObservation [] 21000000 raceWorld.lease.rows = some raceResponse := rfl
  have reserved := started.step (.reserve List.not_mem_nil hreserve)
  have later := reserved.step (.tick (by decide : (0 : ℤ) ≤ 21000000))
  have overtaken := later.step (.reserve (by decide : 2 ∉ [1]) hovertake)
  have committed := overtaken.step (.process hparse hprocess false)
  exact committed.step (.join hjoin)

theorem observations_applied_once_raceWorld :
    (∀ leaseToken ∈ raceWorld.lease.superseded,
      ∀ c ∈ raceWorld.commits, c.leaseToken ≠ leaseToken) ∧
    ∀ s ∈ raceWorld.snapshots, s.waves = expectedWaves 1 1 s.targetId raceWorld.log ∧
      ∃ c, lastCommit s.targetId raceWorld.log = some c ∧ s.identity = c.identity ∧
        s.requestTimestamp = c.requestTimestamp := by
  obtain ⟨-, -, hfenced, -, hstored, -⟩ := observations_applied_once raceWorld_run
  exact ⟨hfenced, hstored⟩

end Leaderboard

end Rsctf
