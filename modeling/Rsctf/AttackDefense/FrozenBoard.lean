import Rsctf.AttackDefense.FrozenEvidence
import Rsctf.AttackDefense.PublicBoard

/-!
# The frozen scoreboard

From the freeze until the end of the contest, the public board is a function of what was
recorded up to the freeze, the freeze itself included.  Of the sealed epochs it shows
those which were final by the last round that had started, and of a round that had
started it shows the deliveries and the finalization whenever they were recorded.
-/

open Keyed

namespace Rsctf

namespace AttackDefense

section Visible

/-- The last epoch which a board with a cutoff round continues. -/
def RollupStore.visibleEpoch (store : RollupStore) (cutoffRound : Option ℤ) : ℤ :=
  ((loadRollupSnapshot store cutoffRound).header.map (·.epoch)).getD 0

/-- The sealed epochs up to the one which a board continues. -/
def RollupStore.visible (store : RollupStore) (cutoffRound : Option ℤ) : RollupStore where
  headers := store.headers.filter (·.epoch ≤ store.visibleEpoch cutoffRound)
  teams := store.teams.filter (·.epoch ≤ store.visibleEpoch cutoffRound)
  services := store.services.filter (·.epoch ≤ store.visibleEpoch cutoffRound)

variable (store : RollupStore) (cutoffRound : Option ℤ)

theorem snapshotAt_visible {header : AdEpochRollup}
    (hheader : store.visibleEpoch cutoffRound = header.epoch) :
    (store.visible cutoffRound).snapshotAt header = store.snapshotAt header := by
  have hrecent : (store.visible cutoffRound).recentEpochs header.epoch =
      store.recentEpochs header.epoch := by
    rw [RollupStore.recentEpochs, RollupStore.recentEpochs, RollupStore.visible, hheader,
      List.filter_map, List.filter_map, Hidden.filter_filter]
    intro row _ hrow
    exact hrow
  have hteams : (store.visible cutoffRound).loadTeamRollups header.epoch =
      store.loadTeamRollups header.epoch := by
    apply Hidden.rows_filter
    intro row _ hrow
    exact decide_eq_true (hheader ▸ hrow.le)
  have hservices : (store.visible cutoffRound).loadServiceRollups header.epoch =
      store.loadServiceRollups header.epoch := by
    apply Hidden.rows_filter
    intro row _ hrow
    exact decide_eq_true (hheader ▸ hrow.le)
  have hrows : (store.visible cutoffRound).teams.filter
        (fun row => row.epoch ∈ store.recentEpochs header.epoch) =
      store.teams.filter fun row => row.epoch ∈ store.recentEpochs header.epoch := by
    apply Hidden.filter_filter
    intro row _ hrow
    have hmem := (List.mem_insertionSort _).mp (List.mem_of_mem_take (of_decide_eq_true hrow))
    exact hheader ▸ (List.mem_filter.mp hmem).2
  rw [RollupStore.snapshotAt, RollupStore.snapshotAt, hrecent, hteams, hservices, hrows]

/-- Every header which a board may continue is of an epoch up to the one it continues. -/
theorem epoch_le_visibleEpoch {header : AdEpochRollup} (hmem : header ∈ store.headers)
    (hfinal : cutoffRound.all (fun cutoff => header.finalizedRound ≤ cutoff) = true) :
    header.epoch ≤ store.visibleEpoch cutoffRound := by
  have hin : header ∈ store.headers.filter fun header =>
      cutoffRound.all fun cutoff => header.finalizedRound ≤ cutoff :=
    List.mem_filter.mpr ⟨hmem, hfinal⟩
  rw [RollupStore.visibleEpoch, loadRollupSnapshot, RollupStore.latestHeader]
  cases hlast : latest (·.epoch) (store.headers.filter fun header =>
      cutoffRound.all fun cutoff => header.finalizedRound ≤ cutoff) with
  | none => exact absurd (latest_eq_none_iff.mp hlast ▸ hin) List.not_mem_nil
  | some last => exact le_of_latest hlast hin

/-- A board reads the same from the epochs it continues as from the whole store. -/
theorem loadRollupSnapshot_visible :
    loadRollupSnapshot (store.visible cutoffRound) cutoffRound =
      loadRollupSnapshot store cutoffRound := by
  have hlatest : (store.visible cutoffRound).latestHeader (fun header =>
        cutoffRound.all fun cutoff => header.finalizedRound ≤ cutoff) =
      store.latestHeader fun header =>
        cutoffRound.all fun cutoff => header.finalizedRound ≤ cutoff := by
    rw [RollupStore.latestHeader, RollupStore.latestHeader, RollupStore.visible,
      Hidden.filter_filter]
    intro header hmem hfinal
    exact decide_eq_true (epoch_le_visibleEpoch store cutoffRound hmem hfinal)
  rw [loadRollupSnapshot, loadRollupSnapshot, hlatest]
  cases hlast : store.latestHeader fun header =>
      cutoffRound.all fun cutoff => header.finalizedRound ≤ cutoff with
  | none => rfl
  | some last =>
      apply snapshotAt_visible
      rw [RollupStore.visibleEpoch, loadRollupSnapshot, hlast]
      rfl

end Visible

section Recorded

variable (setup : AdSetup) (history : AdHistory) (gameId moment : ℤ)

/-- A round which started by a moment. -/
def AdHistory.started (roundId : ℤ) : Bool :=
  history.rounds.any fun round => round.id = roundId && round.startTimeUtc ≤ moment

/-- What a history recorded up to a moment: the rounds which had started with their flags
and deliveries, the completed checks and the captures. -/
def AdHistory.recordedBy : AdHistory where
  rounds := history.rounds.filter (·.startTimeUtc ≤ moment)
  flags := history.flags.filter fun flag => history.started moment flag.roundId
  checkResults := history.checkResults.filter fun result =>
    result.slaCredit.isSome && result.checkedAt ≤ moment
  flagDeliveryResults := history.flagDeliveryResults.filter fun delivery =>
    history.started moment delivery.roundId
  attacks := history.attacks.filter (·.submittedAt ≤ moment)
  roundNumber_nodup := history.roundNumber_nodup.sublist (List.filter_sublist.map _)

theorem withinCutoff_live (time : ℤ) :
    withinCutoff false (some moment) time = decide (time ≤ moment) := by
  simp [withinCutoff]

theorem completedCheck_live (result : AdCheckResult) :
    completedCheck false (some moment) result =
      (result.slaCredit.isSome && decide (result.checkedAt ≤ moment)) := by
  simp [completedCheck]

theorem tables_recordedBy (rollups : ℤ → RollupStore) (store : RollupStore) :
    setup.tables (history.recordedBy moment) (fun _ => store) =
      (setup.tables history rollups).upTo moment store := by
  simp [AdSetup.tables, AdTables.upTo, AdHistory.recordedBy, AdTables.started,
    AdHistory.started, List.filter_map, Function.comp_def]

theorem roundsWithin_recordedBy :
    (history.recordedBy moment).roundsWithin gameId false (some moment) =
      history.roundsWithin gameId false (some moment) := by
  rw [AdHistory.roundsWithin, AdHistory.roundsWithin, AdHistory.recordedBy,
    Hidden.filter_filter]
  intro round _ hround
  rw [Bool.and_eq_true, withinCutoff_live] at hround
  exact hround.2

variable {history gameId moment}

theorem started_of_roundsWithin {round : BoardRound}
    (hround : round ∈ history.roundsWithin gameId false (some moment)) :
    history.started moment round.id = true := by
  have hcond := (List.mem_filter.mp hround).2
  rw [Bool.and_eq_true, withinCutoff_live] at hcond
  exact List.any_eq_true.mpr
    ⟨round, List.mem_of_mem_filter hround, Bool.and_eq_true_iff.mpr ⟨by simp, hcond.2⟩⟩

variable (history gameId moment)

theorem loadStableServices_recordedBy (startRound : ℤ) :
    loadStableServices setup (history.recordedBy moment) gameId startRound (some moment) false =
      loadStableServices setup history gameId startRound (some moment) false := by
  rw [loadStableServices, loadStableServices, roundsWithin_recordedBy]
  cases hround : (history.roundsWithin gameId false (some moment)).find?
      (·.number = startRound) with
  | none => rfl
  | some round =>
      have hstarted : history.started moment round.id = true :=
        started_of_roundsWithin (List.mem_of_find?_eq_some hround)
      have hflags : rows (·.roundId) round.id (history.recordedBy moment).flags =
          rows (·.roundId) round.id history.flags := by
        apply Hidden.rows_filter
        intro flag _ hflag
        rw [hflag, hstarted]
      dsimp only
      rw [hflags]

theorem loadLatestCheckStatuses_recordedBy (startRound : ℤ) (services : List StableServiceRow) :
    loadLatestCheckStatuses (history.recordedBy moment) gameId startRound services
        (some moment) (some moment) false =
      loadLatestCheckStatuses history gameId startRound services (some moment)
        (some moment) false := by
  have hlatest : latestCheck (history.recordedBy moment) (some moment) false =
      latestCheck history (some moment) false := by
    funext bounds teamServiceId
    rw [latestCheck, latestCheck, AdHistory.recordedBy, Hidden.filter_filter]
    intro result _ hresult
    rw [Bool.and_eq_true, Bool.and_eq_true, completedCheck_live] at hresult
    exact hresult.1.2
  rw [loadLatestCheckStatuses, loadLatestCheckStatuses, roundBounds, roundBounds,
    roundsWithin_recordedBy, hlatest]

/-- The services of a start round which has started. -/
theorem stableServiceIds_recordedBy {range : EvidenceRange} {start : BoardRound}
    (hstart : start ∈ history.roundsWithin gameId false (some moment))
    (hnumber : start.number = range.officialStartRound) :
    stableServiceIds setup (history.recordedBy moment) gameId range =
      stableServiceIds setup history gameId range := by
  have hmem := List.mem_filter.mp hstart
  rw [Bool.and_eq_true, withinCutoff_live, decide_eq_true_eq] at hmem
  have hkey : (decide (start.gameId = gameId) &&
      decide (start.number = range.officialStartRound)) = true := by
    simp [hmem.2.1, hnumber]
  have hunique : ∀ round ∈ history.rounds,
      (decide (round.gameId = gameId) && decide (round.number = range.officialStartRound)) = true →
        round = start := by
    intro round hround hcond
    simp only [Bool.and_eq_true, decide_eq_true_eq] at hcond
    apply List.inj_on_of_nodup_map history.roundNumber_nodup hround hmem.1
    rw [hcond.1, hcond.2, hnumber, hmem.2.1]
  have hfind : history.rounds.find? (fun round =>
      round.gameId = gameId && round.number = range.officialStartRound) = some start :=
    find?_eq_some_of_unique hmem.1 hkey hunique
  have hrecorded : (history.recordedBy moment).rounds.find? (fun round =>
      round.gameId = gameId && round.number = range.officialStartRound) = some start := by
    rw [← hfind]
    apply Hidden.find?_filter
    intro round hround hcond
    rw [hunique round hround hcond]
    exact hmem.2.2
  have hflags : rows (·.roundId) start.id (history.recordedBy moment).flags =
      rows (·.roundId) start.id history.flags := by
    apply Hidden.rows_filter
    intro flag _ hflag
    rw [hflag, started_of_roundsWithin hstart]
  rw [stableServiceIds, stableServiceIds, hfind, hrecorded]
  dsimp only
  rw [hflags]

/-- The state of the raw epochs, once the start round has started. -/
theorem loadEpochMeta_recordedBy {range : EvidenceRange} (h : range.FrozenAt moment)
    {start : BoardRound} (hstart : start ∈ history.roundsWithin gameId false (some moment))
    (hnumber : start.number = range.officialStartRound) :
    loadEpochMeta setup (history.recordedBy moment) gameId range =
      loadEpochMeta setup history gameId range := by
  have hrounds : epochRounds (history.recordedBy moment) gameId range =
      epochRounds history gameId range := by
    rw [epochRounds, epochRounds, h.eventEndSettlement, h.roundCutoff, roundsWithin_recordedBy]
  have hcomplete : checksComplete setup (history.recordedBy moment) gameId range =
      checksComplete setup history gameId range := by
    funext round
    rw [checksComplete, checksComplete,
      stableServiceIds_recordedBy setup history gameId moment hstart hnumber,
      AdHistory.recordedBy, Hidden.filter_filter]
    intro result _ hresult
    rw [Bool.and_eq_true, h.eventEndSettlement, h.checkerCutoff, completedCheck_live] at hresult
    exact hresult.2
  have hrow : epochMetaRow setup (history.recordedBy moment) gameId range =
      epochMetaRow setup history gameId range := by
    funext epoch
    rw [epochMetaRow, epochMetaRow, hrounds, hcomplete, currentRound, currentRound,
      h.eventEndSettlement, h.roundCutoff, roundsWithin_recordedBy]
  rw [loadEpochMeta, loadEpochMeta, hrounds, hrow]

end Recorded

section Frozen

variable (sqrt : ℚ → ℚ) (game : AdScoreboardGameRow) (setup : AdSetup) (history : AdHistory)
  (rollups : ℤ → RollupStore)

theorem epochOf_rawRange (startRound : ℤ) (cutoff : Option ℤ) (ended : Bool)
    (snapshot : RollupSnapshot) :
    (rawRange game startRound cutoff ended snapshot).epochOf
        (rawRange game startRound cutoff ended snapshot).startRound =
      (snapshot.header.map (·.epoch)).getD 0 + 1 := by
  have hticks : game.clampedEpochTicks ≠ 0 := by
    unfold AdScoreboardGameRow.clampedEpochTicks
    omega
  have hfirst : (snapshot.header.map fun header => header.epoch + 1).getD 1 =
      (snapshot.header.map (·.epoch)).getD 0 + 1 := by
    cases snapshot.header <;> rfl
  simp only [EvidenceRange.epochOf, rawRange, hfirst, add_sub_cancel_right, add_sub_cancel_left]
  rw [Int.mul_tdiv_cancel _ hticks]

theorem frozenAt_rawRange (startRound moment : ℤ) (snapshot : RollupSnapshot) :
    (rawRange game startRound (some moment) false snapshot).FrozenAt moment :=
  ⟨rfl, rfl, rfl, rfl⟩

theorem teamRows_nil (clock : BoardClock) (snapshot : RollupSnapshot)
    (epochMetas : List EpochMetaRow) (aggregateRows : List EvidenceAggregateRow)
    (latestChecks : List LatestCheckStatusRow) :
    teamRows sqrt clock [] snapshot epochMetas aggregateRows latestChecks = .ok [] := rfl

/-- Without a frozen service, the board does not look at the state of the epochs. -/
theorem assembleAdScoreboard_congr (isMonitor : Bool) (now : ℤ) (clock : Option BoardRound)
    {services : List StableServiceRow} {snapshot : RollupSnapshot}
    {epochMetas epochMetas' : List EpochMetaRow} {aggregateRows : List EvidenceAggregateRow}
    {latestChecks : List LatestCheckStatusRow} (h : services = [] ∨ epochMetas = epochMetas') :
    assembleAdScoreboard sqrt game setup isMonitor now clock
        ⟨services, snapshot, epochMetas, aggregateRows, latestChecks⟩ =
      assembleAdScoreboard sqrt game setup isMonitor now clock
        ⟨services, snapshot, epochMetas', aggregateRows, latestChecks⟩ := by
  rcases h with rfl | rfl
  · simp only [assembleAdScoreboard, teamRows_nil]
  · rfl

/-- The last round which had started by a moment. -/
def lastStartedRound (moment : ℤ) : Option ℤ :=
  (roundClock game history (some moment) false).map (·.number)

/-- What a board can still read after a moment of the sealed epochs. -/
def rollupsBy (moment : ℤ) : ℤ → RollupStore :=
  fun _ => (rollups game.id).visible (lastStartedRound game history moment)

theorem roundClock_recordedBy (moment : ℤ) :
    roundClock game (history.recordedBy moment) (some moment) false =
      roundClock game history (some moment) false := by
  rw [roundClock, roundClock, roundsWithin_recordedBy]

theorem loadRollupSnapshot_rollupsBy (moment : ℤ) :
    loadRollupSnapshot (rollupsBy game history rollups moment game.id)
        (lastStartedRound game history moment) =
      loadRollupSnapshot (rollups game.id) (lastStartedRound game history moment) :=
  loadRollupSnapshot_visible _ _

/-- The evidence after the snapshot which a frozen board continues. -/
theorem loadEpochEvidence_recordedBy (startRound moment : ℤ) :
    let range := rawRange game startRound (some moment) false
      (loadRollupSnapshot (rollups game.id) (lastStartedRound game history moment))
    (setup.tables (history.recordedBy moment)
        (rollupsBy game history rollups moment)).loadEpochEvidence game.id range =
      (setup.tables history rollups).loadEpochEvidence game.id range := by
  intro range
  have htables : setup.tables (history.recordedBy moment) (rollupsBy game history rollups moment) =
      (setup.tables history rollups).upTo moment
        ((rollups game.id).visible (lastStartedRound game history moment)) :=
    tables_recordedBy setup history moment rollups _
  rw [htables]
  apply AdTables.loadEpochEvidence_upTo
  · exact frozenAt_rawRange game startRound moment _
  · apply Hidden.filter_filter
    intro row _ hrow
    rw [decide_eq_true_eq, epochOf_rawRange] at hrow
    exact decide_eq_true (Int.lt_add_one_iff.mp hrow)

theorem bind_ite_error {α β ε : Type} {c : Prop} [Decidable c] {e : ε} {x y : α}
    {f : α → Except ε β} (h : f x = f y) :
    ((if c then .error e else .ok x : Except ε α) >>= f) =
      (if c then .error e else .ok y : Except ε α) >>= f := by
  split
  case isTrue => rfl
  case isFalse => exact h

/-- The board which the freeze shows is the board of what was recorded by then. -/
theorem assemble_loadBoardEvidence_recordedBy (startRound moment : ℤ) (isMonitor : Bool)
    (now : ℤ) (clock : Option BoardRound) :
    (loadBoardEvidence game setup (history.recordedBy moment) (rollupsBy game history rollups moment)
        startRound (some moment) false >>= assembleAdScoreboard sqrt game setup isMonitor now clock) =
      (loadBoardEvidence game setup history rollups startRound (some moment) false >>=
        assembleAdScoreboard sqrt game setup isMonitor now clock) := by
  have hsnapshot := loadRollupSnapshot_rollupsBy game history rollups moment
  have hevidence := loadEpochEvidence_recordedBy game setup history rollups startRound moment
  simp only [lastStartedRound] at hsnapshot hevidence
  simp only [loadBoardEvidence, roundClock_recordedBy, loadStableServices_recordedBy,
    loadLatestCheckStatuses_recordedBy, Option.bind_some, hsnapshot, hevidence]
  apply bind_ite_error
  apply assembleAdScoreboard_congr
  cases hstart : (history.roundsWithin game.id false (some moment)).find?
      (·.number = startRound) with
  | none =>
      left
      rw [loadStableServices, hstart]
  | some start =>
      right
      have hnumber : start.number = startRound := by simpa using List.find?_some hstart
      exact loadEpochMeta_recordedBy setup history game.id moment
        (frozenAt_rawRange game startRound moment _) (List.mem_of_find?_eq_some hstart) hnumber

theorem scoreboardEvidenceCutoff_frozen {freeze now : ℤ}
    (hnow : freeze ≤ now ∧ now < game.endTimeUtc) :
    scoreboardEvidenceCutoff (some freeze) game.endTimeUtc now false = some freeze := by
  simp [scoreboardEvidenceCutoff, Jeopardy.publicScoreboardFrozen, hnow, not_le.mpr hnow.2]

/-- The public board during the freeze is the board of what was recorded up to the
freeze. -/
theorem buildAdScoreboard_recordedBy {freeze now : ℤ} (hfreeze : game.freezeTimeUtc = some freeze)
    (hnow : freeze ≤ now ∧ now < game.endTimeUtc) :
    buildAdScoreboard sqrt game setup (history.recordedBy freeze)
        (rollupsBy game history rollups freeze) false now =
      buildAdScoreboard sqrt game setup history rollups false now := by
  have hended : decide (game.endTimeUtc ≤ now) = false := decide_eq_false (not_le.mpr hnow.2)
  have hclock := roundClock_recordedBy game history freeze
  have hcutoff := scoreboardEvidenceCutoff_frozen game hnow
  rw [buildAdScoreboard, buildAdScoreboard]
  simp only [hended, hfreeze, hcutoff, hclock, Bool.false_eq_true, if_false, pure_bind]
  cases game.scoringStartRound with
  | none => rfl
  | some startRound =>
      exact assemble_loadBoardEvidence_recordedBy sqrt game setup history rollups _ freeze false now _

/-- During the freeze, the public boards of two runs are the same when the runs agree on
the rounds which had started by the freeze with their flags, their deliveries and their
finalization, on the checks and captures up to the freeze, and on the sealed epochs which
were final by the last of these rounds. -/
theorem frozenAdScoreboard_noninterference (history' : AdHistory) (rollups' : ℤ → RollupStore)
    {freeze now : ℤ} (hfreeze : game.freezeTimeUtc = some freeze)
    (hnow : freeze ≤ now ∧ now < game.endTimeUtc)
    (hhistory : history.recordedBy freeze = history'.recordedBy freeze)
    (hrollups : (rollups game.id).visible (lastStartedRound game history freeze) =
      (rollups' game.id).visible (lastStartedRound game history freeze)) :
    buildAdScoreboard sqrt game setup history rollups false now =
      buildAdScoreboard sqrt game setup history' rollups' false now := by
  have hlast : lastStartedRound game history freeze = lastStartedRound game history' freeze := by
    rw [lastStartedRound, lastStartedRound, ← roundClock_recordedBy, hhistory,
      roundClock_recordedBy]
  have hread : rollupsBy game history rollups freeze = rollupsBy game history' rollups' freeze := by
    funext gameId
    rw [rollupsBy, rollupsBy, hrollups, hlast]
  rw [← buildAdScoreboard_recordedBy sqrt game setup history rollups hfreeze hnow,
    ← buildAdScoreboard_recordedBy sqrt game setup history' rollups' hfreeze hnow, hhistory, hread]

end Frozen

/-- Two histories agree on every record created strictly before a moment.  Whether a round
is finalized is decided after it was created. -/
structure AdHistory.AgreeBefore (moment : ℤ) (history history' : AdHistory) : Prop where
  rounds : ((history.rounds.filter (·.startTimeUtc < moment)).map
      fun round => (round.toAdRound, round.endTimeUtc)) =
    (history'.rounds.filter (·.startTimeUtc < moment)).map
      fun round => (round.toAdRound, round.endTimeUtc)
  flags : (history.flags.filter fun flag => history.rounds.any fun round =>
      round.id = flag.roundId && round.startTimeUtc < moment) =
    history'.flags.filter fun flag => history'.rounds.any fun round =>
      round.id = flag.roundId && round.startTimeUtc < moment
  checkResults : history.checkResults.filter (·.checkedAt < moment) =
    history'.checkResults.filter (·.checkedAt < moment)
  flagDeliveryResults : history.flagDeliveryResults.filter (·.completedAt < moment) =
    history'.flagDeliveryResults.filter (·.completedAt < moment)
  attacks : history.attacks.filter (·.submittedAt < moment) =
    history'.attacks.filter (·.submittedAt < moment)

section Contest

/-- One round is an epoch; the board is frozen from 100 to 1000. -/
def contest : AdScoreboardGameRow := ⟨7, 1, some 1, some 1, none, some 100, 1000⟩

def contestSetup : AdSetup where
  teamServices := [⟨21, 7, 31, 41⟩, ⟨22, 7, 32, 41⟩]
  participations := [⟨⟨31, 7, 51⟩, none⟩, ⟨⟨32, 7, 52⟩, none⟩]
  teams := [⟨51, "red"⟩, ⟨52, "blue"⟩]
  divisions := []
  gameChallenges := [⟨⟨41, 7⟩, "vault", .pwn, .attackDefense, .active, true, 1⟩]

theorem contest_roundNumber_nodup (finalized : Bool) :
    (([⟨⟨1, 7, 1, 0⟩, 50, finalized⟩, ⟨⟨2, 7, 2, 50⟩, 110, false⟩] : List BoardRound).map
      fun round => (round.gameId, round.number)).Nodup := by
  simp

/-- Two rounds; the second team is checked in the first round at the given moment. -/
def contestHistory (finalized : Bool) (checkedAt : ℤ) (deliveries : List FlagDelivery)
    (attacks : List AdAttack) : AdHistory where
  rounds := [⟨⟨1, 7, 1, 0⟩, 50, finalized⟩, ⟨⟨2, 7, 2, 50⟩, 110, false⟩]
  flags := [⟨11, 1, 21, true, 1⟩, ⟨12, 1, 22, true, 1⟩]
  checkResults :=
    [⟨1, 21, .ok, none, 5, some 1, true⟩, ⟨1, 22, .ok, none, checkedAt, some 1, true⟩]
  flagDeliveryResults := deliveries
  attacks := attacks
  roundNumber_nodup := contest_roundNumber_nodup finalized

/-- The public board of the contest at 200. -/
def contestBoard (history : AdHistory) (rollups : ℤ → RollupStore) :
    Except AppError AdScoreboard :=
  buildAdScoreboard (fun _ => 0) contest contestSetup history rollups false 200

def unsealed : ℤ → RollupStore := fun _ => .empty

/-- A capture after the freeze and a round which starts after it do not show. -/
theorem frozenAdScoreboard_noninterference_lateCapture :
    contestBoard (contestHistory true 5 [] [⟨11, 32, 90⟩]) unsealed =
      contestBoard (contestHistory true 5 [] [⟨11, 32, 90⟩, ⟨12, 31, 101⟩]) unsealed :=
  frozenAdScoreboard_noninterference (fun _ => 0) contest contestSetup _ _ _ _ rfl (by decide)
    (by decide +kernel) rfl

/-- Agreement strictly before the freeze does not determine the board: it shows a capture
at the freeze itself; a delivery, the finalization of a round and, through a sealed epoch,
a check which were recorded after the freeze. -/
theorem frozenAdScoreboard_interference :
    (AdHistory.AgreeBefore 100 (contestHistory true 5 [] [])
        (contestHistory true 5 [] [⟨11, 32, 100⟩]) ∧
      contestBoard (contestHistory true 5 [] []) unsealed ≠
        contestBoard (contestHistory true 5 [] [⟨11, 32, 100⟩]) unsealed) ∧
    (AdHistory.AgreeBefore 100 (contestHistory true 5 [] [])
        (contestHistory true 5 [⟨⟨1, 22, false, 1⟩, 150⟩] []) ∧
      contestBoard (contestHistory true 5 [] []) unsealed ≠
        contestBoard (contestHistory true 5 [⟨⟨1, 22, false, 1⟩, 150⟩] []) unsealed) ∧
    (AdHistory.AgreeBefore 100 (contestHistory false 5 [] []) (contestHistory true 5 [] []) ∧
      contestBoard (contestHistory false 5 [] []) unsealed ≠
        contestBoard (contestHistory true 5 [] []) unsealed) ∧
    contestBoard (contestHistory true 150 [] []) unsealed ≠
      (ensureEpochRollups (fun _ => 0) contest contestSetup (contestHistory true 150 [] [])
        unsealed 200).bind (contestBoard (contestHistory true 150 [] [])) := by
  refine ⟨⟨?_, by decide +kernel⟩, ⟨?_, by decide +kernel⟩, ⟨?_, by decide +kernel⟩,
    by decide +kernel⟩
  all_goals constructor <;> decide +kernel

end Contest

end AttackDefense

end Rsctf
