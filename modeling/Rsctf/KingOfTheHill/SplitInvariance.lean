import Rsctf.KingOfTheHill.SealedStore

/-!
# Sealing King of the Hill epochs does not change the scores

The scoreboard merges the rows of sealed epochs with the raw aggregates of the other
epochs.  For complete epochs the merged scores do not depend on how many immutable
epochs have been sealed.
-/

open Fallible Guarded Keyed Ledger Numbering

namespace Rsctf

namespace KingOfTheHill

open PreviousTotals

/-- The complete epochs of an official event. -/
structure EpochSequence (config : OfficialConfig) where
  epochs : List EpochEvidence
  numbered : Numbered (epochs.map (·.epoch))
  complete : ∀ e ∈ epochs, e.Complete config

/-- The first epoch which is scored from its evidence. -/
def RollupSnapshot.firstRawEpoch (snapshot : RollupSnapshot) : ℤ :=
  (snapshot.header.map fun header => header.epoch + 1).getD 1

/-- Score the epochs after a snapshot and merge them with it. -/
def loadKothScoring (sqrt : ℚ → ℚ) (config : OfficialConfig) (eventEnded : Bool)
    (currentEpoch : ℤ) (snapshot : RollupSnapshot) (epochs : List EpochEvidence) :
    Except AppError KothScoringSnapshot := do
  let rawEpochs := epochs.filter fun e => snapshot.firstRawEpoch ≤ e.epoch
  let raw ← scoreEvidenceRows sqrt (rawEpochs.flatMap (·.hillMetas))
    (rawEpochs.flatMap (·.teamEvidence)) config.rosterIds config.epochTicks eventEnded
  return mergeRollupPrefix config.rosterIds snapshot raw eventEnded currentEpoch

section Cumulate

theorem length_cumulate (pointsNumerator epochWeight : ℚ) (l : List KothEpochAggregate) :
    (cumulate pointsNumerator epochWeight l).length = l.length := by
  induction l generalizing pointsNumerator epochWeight with
  | nil => rfl
  | cons epoch l ih => simp [cumulate, ih]

theorem map_epoch_cumulate (pointsNumerator epochWeight : ℚ) (l : List KothEpochAggregate) :
    (cumulate pointsNumerator epochWeight l).map (·.epoch) = l.map (·.epoch) := by
  induction l generalizing pointsNumerator epochWeight with
  | nil => rfl
  | cons epoch l ih => simp [cumulate, ih]

/-- Running sums are recomputed from the points alone. -/
theorem cumulate_cumulate (pointsNumerator epochWeight pointsNumerator' epochWeight' : ℚ)
    (l : List KothEpochAggregate) :
    cumulate pointsNumerator epochWeight (cumulate pointsNumerator' epochWeight' l) =
      cumulate pointsNumerator epochWeight l := by
  induction l generalizing pointsNumerator epochWeight pointsNumerator' epochWeight' with
  | nil => rfl
  | cons epoch l ih => simp [cumulate, ih]

/-- Running sums continue from the totals of the epochs before. -/
theorem cumulate_append (totals : PreviousTotals) (l₁ l₂ : List KothEpochAggregate) :
    cumulate totals.pointsNumerator totals.weight (l₁ ++ l₂) =
      cumulate totals.pointsNumerator totals.weight l₁
        ++ cumulate (totals + (l₁.map (·.totals)).sum).pointsNumerator
          (totals + (l₁.map (·.totals)).sum).weight l₂ := by
  induction l₁ generalizing totals with
  | nil => simp [cumulate]
  | cons epoch l₁ ih =>
      have hstep := ih (totals + epoch.totals)
      rw [List.map_cons, List.sum_cons, ← add_assoc]
      exact congrArg (_ :: ·) hstep

end Cumulate

section Merge

variable {sqrt : ℚ → ℚ} {config : OfficialConfig} {eventEnded : Bool}

variable (sqrt config eventEnded) in
/-- The timeline of a team. -/
def teamTimeline (participationId : ℤ) (epochs : List EpochEvidence) : List KothEpochAggregate :=
  cumulate 0 0 (epochScores sqrt config eventEnded participationId epochs)

variable (sqrt config eventEnded) in
/-- The merged aggregate of a team over a sequence of epochs. -/
def mergedTeam (participationId : ℤ) (epochs : List EpochEvidence) : KothTeamAggregate :=
  let totals := teamTotals sqrt config eventEnded participationId epochs
  { settledTotal := 0
    projectedTotal := 0
    acquisitionRate := ratio totals.acquisitionNumerator totals.rateWeight
    controlRate := ratio totals.controlNumerator totals.rateWeight
    reliabilityRate := ratio totals.slaNumerator totals.rateWeight
    cells := teamCells sqrt config eventEnded participationId epochs
    epochs := teamTimeline sqrt config eventEnded participationId epochs }

variable (sqrt config eventEnded) in
/-- A snapshot remembers some epochs of a team when its rows carry their totals. -/
structure RollupSnapshot.Remembers (snapshot : RollupSnapshot) (participationId : ℤ)
    (epochs : List EpochEvidence) : Prop where
  team : ((get (·.participationId) participationId snapshot.teams).map (·.totals)).getD 0 =
    teamTotals sqrt config eventEnded participationId epochs
  hillIds : ∀ hill, hill ∈ (rows (·.participationId) participationId snapshot.hills).map
    (·.challengeId) ↔ epochs ≠ [] ∧ hill ∈ config.hills
  cells : ∀ hill ∈ config.hills, ((get (·.challengeId) hill
    (rows (·.participationId) participationId snapshot.hills)).map rollupCell).getD .empty =
      cellOfTotals (hillTotals sqrt config eventEnded participationId hill epochs)
        (hillTotals sqrt config eventEnded participationId hill epochs)
        (if epochs = [] then 0 else config.serviceWeight hill)
  recent : ((rows (·.participationId) participationId snapshot.recent).map recentEpoch).Perm
    ((teamTimeline sqrt config eventEnded participationId epochs).rtake recentEpochLimit)

variable (sqrt config eventEnded) in
/-- The raw aggregate of a team, which is empty when no epoch is scored raw. -/
def rawTeam (participationId : ℤ) (epochs : List EpochEvidence) : KothTeamAggregate :=
  if epochs = [] then .empty else teamOf sqrt config eventEnded participationId epochs

section Team

variable {participationId : ℤ} {before after : List EpochEvidence}

variable (sqrt config eventEnded) in
theorem teamTotals_eq (participationId : ℤ) (epochs : List EpochEvidence) :
    teamTotals sqrt config eventEnded participationId epochs =
      { hillsTotals (fun hill => hillTotals sqrt config eventEnded participationId hill epochs)
          config.serviceWeight config.hillOrder with
        pointsNumerator := ((epochScores sqrt config eventEnded participationId epochs).map
          KothEpochAggregate.totals).sum.pointsNumerator
        weight := ((epochScores sqrt config eventEnded participationId epochs).map
          KothEpochAggregate.totals).sum.weight } := by
  rw [teamTotals, sum_epochTotals, hillsTotals_eq]
  simp [add_def, zero_def]

theorem teamTimeline_append (participationId : ℤ) (before after : List EpochEvidence) :
    teamTimeline sqrt config eventEnded participationId (before ++ after) =
      teamTimeline sqrt config eventEnded participationId before
        ++ cumulate (teamTotals sqrt config eventEnded participationId before).pointsNumerator
          (teamTotals sqrt config eventEnded participationId before).weight
          (epochScores sqrt config eventEnded participationId after) := by
  rw [teamTimeline, epochScores, List.map_append,
    teamTotals_eq sqrt config eventEnded participationId before]
  have happend := cumulate_append 0 (epochScores sqrt config eventEnded participationId before)
    (epochScores sqrt config eventEnded participationId after)
  rw [zero_add] at happend
  exact happend

variable (sqrt eventEnded) in
/-- The numerators of a team are recovered from its raw rates. -/
theorem rawTeam_numerators (hcomplete : ∀ e ∈ after, e.Complete config)
    (hvalid : ∀ e ∈ after, e.Valid config) (hmember : participationId ∈ config.rosterIds) :
    let raw := rawTeam sqrt config eventEnded participationId after
    let totals := teamTotals sqrt config eventEnded participationId after
    (raw.cells.map (·.2.rateWeight)).sum = totals.rateWeight ∧
      raw.acquisitionRate * (raw.cells.map (·.2.rateWeight)).sum = totals.acquisitionNumerator ∧
      raw.controlRate * (raw.cells.map (·.2.rateWeight)).sum = totals.controlNumerator ∧
      raw.reliabilityRate * (raw.cells.map (·.2.rateWeight)).sum = totals.slaNumerator := by
  by_cases hne : after = []
  · subst hne
    rw [teamTotals_nil]
    simp [rawTeam, KothTeamAggregate.empty, zero_def]
  · have hshows : (teamOf sqrt config eventEnded participationId after).Shows _ _ _ _ :=
      teamOf_shows hne hcomplete hvalid hmember
    simp only [rawTeam, if_neg hne]
    rw [hshows.acquisitionNumerator, hshows.controlNumerator, hshows.slaNumerator,
      hshows.rateWeight]
    simp only [teamTotals_eq, and_self]

theorem cellOfTotals_zero : cellOfTotals 0 0 0 = .empty := by
  simp [cellOfTotals, KothCellAggregate.empty, zero_def]

/-- The remembered cells merged with the raw ones are the cells of all epochs. -/
theorem mergeCells_eq {snapshot : RollupSnapshot}
    (h : snapshot.Remembers sqrt config eventEnded participationId before)
    (himmutable : ∀ e ∈ before, e.immutable config.epochTicks eventEnded = true)
    (hne : before ++ after ≠ []) :
    mergeCells (rows (·.participationId) participationId snapshot.hills)
        (rawTeam sqrt config eventEnded participationId after).cells =
      teamCells sqrt config eventEnded participationId (before ++ after) := by
  set hillRows := rows (·.participationId) participationId snapshot.hills
  by_cases hafter : after = []
  · subst hafter
    rw [List.append_nil] at hne ⊢
    have hkeys : sortedKeys (hillRows.map (·.challengeId) ++ []) = config.hillOrder := by
      refine sortedKeys_congr fun hill => ?_
      rw [List.append_nil, h.hillIds hill]
      exact and_iff_right hne
    simp only [rawTeam, if_true, KothTeamAggregate.empty, mergeCells, List.map_nil, hkeys,
      get_nil]
    refine List.map_congr_left fun hill hhill => congrArg (Prod.mk hill) ?_
    dsimp only
    rw [h.cells hill (mem_sortedKeys.mp hhill), if_neg hne,
      settledTotals_of_immutable himmutable]
  · have hraw : (rawTeam sqrt config eventEnded participationId after).cells =
        teamCells sqrt config eventEnded participationId after := by
      rw [rawTeam, if_neg hafter]
      rfl
    have hids : (teamCells sqrt config eventEnded participationId after).map Prod.fst =
        config.hillOrder := by
      rw [teamCells, cellsOfTotals, List.map_map]
      exact List.map_id _
    have hkeys : sortedKeys (hillRows.map (·.challengeId) ++ config.hillOrder) =
        config.hillOrder := by
      refine sortedKeys_congr fun hill => ?_
      rw [List.mem_append, h.hillIds hill, OfficialConfig.hillOrder, mem_sortedKeys]
      exact or_iff_right_of_imp And.right
    rw [hraw, mergeCells, hids, hkeys]
    refine List.map_congr_left fun hill hhill => congrArg (Prod.mk hill) ?_
    have hget : get Prod.fst hill (teamCells sqrt config eventEnded participationId after) =
        some (hill, _) := get_graph _ hhill
    rw [hget]
    dsimp only
    rw [h.cells hill (mem_sortedKeys.mp hhill),
      mergeCell_cellOfTotals (balanced_hillTotals _ _ _) (balanced_hillTotals _ _ _)
        (balanced_settledTotals _ _ _) (balanced_hillTotals _ _ _),
      settledTotals_append, hillTotals_append, settledTotals_of_immutable himmutable]

/-- The remembered timeline continued by the raw one is the end of the whole timeline. -/
theorem mergeTimeline_eq {snapshot : RollupSnapshot}
    (h : snapshot.Remembers sqrt config eventEnded participationId before)
    (hsorted : ((before ++ after).map (·.epoch)).Pairwise (· < ·)) :
    ((rows (·.participationId) participationId snapshot.recent).map recentEpoch
        ++ cumulate (teamTotals sqrt config eventEnded participationId before).pointsNumerator
          (teamTotals sqrt config eventEnded participationId before).weight
          (rawTeam sqrt config eventEnded participationId after).epochs).insertionSort
            (fun left right => left.epoch ≤ right.epoch) =
      (teamTimeline sqrt config eventEnded participationId (before ++ after)).drop
        (before.length - recentEpochLimit) := by
  have hlength : (teamTimeline sqrt config eventEnded participationId before).length =
      before.length := by
    rw [teamTimeline, length_cumulate, epochScores, List.length_map]
  have hraw : cumulate (teamTotals sqrt config eventEnded participationId before).pointsNumerator
      (teamTotals sqrt config eventEnded participationId before).weight
      (rawTeam sqrt config eventEnded participationId after).epochs =
      cumulate (teamTotals sqrt config eventEnded participationId before).pointsNumerator
        (teamTotals sqrt config eventEnded participationId before).weight
        (epochScores sqrt config eventEnded participationId after) := by
    unfold rawTeam
    split
    · subst after
      rfl
    · exact cumulate_cumulate _ _ _ _ _
  have hdrop : (teamTimeline sqrt config eventEnded participationId (before ++ after)).drop
      (before.length - recentEpochLimit) =
      (teamTimeline sqrt config eventEnded participationId before).rtake recentEpochLimit
        ++ cumulate (teamTotals sqrt config eventEnded participationId before).pointsNumerator
          (teamTotals sqrt config eventEnded participationId before).weight
          (epochScores sqrt config eventEnded participationId after) := by
    rw [teamTimeline_append, List.drop_append_of_le_length (by rw [hlength]; omega), List.rtake,
      hlength]
  have hepochs : ((teamTimeline sqrt config eventEnded participationId (before ++ after)).map
      (·.epoch)).Pairwise (· < ·) := by
    rw [teamTimeline, map_epoch_cumulate, epochScores, List.map_map]
    exact hsorted
  have hpairwise := List.pairwise_map.mp (hepochs.sublist ((List.drop_sublist
    (before.length - recentEpochLimit) _).map _))
  have htotal : Std.Total fun left right : KothEpochAggregate => left.epoch ≤ right.epoch :=
    ⟨fun left right => le_total left.epoch right.epoch⟩
  have htrans : IsTrans KothEpochAggregate fun left right => left.epoch ≤ right.epoch :=
    ⟨fun _ _ _ => le_trans⟩
  rw [hraw]
  refine insertionSort_eq_of_perm ?_ (hpairwise.imp fun hlt => hlt.le) ?_
  · rw [hdrop]
    exact h.recent.append_right _
  · intro a ha b hb hab hba
    have hnd := List.pairwise_map.mpr (hpairwise.imp fun hlt => hlt.ne)
    exact List.inj_on_of_nodup_map hnd ha hb (le_antisymm hab hba)

/-- Merging a snapshot with raw epochs gives the aggregate of all epochs, with a timeline
that starts at the epochs which the snapshot still shows. -/
theorem mergeTeam_eq {snapshot : RollupSnapshot} {raw : KothScoringSnapshot}
    (h : snapshot.Remembers sqrt config eventEnded participationId before)
    (hraw : ((get Prod.fst participationId raw.teams).map Prod.snd).getD .empty =
      rawTeam sqrt config eventEnded participationId after)
    (himmutable : ∀ e ∈ before, e.immutable config.epochTicks eventEnded = true)
    (hcomplete : ∀ e ∈ after, e.Complete config) (hvalid : ∀ e ∈ after, e.Valid config)
    (hmember : participationId ∈ config.rosterIds)
    (hsorted : ((before ++ after).map (·.epoch)).Pairwise (· < ·)) (hne : before ++ after ≠ []) :
    mergeTeam snapshot raw participationId =
      { mergedTeam sqrt config eventEnded participationId (before ++ after) with
        epochs := (teamTimeline sqrt config eventEnded participationId (before ++ after)).drop
          (before.length - recentEpochLimit) } := by
  obtain ⟨hrate, hacquisition, hcontrol, hsla⟩ :=
    rawTeam_numerators sqrt eventEnded hcomplete hvalid hmember
  simp only [mergeTeam, hraw, h.team, hacquisition, hcontrol, hsla,
    mergeCells_eq h himmutable hne, mergeTimeline_eq h hsorted, mergedTeam, teamTotals_append]
  simp only [hrate]
  rfl

end Team

section Snapshot

variable {participationId : ℤ} {finalizedRound : EpochEvidence → ℤ}
  {epochs l : List EpochEvidence} {a : EpochEvidence}

variable (sqrt config eventEnded) in
theorem remembers_none (participationId : ℤ) :
    RollupSnapshot.none.Remembers sqrt config eventEnded participationId [] where
  team := (teamTotals_nil participationId).symm
  hillIds hill := by simp [RollupSnapshot.none]
  cells hill _ := cellOfTotals_zero.symm
  recent := List.Perm.refl _

/-- The hill rows of a team in an epoch. -/
theorem rows_hillRowsOf (before : List EpochEvidence) (e : EpochEvidence)
    (hmember : participationId ∈ config.rosterIds) :
    rows (·.participationId) participationId (hillRowsOf sqrt config eventEnded before e) =
      e.hillMetas.map (hillRowOf sqrt config eventEnded before e participationId) := by
  have hnd : (config.rosterIds.map id).Nodup := by
    rw [List.map_id]
    exact config.rosterIds_nodup
  refine (rows_flatMap_of_tag (fun participationId _ row hrow => ?_) hnd hmember :
    rows KothEpochHillRollup.participationId (id participationId) _ = _)
  obtain ⟨hillMeta, -, rfl⟩ := List.mem_map.mp hrow
  rfl

/-- The team rows of one participation, epoch by epoch. -/
theorem rows_teams_sealedStore (epochs : List EpochEvidence)
    (hmember : participationId ∈ config.rosterIds) :
    rows (·.participationId) participationId
        (sealedStore sqrt config eventEnded finalizedRound epochs).teams =
      record (fun before e => teamRowOf sqrt config eventEnded before e participationId) []
        epochs := by
  refine rows_flatten_record_of_single (fun before e _ => ?_) []
  have hid : rows id participationId config.rosterIds = [participationId] :=
    rows_id config.rosterIds_nodup hmember
  rw [teamRowsOf, rows_map]
  exact congrArg (List.map _) hid

variable (sqrt) in
/-- The team rows show the timeline of the team. -/
theorem map_recentEpoch_record (participationId : ℤ) (before epochs : List EpochEvidence)
    (hfinal : ∀ e ∈ epochs,
      (e.epochScore sqrt config eventEnded participationId).finalized = true) :
    (record (fun before e => teamRowOf sqrt config eventEnded before e participationId) before
        epochs).map recentEpoch =
      cumulate (teamTotals sqrt config eventEnded participationId before).pointsNumerator
        (teamTotals sqrt config eventEnded participationId before).weight
        (epochScores sqrt config eventEnded participationId epochs) := by
  induction epochs generalizing before with
  | nil => rfl
  | cons e epochs ih =>
      rw [record_cons, List.map_cons, ih (before ++ [e]) fun a ha => hfinal a (by simp [ha])]
      have hhead : recentEpoch (teamRowOf sqrt config eventEnded before e participationId) =
          { e.epochScore sqrt config eventEnded participationId with
            cumulativePointsNumerator :=
              (teamTotals sqrt config eventEnded participationId before).pointsNumerator
                + (e.epochScore sqrt config eventEnded participationId).points
                  * (e.epochScore sqrt config eventEnded participationId).epochWeight
            cumulativeEpochWeight :=
              (teamTotals sqrt config eventEnded participationId before).weight
                + (e.epochScore sqrt config eventEnded participationId).epochWeight } := by
        rw [recentEpoch, ← hfinal e (by simp)]
        rfl
      have hsingle : teamTotals sqrt config eventEnded participationId [e] =
          { hillsTotals (fun hill => hillTotals sqrt config eventEnded participationId hill [e])
              config.serviceWeight config.hillOrder with
            pointsNumerator := (e.epochScore sqrt config eventEnded participationId).points
              * (e.epochScore sqrt config eventEnded participationId).epochWeight
            weight := (e.epochScore sqrt config eventEnded participationId).epochWeight } := by
        rw [teamTotals_eq]
        simp [epochScores, KothEpochAggregate.totals]
      rw [hhead, teamTotals_append, hsingle]
      rfl

theorem epochScore_finalized {e : EpochEvidence}
    (himmutable : e.immutable config.epochTicks eventEnded = true) (participationId : ℤ) :
    (e.epochScore sqrt config eventEnded participationId).finalized = true := by
  refine List.all_eq_true.mpr fun cell hcell => ?_
  obtain ⟨row, hrow, rfl⟩ := List.mem_map.mp hcell
  exact (EpochEvidence.immutable_row himmutable hrow).1

/-- The recent epochs are the last ones. -/
theorem mem_recentEpochs (hnum : Numbered ((l ++ [a]).map (·.epoch))) {epoch : ℤ} :
    epoch ∈ (sealedStore sqrt config eventEnded finalizedRound (l ++ [a])).recentEpochs a.epoch ↔
      epoch ∈ ((l ++ [a]).map (·.epoch)).rtake recentEpochLimit := by
  have hsorted := hnum.pairwise
  have hle : ∀ x ∈ (l ++ [a]).map (·.epoch), x ≤ a.epoch := by
    intro x hx
    rw [List.map_append, List.pairwise_append] at hsorted
    rw [List.map_append, List.mem_append] at hx
    rcases hx with hx | hx
    · exact (hsorted.2.2 x hx _ (by simp)).le
    · exact (List.mem_singleton.mp hx).le
  have hsort : ((l ++ [a]).map (·.epoch)).insertionSort (· ≥ ·) =
      ((l ++ [a]).map (·.epoch)).reverse := by
    refine insertionSort_eq_of_perm (List.reverse_perm _).symm ?_
      fun x _ y _ hxy hyx => le_antisymm hyx hxy
    exact List.pairwise_reverse.mpr (hsorted.imp fun hlt => hlt.le)
  rw [RollupStore.recentEpochs, map_epoch_headers_sealedStore,
    List.filter_eq_self.mpr (by simpa using hle), hsort, List.rtake_eq_reverse_take_reverse,
    List.mem_reverse]

/-- A snapshot of the sealed tables remembers their epochs. -/
theorem remembers_snapshotAt (hnum : Numbered ((l ++ [a]).map (·.epoch)))
    (hcomplete : ∀ e ∈ l ++ [a], e.Complete config) (hvalid : ∀ e ∈ l ++ [a], e.Valid config)
    (himmutable : ∀ e ∈ l ++ [a], e.immutable config.epochTicks eventEnded = true)
    (hmember : participationId ∈ config.rosterIds) :
    ((sealedStore sqrt config eventEnded finalizedRound (l ++ [a])).snapshotAt
        (headerOf config finalizedRound l a)).Remembers sqrt config eventEnded participationId
      (l ++ [a]) := by
  have ha : a.Complete config := hcomplete a (by simp)
  have hteams : (sealedStore sqrt config eventEnded finalizedRound (l ++ [a])).loadTeams a.epoch =
      teamRowsOf sqrt config eventEnded l a := loadTeams_sealedStore hnum
  have hhills : rows (·.participationId) participationId
      ((sealedStore sqrt config eventEnded finalizedRound (l ++ [a])).loadHills a.epoch) =
      a.hillMetas.map (hillRowOf sqrt config eventEnded l a participationId) := by
    rw [loadHills_sealedStore hnum, rows_hillRowsOf l a hmember]
  constructor
  · change ((get _ _ ((sealedStore sqrt config eventEnded finalizedRound
      (l ++ [a])).loadTeams a.epoch)).map _).getD 0 = _
    rw [hteams]
    exact team_totals_teamRowsOf l ha (hvalid a (by simp)) hmember
  · intro hill
    change hill ∈ (rows _ _ ((sealedStore sqrt config eventEnded finalizedRound
      (l ++ [a])).loadHills a.epoch)).map _ ↔ _
    rw [hhills, List.map_map, ← ha.grid.mem_iff]
    exact (and_iff_right (by simp)).symm
  · intro hill hhill
    obtain ⟨row, hrow, rfl⟩ := List.mem_map.mp (ha.grid.mem_iff.mpr hhill)
    have hnd : ((a.hillMetas.map (hillRowOf sqrt config eventEnded l a participationId)).map
        (·.challengeId)).Nodup := by
      rw [List.map_map]
      exact ha.nodup
    have hget : get (·.challengeId) row.challengeId
        (a.hillMetas.map (hillRowOf sqrt config eventEnded l a participationId)) =
        some (hillRowOf sqrt config eventEnded l a participationId row) :=
      (get_eq_some_iff hnd).mpr ⟨List.mem_map_of_mem hrow, rfl⟩
    change ((get _ _ (rows _ _ ((sealedStore sqrt config eventEnded finalizedRound
      (l ++ [a])).loadHills a.epoch))).map _).getD _ = _
    have hbalanced : (hillRowOf sqrt config eventEnded l a participationId row).totals.Balanced := by
      rw [hillRowOf_totals]
      exact balanced_hillTotals _ _ _
    rw [hhills, hget, Option.map_some, Option.getD_some, rollupCell_eq hbalanced,
      hillRowOf_totals, if_neg (by simp)]
    rfl
  · set store := sealedStore sqrt config eventEnded finalizedRound (l ++ [a])
    set history := record (fun before e => teamRowOf sqrt config eventEnded before e
      participationId) [] (l ++ [a])
    have hepochs : history.map (·.epoch) = (l ++ [a]).map (·.epoch) :=
      map_record (by intros; rfl) [] (l ++ [a])
    have hfilter : rows (·.participationId) participationId
        (store.teams.filter fun row => row.epoch ∈ store.recentEpochs a.epoch) =
        history.rtake recentEpochLimit := by
      have hcomm : rows (·.participationId) participationId
          (store.teams.filter fun row => row.epoch ∈ store.recentEpochs a.epoch) =
          (rows (·.participationId) participationId store.teams).filter fun row =>
            row.epoch ∈ (history.map (·.epoch)).rtake recentEpochLimit := by
        simp only [rows, List.filter_filter, hepochs, store, mem_recentEpochs hnum, Bool.and_comm]
      rw [hcomm, rows_teams_sealedStore _ hmember]
      refine filter_mem_rtake ?_ recentEpochLimit
      rw [hepochs]
      exact hnum.nodup
    have hshown : (history.rtake recentEpochLimit).map recentEpoch =
        (teamTimeline sqrt config eventEnded participationId (l ++ [a])).rtake
          recentEpochLimit := by
      have hmap := map_recentEpoch_record sqrt participationId [] (l ++ [a])
        fun e he => epochScore_finalized (himmutable e he) participationId
      rw [teamTotals_nil] at hmap
      have hlength : (teamTimeline sqrt config eventEnded participationId (l ++ [a])).length =
          history.length := by
        rw [teamTimeline, length_cumulate, epochScores, List.length_map, length_record]
      rw [List.rtake, List.rtake, hlength, List.map_drop]
      exact congrArg (List.drop _) hmap
    rw [← hshown, ← hfilter]
    exact ((List.perm_insertionSort _ _).filter _).map _

end Snapshot

section Scores

/-- Leave out the first epochs of every timeline. -/
def skipEpochs (skipped : ℕ) (teams : List (ℤ × KothTeamAggregate)) :
    List (ℤ × KothTeamAggregate) :=
  teams.map fun team => (team.1, { team.2 with epochs := team.2.epochs.drop skipped })

theorem skipEpochs_zero (teams : List (ℤ × KothTeamAggregate)) : skipEpochs 0 teams = teams :=
  List.map_id teams

theorem skipEpochs_eq_self (skipped : ℕ) {teams : List (ℤ × KothTeamAggregate)}
    (h : ∀ team ∈ teams, team.2.epochs = []) : skipEpochs skipped teams = teams := by
  refine (List.map_congr_left fun team hteam => ?_).trans (List.map_id teams)
  rw [h team hteam, List.drop_nil, ← h team hteam]
  rfl

/-- The normalization of the hills does not look at the timelines. -/
theorem applyFieldBestNormalization_skipEpochs (skipped : ℕ)
    (teams : List (ℤ × KothTeamAggregate)) :
    applyFieldBestNormalization (skipEpochs skipped teams) =
      (skipEpochs skipped (applyFieldBestNormalization teams).1,
        (applyFieldBestNormalization teams).2) := by
  have hcells : ((skipEpochs skipped teams).flatMap fun team => team.2.cells) =
      teams.flatMap fun team => team.2.cells := by
    rw [skipEpochs, List.flatMap_map]
  rw [applyFieldBestNormalization, hcells]
  simp only [applyFieldBestNormalization, skipEpochs, List.map_map]
  rfl

variable (sqrt config eventEnded) in
/-- The merged teams of the roster. -/
def mergedTeams (epochs : List EpochEvidence) : List (ℤ × KothTeamAggregate) :=
  config.rosterIds.map fun participationId =>
    (participationId, mergedTeam sqrt config eventEnded participationId epochs)

variable {currentEpoch : ℤ} {before after epochs : List EpochEvidence}

/-- Valid epochs are scored raw for every team of the roster. -/
theorem exists_raw (hsorted : (after.map (·.epoch)).Pairwise (· < ·))
    (hcomplete : ∀ e ∈ after, e.Complete config) (hvalid : ∀ e ∈ after, e.Valid config)
    (hhills : config.hills ≠ []) :
    ∃ raw, scoreEvidenceRows sqrt (after.flatMap (·.hillMetas)) (after.flatMap (·.teamEvidence))
        config.rosterIds config.epochTicks eventEnded = .ok raw ∧
      ∀ participationId ∈ config.rosterIds,
        ((get Prod.fst participationId raw.teams).map Prod.snd).getD .empty =
          rawTeam sqrt config eventEnded participationId after := by
  by_cases hne : after = []
  · subst hne
    exact ⟨.empty, rfl, fun participationId _ => rfl⟩
  · refine ⟨_, scoreEvidenceRows_eq sqrt eventEnded hsorted hne hcomplete hvalid hhills,
      fun participationId hmember => ?_⟩
    have hget := get_graph
      (fun participationId => teamOf sqrt config eventEnded participationId after)
      (mem_sortedKeys.mpr hmember)
    rw [hget, rawTeam, if_neg hne]
    rfl

variable (currentEpoch) in
/-- The scores of valid epochs, some of them remembered and the others raw. -/
theorem loadKothScoring_eq {snapshot : RollupSnapshot}
    (hafter : (epochs.filter fun e => snapshot.firstRawEpoch ≤ e.epoch) = after)
    (hremembers : ∀ participationId ∈ config.rosterIds,
      snapshot.Remembers sqrt config eventEnded participationId before)
    (himmutable : ∀ e ∈ before, e.immutable config.epochTicks eventEnded = true)
    (hsorted : ((before ++ after).map (·.epoch)).Pairwise (· < ·))
    (hcomplete : ∀ e ∈ after, e.Complete config) (hvalid : ∀ e ∈ after, e.Valid config)
    (hhills : config.hills ≠ []) (hne : before ++ after ≠ []) :
    ∃ scored, loadKothScoring sqrt config eventEnded currentEpoch snapshot epochs = .ok scored ∧
      scored.teams = skipEpochs (before.length - recentEpochLimit) (applyFieldBestNormalization
        (mergedTeams sqrt config eventEnded (before ++ after))).1 ∧
      scored.hills = (applyFieldBestNormalization
        (mergedTeams sqrt config eventEnded (before ++ after))).2 := by
  have hsortedAfter : (after.map (·.epoch)).Pairwise (· < ·) := by
    rw [List.map_append] at hsorted
    exact hsorted.sublist (List.sublist_append_right _ _)
  obtain ⟨raw, hscored, hraw⟩ := exists_raw hsortedAfter hcomplete hvalid hhills
  have hteams : (config.rosterIds.map fun participationId =>
      (participationId, mergeTeam snapshot raw participationId)) =
      skipEpochs (before.length - recentEpochLimit)
        (mergedTeams sqrt config eventEnded (before ++ after)) := by
    rw [mergedTeams, skipEpochs, List.map_map]
    refine List.map_congr_left fun participationId hmember => ?_
    rw [mergeTeam_eq (hremembers participationId hmember) (hraw participationId hmember)
      himmutable hcomplete hvalid hmember hsorted hne]
    rfl
  have hnormalized := applyFieldBestNormalization_skipEpochs
    (before.length - recentEpochLimit) (mergedTeams sqrt config eventEnded (before ++ after))
  rw [← hteams] at hnormalized
  refine ⟨mergeRollupPrefix config.rosterIds snapshot raw eventEnded currentEpoch, ?_,
    congrArg Prod.fst hnormalized, congrArg Prod.snd hnormalized⟩
  rw [loadKothScoring, hafter, hscored]
  rfl

/-- The roster can only be scored on valid evidence. -/
theorem valid_of_loadKothScoring {snapshot : RollupSnapshot}
    (hafter : (epochs.filter fun e => snapshot.firstRawEpoch ≤ e.epoch) = after)
    (hsorted : (after.map (·.epoch)).Pairwise (· < ·))
    (hcomplete : ∀ e ∈ after, e.Complete config) (hhills : config.hills ≠ [])
    {scored : KothScoringSnapshot}
    (h : loadKothScoring sqrt config eventEnded currentEpoch snapshot epochs = .ok scored) :
    ∀ e ∈ after, e.Valid config := by
  obtain ⟨raw, hraw, -⟩ := bind_eq_ok_iff.mp h
  rw [hafter, scoreEvidenceRows] at hraw
  split at hraw
  · rename_i hnil
    intro e he
    have hmetas := List.flatMap_eq_nil_iff.mp hnil e he
    exact absurd hmetas ((hcomplete e he).hillMetas_ne_nil hhills)
  · obtain ⟨cells, hcells, -⟩ := bind_eq_ok_iff.mp hraw
    exact valid_of_scoreCells (hsorted.imp fun hlt => hlt.ne) hcomplete hcells

/-- Without metadata no team has a timeline. -/
theorem loadKothScoring_of_hillMetas_nil (h : ∀ e ∈ epochs, e.hillMetas = []) :
    ∃ scored, loadKothScoring sqrt config eventEnded currentEpoch .none epochs = .ok scored ∧
      ∀ team ∈ scored.teams, team.2.epochs = [] := by
  have hmetas : (epochs.filter fun e => RollupSnapshot.none.firstRawEpoch ≤ e.epoch).flatMap
      (·.hillMetas) = [] :=
    List.flatMap_eq_nil_iff.mpr fun e he => h e (List.mem_of_mem_filter he)
  refine ⟨mergeRollupPrefix config.rosterIds .none .empty eventEnded currentEpoch, ?_, ?_⟩
  · rw [loadKothScoring, hmetas]
    rfl
  · intro team hteam
    obtain ⟨merged, hmerged, rfl⟩ := List.mem_map.mp hteam
    obtain ⟨participationId, -, rfl⟩ := List.mem_map.mp hmerged
    rfl

theorem filter_firstRawEpoch_none (hnum : Numbered (epochs.map (·.epoch))) :
    (epochs.filter fun e => RollupSnapshot.none.firstRawEpoch ≤ e.epoch) = epochs := by
  refine List.filter_eq_self.mpr fun e he => decide_eq_true ?_
  exact (hnum.mem_iff.mp (List.mem_map_of_mem he)).1

/-- The epochs after a header are scored raw. -/
theorem filter_firstRawEpoch {snapshot : RollupSnapshot} {header : KothEpochRollup}
    {l : List EpochEvidence} {a : EpochEvidence} (hsnapshot : snapshot.header = some header)
    (hheader : header.epoch = a.epoch)
    (hsorted : ((l ++ [a] ++ after).map (·.epoch)).Pairwise (· < ·)) :
    ((l ++ [a] ++ after).filter fun e => snapshot.firstRawEpoch ≤ e.epoch) = after := by
  have hfirst : snapshot.firstRawEpoch = a.epoch + 1 := by
    simp [RollupSnapshot.firstRawEpoch, hsnapshot, hheader]
  rw [List.map_append, List.pairwise_append, List.map_append, List.pairwise_append] at hsorted
  obtain ⟨⟨-, -, hbefore⟩, -, hafter⟩ := hsorted
  have hleft : ((l ++ [a]).filter fun e => snapshot.firstRawEpoch ≤ e.epoch) = [] := by
    refine List.filter_eq_nil_iff.mpr fun e he => ?_
    have hle : e.epoch ≤ a.epoch := by
      rcases List.mem_append.mp he with he | he
      · exact (hbefore _ (List.mem_map_of_mem he) _ (by simp)).le
      · rw [List.mem_singleton.mp he]
    rw [decide_eq_true_eq, hfirst]
    omega
  have hright : (after.filter fun e => snapshot.firstRawEpoch ≤ e.epoch) = after := by
    refine List.filter_eq_self.mpr fun e he => decide_eq_true ?_
    have hlt := hafter a.epoch (by simp) _ (List.mem_map_of_mem he)
    rw [hfirst]
    omega
  rw [List.filter_append, hleft, hright, List.nil_append]

variable {finalizedRound : EpochEvidence → ℤ}

theorem loadRollupSnapshot_sealedStore {l : List EpochEvidence} {a : EpochEvidence}
    (hnum : Numbered ((l ++ [a]).map (·.epoch))) :
    loadRollupSnapshot (sealedStore sqrt config eventEnded finalizedRound (l ++ [a])) none none =
      (sealedStore sqrt config eventEnded finalizedRound (l ++ [a])).snapshotAt
        (headerOf config finalizedRound l a) := by
  have hlatest : (sealedStore sqrt config eventEnded finalizedRound (l ++ [a])).latestHeader
      ((sealedStore sqrt config eventEnded finalizedRound (l ++ [a])).visible none none) =
      some (headerOf config finalizedRound l a) := latestHeader_sealedStore hnum fun _ _ => rfl
  rw [loadRollupSnapshot, hlatest]

/-- Reading the sealed tables remembers the sealed epochs. -/
theorem remembers_sealedStore (hnum : Numbered (before.map (·.epoch)))
    (hcomplete : ∀ e ∈ before, e.Complete config) (hvalid : ∀ e ∈ before, e.Valid config)
    (himmutable : ∀ e ∈ before, e.immutable config.epochTicks eventEnded = true)
    {participationId : ℤ} (hmember : participationId ∈ config.rosterIds) :
    (loadRollupSnapshot (sealedStore sqrt config eventEnded finalizedRound before) none
      none).Remembers sqrt config eventEnded participationId before := by
  rcases List.eq_nil_or_concat before with rfl | ⟨l, a, rfl⟩
  · exact remembers_none sqrt config eventEnded participationId
  · rw [List.concat_eq_append] at hnum hcomplete hvalid himmutable ⊢
    rw [loadRollupSnapshot_sealedStore hnum]
    exact remembers_snapshotAt hnum hcomplete hvalid himmutable hmember

variable (sqrt config eventEnded finalizedRound) in
/-- After reading the sealed tables the other epochs are scored raw. -/
theorem filter_firstRawEpoch_sealedStore (hnum : Numbered ((before ++ after).map (·.epoch))) :
    ((before ++ after).filter fun e => (loadRollupSnapshot
      (sealedStore sqrt config eventEnded finalizedRound before) none none).firstRawEpoch
        ≤ e.epoch) = after := by
  rcases List.eq_nil_or_concat before with rfl | ⟨l, a, rfl⟩
  · exact filter_firstRawEpoch_none hnum
  · rw [List.concat_eq_append] at hnum ⊢
    rw [loadRollupSnapshot_sealedStore hnum.of_map_append]
    exact filter_firstRawEpoch rfl rfl hnum.pairwise

end Scores

end Merge

/-- **Sealing King of the Hill epochs does not change the scores.**  For a frozen
configuration and any sequence of complete epochs, seal an arbitrary immutable prefix
and merge its rows with the raw scores of the other epochs: the teams and the hills are
the ones computed from all epochs raw.  A timeline starts with the last three sealed
epochs, and its entries carry the running sums of the whole timeline. -/
theorem loadKothScoring_split (sqrt : ℚ → ℚ) (config : OfficialConfig) (eventEnded : Bool)
    (currentEpoch : ℤ) (sequence : EpochSequence config) (finalizedRound : EpochEvidence → ℤ)
    (k : ℕ)
    (himmutable : ∀ e ∈ sequence.epochs.take k,
      e.immutable config.epochTicks eventEnded = true)
    (scores : List (ℤ × KothTeamAggregate) × List (ℤ × KothHillNormalization)) :
    (do
      let store ← foldRollups sqrt config eventEnded finalizedRound (sequence.epochs.take k)
      let split ← loadKothScoring sqrt config eventEnded currentEpoch
        (loadRollupSnapshot store none none) sequence.epochs
      return (split.teams, split.hills)) = .ok scores ↔
    (do
      let full ← loadKothScoring sqrt config eventEnded currentEpoch .none sequence.epochs
      return (skipEpochs ((sequence.epochs.take k).length - recentEpochLimit) full.teams,
        full.hills)) = .ok scores := by
  set epochs := sequence.epochs
  have hnum : Numbered (epochs.map (·.epoch)) := sequence.numbered
  have hcomplete : ∀ e ∈ epochs, e.Complete config := sequence.complete
  have hsplit : epochs.take k ++ epochs.drop k = epochs := List.take_append_drop k epochs
  have htake : ∀ e ∈ epochs.take k, e ∈ epochs := fun e he => List.mem_of_mem_take he
  have hdrop : ∀ e ∈ epochs.drop k, e ∈ epochs := fun e he => List.mem_of_mem_drop he
  have hnumTake : Numbered ((epochs.take k).map (·.epoch)) := by
    rw [← hsplit] at hnum
    exact hnum.of_map_append
  by_cases hmetas : ∀ e ∈ epochs, e.hillMetas = []
  · have hfold : foldRollups sqrt config eventEnded finalizedRound (epochs.take k) =
        .ok RollupStore.empty := foldRollups_of_hillMetas_nil fun e he => hmetas e (htake e he)
    obtain ⟨full, hfull, htimelines⟩ :
        ∃ full, loadKothScoring sqrt config eventEnded currentEpoch .none epochs = .ok full ∧
          ∀ team ∈ full.teams, team.2.epochs = [] := loadKothScoring_of_hillMetas_nil hmetas
    have hempty : loadRollupSnapshot RollupStore.empty none none = .none := rfl
    simp only [hfold, hempty, hfull, bind, Except.bind, skipEpochs_eq_self _ htimelines]
  · push Not at hmetas
    obtain ⟨e, he, hne⟩ := hmetas
    have hhills : config.hills ≠ [] := by
      intro hnil
      have hgrid := (hcomplete e he).grid
      rw [hnil, List.perm_nil, List.map_eq_nil_iff] at hgrid
      exact hne hgrid
    have hraw : (epochs.filter fun e => (loadRollupSnapshot (sealedStore sqrt config eventEnded
        finalizedRound (epochs.take k)) none none).firstRawEpoch ≤ e.epoch) = epochs.drop k := by
      rw [← hsplit] at hnum
      have hfilter := 
        filter_firstRawEpoch_sealedStore sqrt config eventEnded finalizedRound hnum
      rwa [hsplit] at hfilter
    have hfold : (∀ e ∈ epochs.take k, e.Valid config) →
        foldRollups sqrt config eventEnded finalizedRound (epochs.take k) =
          .ok (sealedStore sqrt config eventEnded finalizedRound (epochs.take k)) :=
      fun hvalid => foldRollups_eq hnumTake (fun e he => hcomplete e (htake e he)) hvalid hhills
        himmutable
    by_cases hvalid : ∀ e ∈ epochs, e.Valid config
    · have hvalidTake : ∀ e ∈ epochs.take k, e.Valid config := fun e he => hvalid e (htake e he)
      obtain ⟨full, hfull, hfullTeams, hfullHills⟩ := loadKothScoring_eq currentEpoch
        (filter_firstRawEpoch_none hnum)
        (fun participationId _ => remembers_none sqrt config eventEnded participationId)
        (by simp) hnum.pairwise hcomplete hvalid hhills (List.ne_nil_of_mem he)
      have hteams : full.teams = (applyFieldBestNormalization
          (mergedTeams sqrt config eventEnded epochs)).1 :=
        hfullTeams.trans (skipEpochs_zero _)
      obtain ⟨split, hsplitScores, hsplitTeams, hsplitHills⟩ := loadKothScoring_eq currentEpoch
        hraw
        (fun participationId hmember => remembers_sealedStore hnumTake
          (fun e he => hcomplete e (htake e he)) hvalidTake himmutable hmember)
        himmutable (by rw [hsplit]; exact hnum.pairwise)
        (fun e he => hcomplete e (hdrop e he)) (fun e he => hvalid e (hdrop e he)) hhills
        (by rw [hsplit]; exact List.ne_nil_of_mem he)
      rw [hsplit] at hsplitTeams hsplitHills
      have hboth : (split.teams, split.hills) =
          (skipEpochs ((epochs.take k).length - recentEpochLimit) full.teams, full.hills) := by
        rw [hsplitTeams, hsplitHills, hteams, hfullHills]
        rfl
      simp only [hfold hvalidTake, hsplitScores, hfull, hboth, bind, Except.bind]
    · refine iff_of_false (fun h => hvalid ?_) fun h => hvalid ?_
      · obtain ⟨store, hstore, hscores⟩ := bind_eq_ok_iff.mp h
        have hvalidTake := valid_of_foldRollups (fun e he => hcomplete e (htake e he)) hhills hstore
        rw [hfold hvalidTake, Except.ok.injEq] at hstore
        subst hstore
        obtain ⟨split, hsplitScores, -⟩ := bind_eq_ok_iff.mp hscores
        have hvalidDrop := valid_of_loadKothScoring hraw
          (hnum.pairwise.sublist ((List.drop_sublist k epochs).map _))
          (fun e he => hcomplete e (hdrop e he)) hhills hsplitScores
        intro e he
        rw [← hsplit, List.mem_append] at he
        exact he.elim (hvalidTake e) (hvalidDrop e)
      · obtain ⟨full, hfull, -⟩ := bind_eq_ok_iff.mp h
        exact valid_of_loadKothScoring (filter_firstRawEpoch_none hnum) hnum.pairwise hcomplete
          hhills hfull

/-- One team on one hill. -/
def soloConfig : OfficialConfig where
  rosterIds := [1]
  hills := [10]
  serviceWeight := fun _ => 1
  epochTicks := 1
  rosterIds_nodup := by decide
  hills_nodup := by decide

def soloEpoch (epoch resultCount controlledTicks : ℤ) : EpochEvidence where
  epoch := epoch
  hillMetas := [⟨10, "Marker", epoch, epoch, epoch, 1, 1, resultCount, 1, 1, true, some epoch⟩]
  teamEvidence := [⟨1, 10, epoch, 1, controlledTicks, 1, 1, 1, 1, none, none, none, none⟩]

theorem soloEpoch_complete (epoch resultCount controlledTicks : ℤ) :
    (soloEpoch epoch resultCount controlledTicks).Complete soloConfig := by
  constructor <;> simp [soloEpoch, soloConfig]

/-- A sealed epoch in which the team held the hill, and an open one in which it did not. -/
def soloSequence : EpochSequence soloConfig where
  epochs := [soloEpoch 1 1 1, soloEpoch 2 0 0]
  numbered := rfl
  complete e he := by
    rcases List.mem_pair.mp he with rfl | rfl
    · exact soloEpoch_complete 1 1 1
    · exact soloEpoch_complete 2 0 0

theorem loadKothScoring_split_solo :
    (do
      let store ← foldRollups id soloConfig false (fun e => e.epoch) (soloSequence.epochs.take 1)
      let split ← loadKothScoring id soloConfig false 2 (loadRollupSnapshot store none none)
        soloSequence.epochs
      return (split.teams, split.hills)) =
      .ok ([(1, ⟨100, 100, 1, 1 / 2, 1,
          [(10, ⟨100, 125 / 2, 100, 100, 1, 1 / 2, 1, 2, 1, 2, 2, 2, 1, 1⟩)],
          [⟨1, 100, 1, true, 100, 1⟩, ⟨2, 25, 1, false, 125, 2⟩]⟩)],
        [(10, ⟨100, 125 / 2, 1, 8 / 5, 1, 1⟩)]) :=
  (loadKothScoring_split id soloConfig false 2 soloSequence _ 1 (by decide +kernel) _).mpr
    (by decide +kernel)

end KingOfTheHill

end Rsctf
