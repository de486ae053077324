import Rsctf.KingOfTheHill.CellTotals

/-!
# Scoring a sequence of complete epochs

The evidence of an official event has one metadata row per hill in every epoch and a
service weight per hill which never changes.  The aggregates which are scored from
such evidence only depend on the totals of the hills over the epochs.
-/

open Fallible Guarded Keyed

namespace Rsctf

namespace KingOfTheHill

open PreviousTotals

/-- The frozen configuration of an official event. -/
structure OfficialConfig where
  rosterIds : List ℤ
  hills : List ℤ
  serviceWeight : ℤ → ℚ
  epochTicks : ℤ
  rosterIds_nodup : rosterIds.Nodup
  hills_nodup : hills.Nodup

/-- The metadata and the aggregated evidence of one epoch. -/
structure EpochEvidence where
  epoch : ℤ
  hillMetas : List HillEpochMetaRow
  teamEvidence : List TeamEvidenceRow
deriving DecidableEq, Repr

namespace EpochEvidence

/-- The epoch has exactly one metadata row per hill, with the frozen service weight. -/
structure Complete (config : OfficialConfig) (e : EpochEvidence) : Prop where
  grid : (e.hillMetas.map (·.challengeId)).Perm config.hills
  serviceWeight : ∀ row ∈ e.hillMetas, row.serviceWeight = config.serviceWeight row.challengeId
  hillMetas_tagged : ∀ row ∈ e.hillMetas, row.epoch = e.epoch
  teamEvidence_tagged : ∀ row ∈ e.teamEvidence, row.epoch = e.epoch

/-- The epoch can be sealed. -/
def immutable (epochTicks : ℤ) (ended : Bool) (e : EpochEvidence) : Bool :=
  e.hillMetas.head?.all fun first =>
    consistentRanges first e.hillMetas && sealable epochTicks ended first e.hillMetas

/-- The evidence of a team on a hill. -/
def team (e : EpochEvidence) (participationId challengeId : ℤ) : Option TeamEvidenceRow :=
  get TeamEvidenceRow.key (participationId, challengeId, e.epoch) e.teamEvidence

theorem Complete.nodup {config : OfficialConfig} {e : EpochEvidence} (h : e.Complete config) :
    (e.hillMetas.map (·.challengeId)).Nodup :=
  h.grid.nodup_iff.mpr config.hills_nodup

theorem Complete.hillMetas_ne_nil {config : OfficialConfig} {e : EpochEvidence}
    (h : e.Complete config) (hhills : config.hills ≠ []) : e.hillMetas ≠ [] := by
  intro hnil
  have hperm := h.grid
  rw [hnil, List.map_nil, List.nil_perm] at hperm
  exact hhills hperm

theorem immutable_row {epochTicks : ℤ} {ended : Bool} {e : EpochEvidence}
    (h : e.immutable epochTicks ended = true) {row : HillEpochMetaRow}
    (hrow : row ∈ e.hillMetas) :
    row.finalized epochTicks ended = true ∧ row.maxCheckedAt.isSome = true := by
  unfold immutable at h
  cases hmetas : e.hillMetas with
  | nil => simp [hmetas] at hrow
  | cons first rest =>
      rw [hmetas] at h hrow
      simp only [List.head?_cons, Option.all_some, consistentRanges, sealable, completeResults,
        Bool.and_eq_true, Bool.or_eq_true, List.all_eq_true, decide_eq_true_eq] at h
      obtain ⟨hranges, hcomplete, hfull⟩ := h
      obtain ⟨⟨-, -⟩, hcount⟩ := hranges row hrow
      obtain ⟨⟨hresults, hfinal⟩, hchecked⟩ := hcomplete row hrow
      refine ⟨?_, hchecked⟩
      simp only [HillEpochMetaRow.finalized, hfinal, hresults, hcount, decide_true,
        Bool.true_and, Bool.or_eq_true, decide_eq_true_eq]
      exact hfull.imp_right And.left

end EpochEvidence

section Hill

variable (sqrt : ℚ → ℚ) (row : HillEpochMetaRow) (team : Option TeamEvidenceRow)

/-- The score of evidence that passed validation. -/
def hillScore : KothEpochHillScore :=
  if row.claimSource = "Api" then apiEpochHillScore (apiHillEvidence row team)
  else epochHillScore sqrt (hillEvidence row team)

/-- The evidence passes the validation of its claim source. -/
def ValidHill : Prop :=
  if row.claimSource = "Api" then validateApiEvidence (apiHillEvidence row team) = .ok ()
  else validateEvidence (hillEvidence row team) = .ok ()

variable {row team} in
theorem scoreHill_of_valid (h : ValidHill row team) :
    scoreHill sqrt row team = .ok (hillScore sqrt row team) := by
  unfold ValidHill at h
  unfold scoreHill hillScore
  split <;> rename_i hsource
  · rw [if_pos hsource] at h
    rw [scoreApiEpochHill, h]
    rfl
  · rw [if_neg hsource] at h
    rw [scoreEpochHill, h]
    rfl

variable {sqrt row team} in
theorem valid_of_scoreHill {score : KothEpochHillScore}
    (h : scoreHill sqrt row team = .ok score) : ValidHill row team := by
  unfold scoreHill at h
  unfold ValidHill
  split <;> rename_i hsource
  · rw [if_pos hsource, scoreApiEpochHill] at h
    cases hvalid : validateApiEvidence (apiHillEvidence row team) with
    | ok => rfl
    | error error => simp [hvalid, bind, Except.bind, Except.mapError] at h
  · rw [if_neg hsource, scoreEpochHill] at h
    cases hvalid : validateEvidence (hillEvidence row team) with
    | ok => rfl
    | error error => simp [hvalid, bind, Except.bind, Except.mapError] at h

variable {row team} in
theorem hillScore_valid (h : ValidHill row team) : (hillScore sqrt row team).Valid := by
  unfold ValidHill at h
  unfold hillScore
  split <;> rename_i hsource
  · rw [if_pos hsource] at h
    exact apiEpochHillScore_valid h
  · rw [if_neg hsource] at h
    exact epochHillScore_valid sqrt h

theorem hillScore_serviceWeight : (hillScore sqrt row team).serviceWeight = row.serviceWeight := by
  unfold hillScore
  split <;> rfl

end Hill

section Scored

variable (sqrt : ℚ → ℚ) (config : OfficialConfig) (eventEnded : Bool)

namespace EpochEvidence

/-- The evidence of the whole roster passes validation. -/
def Valid (e : EpochEvidence) : Prop :=
  ∀ participationId ∈ config.rosterIds, ∀ row ∈ e.hillMetas,
    ValidHill row (e.team participationId row.challengeId)

def scoredCell (participationId : ℤ) (e : EpochEvidence) (row : HillEpochMetaRow) :
    ScoredCellEpoch :=
  scoredCellEpoch config.epochTicks eventEnded row (e.team participationId row.challengeId)
    (hillScore sqrt row (e.team participationId row.challengeId))

/-- The scored cells of a team in an epoch. -/
def scoredCells (participationId : ℤ) (e : EpochEvidence) : List ScoredCellEpoch :=
  e.hillMetas.map (e.scoredCell sqrt config eventEnded participationId)

def weight (e : EpochEvidence) : ℚ := epochWeightFraction e.hillMetas config.epochTicks

/-- The points of a team in an epoch. -/
def epochScore (participationId : ℤ) (e : EpochEvidence) : KothEpochAggregate where
  epoch := e.epoch
  points := (teamEpochScore ((e.scoredCells sqrt config eventEnded participationId).map
    fun cell => ⟨cell.score, cell.evidenceFraction⟩)).points
  epochWeight := e.weight config
  finalized := (e.scoredCells sqrt config eventEnded participationId).all (·.finalized)
  cumulativePointsNumerator := 0
  cumulativeEpochWeight := 0

end EpochEvidence

/-- The points of a team, epoch by epoch. -/
def epochScores (participationId : ℤ) (epochs : List EpochEvidence) : List KothEpochAggregate :=
  epochs.map (·.epochScore sqrt config eventEnded participationId)

/-- The cells of a team on a hill. -/
def hillCells (participationId challengeId : ℤ) (epochs : List EpochEvidence) :
    List ScoredCellEpoch :=
  epochs.flatMap fun e =>
    rows (·.challengeId) challengeId (e.scoredCells sqrt config eventEnded participationId)

def hillTotals (participationId challengeId : ℤ) (epochs : List EpochEvidence) :
    PreviousTotals :=
  cellTotals (hillCells sqrt config eventEnded participationId challengeId epochs)

def settledTotals (participationId challengeId : ℤ) (epochs : List EpochEvidence) :
    PreviousTotals :=
  cellTotals ((hillCells sqrt config eventEnded participationId challengeId epochs).filter
    (·.finalized))

/-- The weight of a hill in an epoch. -/
def HillEpochMetaRow.weight (epochTicks : ℤ) (row : HillEpochMetaRow) : ℚ :=
  row.epochFraction epochTicks * hillEvidenceFraction (count row.scorableTicks)

/-- The weight of a hill over a sequence of epochs. -/
def OfficialConfig.hillWeight (config : OfficialConfig) (challengeId : ℤ)
    (epochs : List EpochEvidence) : ℚ :=
  ((epochs.flatMap fun e => rows (·.challengeId) challengeId e.hillMetas).map
    (·.weight config.epochTicks)).sum

/-- The hills in the order in which the cells of a team are listed. -/
def OfficialConfig.hillOrder (config : OfficialConfig) : List ℤ := sortedKeys config.hills

/-- The cells of a team over a sequence of epochs. -/
def teamCells (participationId : ℤ) (epochs : List EpochEvidence) :
    List (ℤ × KothCellAggregate) :=
  cellsOfTotals (fun hill => settledTotals sqrt config eventEnded participationId hill epochs)
    (fun hill => hillTotals sqrt config eventEnded participationId hill epochs)
    config.serviceWeight config.hillOrder

/-- The aggregate of a team which is scored from valid evidence. -/
def teamOf (participationId : ℤ) (epochs : List EpochEvidence) : KothTeamAggregate :=
  let epochScores := epochScores sqrt config eventEnded participationId epochs
  let cells := teamCells sqrt config eventEnded participationId epochs
  { settledTotal := epochAverage ((epochScores.filter (·.finalized)).map fun epoch =>
      (epoch.points, epoch.epochWeight))
    projectedTotal := epochAverage (epochScores.map fun epoch => (epoch.points, epoch.epochWeight))
    acquisitionRate := teamRate (·.acquisitionRate) cells
    controlRate := teamRate (·.controlRate) cells
    reliabilityRate := teamRate (·.reliabilityRate) cells
    cells
    epochs := cumulate 0 0 epochScores }

variable {sqrt config eventEnded}

namespace EpochEvidence

theorem scoredCell_weight_nonneg (participationId : ℤ) (e : EpochEvidence)
    (row : HillEpochMetaRow) :
    0 ≤ (e.scoredCell sqrt config eventEnded participationId row).weight :=
  mul_nonneg (row.epochFraction_nonneg config.epochTicks) (hillEvidenceFraction_mem _).1

/-- A lookup in the evidence of several epochs only sees the rows of its own. -/
theorem team_flatMap {epochs : List EpochEvidence} (hnd : (epochs.map (·.epoch)).Nodup)
    (hcomplete : ∀ a ∈ epochs, a.Complete config) {e : EpochEvidence} (he : e ∈ epochs)
    (participationId challengeId : ℤ) :
    get TeamEvidenceRow.key (participationId, challengeId, e.epoch)
        (epochs.flatMap (·.teamEvidence)) =
      e.team participationId challengeId := by
  obtain ⟨l₁, l₂, rfl⟩ := List.append_of_mem he
  rw [List.map_append, List.map_cons, List.nodup_middle, List.nodup_cons,
    ← List.map_append] at hnd
  refine get_flatMap fun a ha row hrow hkey => hnd.1 ?_
  have hmem : a ∈ l₁ ++ e :: l₂ := by
    rcases List.mem_append.mp ha with h | h <;> simp [h]
  have hepoch : row.epoch = e.epoch := congrArg (·.2.2) hkey
  exact List.mem_map.mpr ⟨a, ha, ((hcomplete a hmem).teamEvidence_tagged row hrow).symm.trans hepoch⟩

end EpochEvidence

/-- Valid evidence is scored cell by cell. -/
theorem scoreCells_eq {epochs : List EpochEvidence} (hnd : (epochs.map (·.epoch)).Nodup)
    (hcomplete : ∀ e ∈ epochs, e.Complete config) (hvalid : ∀ e ∈ epochs, e.Valid config) :
    scoreCells sqrt config.epochTicks eventEnded (epochs.flatMap (·.hillMetas))
        (epochs.flatMap (·.teamEvidence)) config.rosterIds =
      .ok (epochs.flatMap fun e => e.hillMetas.flatMap fun row =>
        config.rosterIds.map fun participationId =>
          (participationId, e.epoch, e.scoredCell sqrt config eventEnded participationId row)) := by
  set evidence := epochs.flatMap (·.teamEvidence)
  have hteam : ∀ e ∈ epochs, ∀ row ∈ e.hillMetas, ∀ participationId : ℤ,
      get TeamEvidenceRow.key (participationId, row.challengeId, row.epoch) evidence =
        e.team participationId row.challengeId := by
    intro e he row hrow participationId
    rw [(hcomplete e he).hillMetas_tagged row hrow]
    exact EpochEvidence.team_flatMap hnd hcomplete he participationId row.challengeId
  have hscore : ∀ row ∈ epochs.flatMap (·.hillMetas),
      (config.rosterIds.mapM fun participationId => do
        let team := get TeamEvidenceRow.key (participationId, row.challengeId, row.epoch) evidence
        let score ← scoreHill sqrt row team
        return (participationId, row.epoch,
          scoredCellEpoch config.epochTicks eventEnded row team score)) =
        (.ok (config.rosterIds.map fun participationId =>
          let team := get TeamEvidenceRow.key (participationId, row.challengeId, row.epoch) evidence
          (participationId, row.epoch, scoredCellEpoch config.epochTicks eventEnded row team
            (hillScore sqrt row team))) : Except AppError _) := by
    intro row hrow
    obtain ⟨e, he, hrow⟩ := List.mem_flatMap.mp hrow
    refine mapM_eq_ok_map fun participationId hmember => ?_
    rw [hteam e he row hrow]
    dsimp only
    rw [scoreHill_of_valid sqrt (hvalid e he participationId hmember row hrow)]
    rfl
  rw [scoreCells, mapM_eq_ok_map hscore]
  refine congrArg Except.ok ?_
  rw [← List.flatMap_def, List.flatMap_assoc]
  refine List.flatMap_congr fun e he => List.flatMap_congr fun row hrow => ?_
  refine List.map_congr_left fun participationId _ => ?_
  rw [hteam e he row hrow, (hcomplete e he).hillMetas_tagged row hrow]
  rfl

/-- The roster can only be scored on valid evidence. -/
theorem valid_of_scoreCells {epochs : List EpochEvidence} (hnd : (epochs.map (·.epoch)).Nodup)
    (hcomplete : ∀ e ∈ epochs, e.Complete config) {scored : List (ℤ × ℤ × ScoredCellEpoch)}
    (h : scoreCells sqrt config.epochTicks eventEnded (epochs.flatMap (·.hillMetas))
      (epochs.flatMap (·.teamEvidence)) config.rosterIds = .ok scored) :
    ∀ e ∈ epochs, e.Valid config := by
  intro e he participationId hmember row hrow
  obtain ⟨_, hcells, -⟩ := bind_eq_ok_iff.mp h
  obtain ⟨_, hrows⟩ := exists_of_mapM_eq_ok hcells (List.mem_flatMap.mpr ⟨e, he, hrow⟩)
  obtain ⟨_, hcell⟩ := exists_of_mapM_eq_ok hrows hmember
  obtain ⟨_, hscore, -⟩ := bind_eq_ok_iff.mp hcell
  rw [(hcomplete e he).hillMetas_tagged row hrow,
    EpochEvidence.team_flatMap hnd hcomplete he] at hscore
  exact valid_of_scoreHill hscore

/-- The scored cells of one team, epoch by epoch. -/
theorem rows_scoreCells (epochs : List EpochEvidence) {participationId : ℤ}
    (hmember : participationId ∈ config.rosterIds) :
    (rows Prod.fst participationId (epochs.flatMap fun e => e.hillMetas.flatMap fun row =>
        config.rosterIds.map fun participationId =>
          (participationId, e.epoch,
            e.scoredCell sqrt config eventEnded participationId row))).map Prod.snd =
      epochs.flatMap fun e =>
        (e.scoredCells sqrt config eventEnded participationId).map (e.epoch, ·) := by
  rw [rows_flatMap, List.map_flatMap]
  refine List.flatMap_congr fun e _ => ?_
  have hrow : ∀ row : HillEpochMetaRow,
      rows Prod.fst participationId (config.rosterIds.map fun participationId =>
        (participationId, e.epoch, e.scoredCell sqrt config eventEnded participationId row)) =
        [(participationId, e.epoch,
          e.scoredCell sqrt config eventEnded participationId row)] := by
    intro row
    have hid : rows id participationId config.rosterIds = [participationId] :=
      rows_id config.rosterIds_nodup hmember
    rw [rows_map]
    exact congrArg (List.map _) hid
  rw [rows_flatMap, List.flatMap_congr fun row _ => hrow row, EpochEvidence.scoredCells,
    List.map_flatMap, List.map_map, List.map_eq_flatMap]
  rfl

namespace EpochEvidence

variable {e : EpochEvidence} {participationId : ℤ}

/-- Valid cells are aggregated to the points of the epoch. -/
theorem epochAggregate_eq (hvalid : e.Valid config)
    (hmember : participationId ∈ config.rosterIds) :
    epochAggregate e.epoch (e.weight config)
        (e.scoredCells sqrt config eventEnded participationId) =
      .ok (e.epochScore sqrt config eventEnded participationId) := by
  have hhills : ∀ hill ∈ (e.scoredCells sqrt config eventEnded participationId).map
      (fun cell => (⟨cell.score, cell.evidenceFraction⟩ : WeightedHillScore)),
      hill.score.Valid ∧ 0 ≤ hill.evidenceFraction ∧ hill.evidenceFraction ≤ 1 := by
    intro hill hhill
    obtain ⟨cell, hcell, rfl⟩ := List.mem_map.mp hhill
    obtain ⟨row, hrow, rfl⟩ := List.mem_map.mp hcell
    exact ⟨hillScore_valid sqrt (hvalid participationId hmember row hrow),
      hillEvidenceFraction_mem _⟩
  rw [epochAggregate, aggregateEpochHills_of_valid hhills]
  rfl

theorem epochScore_mem (e : EpochEvidence) (participationId : ℤ) :
    0 ≤ (e.epochScore sqrt config eventEnded participationId).points ∧
      0 ≤ (e.epochScore sqrt config eventEnded participationId).epochWeight ∧
      (e.epochScore sqrt config eventEnded participationId).epochWeight ≤ 1 :=
  ⟨(teamEpochScore_points_mem _).1, epochWeightFraction_mem e.hillMetas config.epochTicks⟩

theorem scoredCells_ne_nil (h : e.Complete config) (hhills : config.hills ≠ []) :
    e.scoredCells sqrt config eventEnded participationId ≠ [] := by
  rw [scoredCells, ne_eq, List.map_eq_nil_iff]
  exact h.hillMetas_ne_nil hhills

theorem map_challengeId_scoredCells (e : EpochEvidence) (participationId : ℤ) :
    (e.scoredCells sqrt config eventEnded participationId).map (·.challengeId) =
      e.hillMetas.map (·.challengeId) := by
  rw [scoredCells, List.map_map]
  rfl

theorem scoredCell_serviceWeight (h : e.Complete config) {cell : ScoredCellEpoch}
    (hcell : cell ∈ e.scoredCells sqrt config eventEnded participationId) :
    cell.score.serviceWeight = config.serviceWeight cell.challengeId := by
  obtain ⟨row, hrow, rfl⟩ := List.mem_map.mp hcell
  exact (hillScore_serviceWeight sqrt row _).trans (h.serviceWeight row hrow)

end EpochEvidence

theorem mem_hillCells {epochs : List EpochEvidence} {participationId challengeId : ℤ}
    {cell : ScoredCellEpoch} :
    cell ∈ hillCells sqrt config eventEnded participationId challengeId epochs ↔
      ∃ e ∈ epochs, cell ∈ e.scoredCells sqrt config eventEnded participationId ∧
        cell.challengeId = challengeId := by
  simp [hillCells]

/-- A hill is scored in every epoch. -/
theorem hillCells_ne_nil {epochs : List EpochEvidence} (hne : epochs ≠ [])
    (hcomplete : ∀ e ∈ epochs, e.Complete config) (participationId : ℤ) {challengeId : ℤ}
    (hhill : challengeId ∈ config.hills) :
    hillCells sqrt config eventEnded participationId challengeId epochs ≠ [] := by
  obtain ⟨e, he⟩ := List.exists_mem_of_ne_nil epochs hne
  have hmem : challengeId ∈
      (e.scoredCells sqrt config eventEnded participationId).map (·.challengeId) := by
    rw [e.map_challengeId_scoredCells]
    exact (hcomplete e he).grid.mem_iff.mpr hhill
  obtain ⟨cell, hcell, hid⟩ := List.mem_map.mp hmem
  exact List.ne_nil_of_mem (mem_hillCells.mpr ⟨e, he, hcell, hid⟩)

theorem hillCells_weight_nonneg {epochs : List EpochEvidence} {participationId challengeId : ℤ}
    {cell : ScoredCellEpoch}
    (hcell : cell ∈ hillCells sqrt config eventEnded participationId challengeId epochs) :
    0 ≤ cell.weight := by
  obtain ⟨e, -, hcell, -⟩ := mem_hillCells.mp hcell
  obtain ⟨row, -, rfl⟩ := List.mem_map.mp hcell
  exact e.scoredCell_weight_nonneg participationId row

theorem balanced_hillTotals (participationId challengeId : ℤ) (epochs : List EpochEvidence) :
    (hillTotals sqrt config eventEnded participationId challengeId epochs).Balanced :=
  balanced_cellTotals fun _ => hillCells_weight_nonneg

theorem balanced_settledTotals (participationId challengeId : ℤ) (epochs : List EpochEvidence) :
    (settledTotals sqrt config eventEnded participationId challengeId epochs).Balanced :=
  balanced_cellTotals fun _ hcell => hillCells_weight_nonneg (List.mem_of_mem_filter hcell)

theorem hillTotals_append (participationId challengeId : ℤ) (epochs₁ epochs₂ : List EpochEvidence) :
    hillTotals sqrt config eventEnded participationId challengeId (epochs₁ ++ epochs₂) =
      hillTotals sqrt config eventEnded participationId challengeId epochs₁
        + hillTotals sqrt config eventEnded participationId challengeId epochs₂ := by
  rw [hillTotals, hillCells, List.flatMap_append, cellTotals_append]
  rfl

theorem settledTotals_append (participationId challengeId : ℤ)
    (epochs₁ epochs₂ : List EpochEvidence) :
    settledTotals sqrt config eventEnded participationId challengeId (epochs₁ ++ epochs₂) =
      settledTotals sqrt config eventEnded participationId challengeId epochs₁
        + settledTotals sqrt config eventEnded participationId challengeId epochs₂ := by
  rw [settledTotals, hillCells, List.flatMap_append, List.filter_append, cellTotals_append]
  rfl

/-- The cells of a hill are scored from its metadata rows. -/
theorem hillCells_eq (participationId challengeId : ℤ) (epochs : List EpochEvidence) :
    hillCells sqrt config eventEnded participationId challengeId epochs =
      epochs.flatMap fun e => (rows (·.challengeId) challengeId e.hillMetas).map
        (e.scoredCell sqrt config eventEnded participationId) := by
  refine List.flatMap_congr fun e _ => ?_
  rw [EpochEvidence.scoredCells, rows_map]
  rfl

variable (sqrt eventEnded) in
/-- All teams play a hill for the same weight. -/
theorem weight_hillTotals (participationId challengeId : ℤ) (epochs : List EpochEvidence) :
    (hillTotals sqrt config eventEnded participationId challengeId epochs).weight =
      config.hillWeight challengeId epochs := by
  rw [hillTotals, column_cellTotals (·.weight) rfl fun _ _ => rfl, hillCells_eq,
    OfficialConfig.hillWeight, List.map_flatMap, List.map_flatMap]
  simp only [List.map_map]
  rfl

variable (sqrt config eventEnded) in
/-- Whether the event has ended only decides which cells are settled. -/
theorem hillTotals_eventEnded (ended : Bool) (participationId challengeId : ℤ)
    (epochs : List EpochEvidence) :
    hillTotals sqrt config ended participationId challengeId epochs =
      hillTotals sqrt config eventEnded participationId challengeId epochs := by
  simp only [hillTotals, cellTotals, hillCells_eq, List.map_flatMap, List.map_map]
  rfl

/-- Immutable epochs are settled. -/
theorem settledTotals_of_immutable {epochs : List EpochEvidence}
    (h : ∀ e ∈ epochs, e.immutable config.epochTicks eventEnded = true)
    (participationId challengeId : ℤ) :
    settledTotals sqrt config eventEnded participationId challengeId epochs =
      hillTotals sqrt config eventEnded participationId challengeId epochs := by
  rw [settledTotals, hillTotals, List.filter_eq_self.mpr]
  intro cell hcell
  obtain ⟨e, he, hcell, -⟩ := mem_hillCells.mp hcell
  obtain ⟨row, hrow, rfl⟩ := List.mem_map.mp hcell
  exact (EpochEvidence.immutable_row (h e he) hrow).1

section Aggregate

variable {epochs : List EpochEvidence} {participationId : ℤ}

/-- The cells of every hill are aggregated to the totals of the hill. -/
theorem map_cellAggregate (hne : epochs ≠ []) (hcomplete : ∀ e ∈ epochs, e.Complete config)
    (participationId : ℤ) :
    (sortedKeys ((epochs.flatMap (·.scoredCells sqrt config eventEnded participationId)).map
        (·.challengeId))).map (fun challengeId =>
          (challengeId, cellAggregate (rows (·.challengeId) challengeId
            (epochs.flatMap (·.scoredCells sqrt config eventEnded participationId))))) =
      teamCells sqrt config eventEnded participationId epochs := by
  have hkeys : sortedKeys ((epochs.flatMap
      (·.scoredCells sqrt config eventEnded participationId)).map (·.challengeId)) =
      config.hillOrder := by
    refine sortedKeys_congr fun challengeId => ?_
    rw [List.map_flatMap]
    simp only [EpochEvidence.map_challengeId_scoredCells, List.mem_flatMap]
    constructor
    · rintro ⟨e, he, hmem⟩
      exact (hcomplete e he).grid.mem_iff.mp hmem
    · intro hhill
      obtain ⟨e, he⟩ := List.exists_mem_of_ne_nil epochs hne
      exact ⟨e, he, (hcomplete e he).grid.mem_iff.mpr hhill⟩
  rw [hkeys, teamCells, cellsOfTotals]
  refine List.map_congr_left fun challengeId hmem => ?_
  have hhill : challengeId ∈ config.hills := mem_sortedKeys.mp hmem
  rw [rows_flatMap]
  refine congrArg (Prod.mk challengeId) (cellAggregate_eq
    (hillCells_ne_nil hne hcomplete participationId hhill) fun cell hcell => ?_)
  obtain ⟨e, he, hscored, rfl⟩ := mem_hillCells.mp hcell
  exact EpochEvidence.scoredCell_serviceWeight (hcomplete e he) hscored

/-- The aggregate of a team from its valid cells. -/
theorem teamAggregate_eq (hsorted : (epochs.map (·.epoch)).Pairwise (· < ·)) (hne : epochs ≠ [])
    (hcomplete : ∀ e ∈ epochs, e.Complete config) (hvalid : ∀ e ∈ epochs, e.Valid config)
    (hhills : config.hills ≠ []) (hmember : participationId ∈ config.rosterIds) :
    teamAggregate config.epochTicks (epochs.flatMap (·.hillMetas))
        (epochs.flatMap fun e =>
          (e.scoredCells sqrt config eventEnded participationId).map (e.epoch, ·)) =
      .ok (teamOf sqrt config eventEnded participationId epochs) := by
  set scored := epochs.flatMap fun e =>
    (e.scoredCells sqrt config eventEnded participationId).map (e.epoch, ·) with hscored
  have hnd : (epochs.map (·.epoch)).Nodup := hsorted.imp fun h => h.ne
  have hids : sortedKeys (scored.map Prod.fst) = epochs.map (·.epoch) := by
    refine sortedKeys_eq_of_pairwise hsorted fun epoch => ?_
    rw [hscored, List.map_flatMap]
    simp only [List.map_map, List.mem_flatMap, List.mem_map, Function.comp_apply]
    constructor
    · rintro ⟨e, he, _, _, rfl⟩
      exact ⟨e, he, rfl⟩
    · rintro ⟨e, he, rfl⟩
      obtain ⟨cell, hcell⟩ := List.exists_mem_of_ne_nil _
        (EpochEvidence.scoredCells_ne_nil (hcomplete e he) hhills)
      exact ⟨e, he, cell, hcell, rfl⟩
  have hcells : ∀ e ∈ epochs, (rows Prod.fst e.epoch scored).map Prod.snd =
      e.scoredCells sqrt config eventEnded participationId := by
    intro e he
    rw [hscored, rows_flatMap_of_tag (fun a _ cell hcell => ?_) hnd he, List.map_map]
    · exact List.map_id _
    · obtain ⟨_, -, rfl⟩ := List.mem_map.mp hcell
      rfl
  have hmetas : ∀ e ∈ epochs, rows (·.epoch) e.epoch (epochs.flatMap (·.hillMetas)) =
      e.hillMetas := fun e he =>
    rows_flatMap_of_tag (fun a ha => (hcomplete a ha).hillMetas_tagged) hnd he
  have hscores : ((epochs.map (·.epoch)).mapM fun epoch =>
      epochAggregate epoch (epochWeightFraction (rows (·.epoch) epoch
        (epochs.flatMap (·.hillMetas))) config.epochTicks)
        ((rows Prod.fst epoch scored).map Prod.snd)) =
      .ok (epochScores sqrt config eventEnded participationId epochs) := by
    rw [List.mapM_map]
    refine mapM_eq_ok_map fun e he => ?_
    rw [Function.comp_apply, hmetas e he, hcells e he]
    exact EpochEvidence.epochAggregate_eq (hvalid e he) hmember
  have hflatten : ((epochs.map (·.epoch)).map fun epoch =>
      (rows Prod.fst epoch scored).map Prod.snd).flatten =
      epochs.flatMap (·.scoredCells sqrt config eventEnded participationId) := by
    rw [List.map_map, ← List.flatMap_def]
    exact List.flatMap_congr hcells
  have haverage : ∀ l : List KothEpochAggregate,
      (∀ score ∈ l, score ∈ epochScores sqrt config eventEnded participationId epochs) →
      weightedEpochAverage (l.map fun epoch => (epoch.points, epoch.epochWeight)) =
        .ok (epochAverage (l.map fun epoch => (epoch.points, epoch.epochWeight))) := by
    intro l hl
    refine weightedEpochAverage_of_mem fun score hscore => ?_
    obtain ⟨summary, hsummary, rfl⟩ := List.mem_map.mp hscore
    obtain ⟨e, -, rfl⟩ := List.mem_map.mp (hl summary hsummary)
    exact e.epochScore_mem participationId
  simp only [teamAggregate, hids, hscores, hflatten, bind, Except.bind,
    haverage _ fun _ h => h, haverage _ fun _ h => List.mem_of_mem_filter h,
    map_cellAggregate hne hcomplete]
  rfl

variable (sqrt eventEnded) in
/-- The snapshot which is scored from a valid sequence of epochs. -/
theorem scoreEvidenceRows_eq (hsorted : (epochs.map (·.epoch)).Pairwise (· < ·))
    (hne : epochs ≠ []) (hcomplete : ∀ e ∈ epochs, e.Complete config)
    (hvalid : ∀ e ∈ epochs, e.Valid config) (hhills : config.hills ≠ []) :
    scoreEvidenceRows sqrt (epochs.flatMap (·.hillMetas)) (epochs.flatMap (·.teamEvidence))
        config.rosterIds config.epochTicks eventEnded =
      .ok {
        teams := (sortedKeys config.rosterIds).map fun participationId =>
          (participationId, teamOf sqrt config eventEnded participationId epochs)
        hills := []
        fullySettled := eventEnded && (epochs.flatMap (·.hillMetas)).all
          (·.finalized config.epochTicks eventEnded) } := by
  have hnd : (epochs.map (·.epoch)).Nodup := hsorted.imp fun h => h.ne
  have hmetas : ∃ e ∈ epochs, ∃ row, row ∈ e.hillMetas := by
    obtain ⟨e, he⟩ := List.exists_mem_of_ne_nil epochs hne
    obtain ⟨row, hrow⟩ := List.exists_mem_of_ne_nil _ ((hcomplete e he).hillMetas_ne_nil hhills)
    exact ⟨e, he, row, hrow⟩
  obtain ⟨e, he, row, hrow⟩ := hmetas
  have hnonempty : epochs.flatMap (·.hillMetas) ≠ [] :=
    List.ne_nil_of_mem (List.mem_flatMap.mpr ⟨e, he, hrow⟩)
  set scored := epochs.flatMap fun e => e.hillMetas.flatMap fun row =>
    config.rosterIds.map fun participationId =>
      (participationId, e.epoch, e.scoredCell sqrt config eventEnded participationId row)
    with hscored
  have hids : sortedKeys (scored.map Prod.fst) = sortedKeys config.rosterIds := by
    refine sortedKeys_congr fun participationId => ?_
    simp only [hscored, List.map_flatMap, List.map_map, List.mem_flatMap, List.mem_map,
      Function.comp_apply]
    constructor
    · rintro ⟨_, _, _, _, _, hmember, rfl⟩
      exact hmember
    · intro hmember
      exact ⟨e, he, row, hrow, participationId, hmember, rfl⟩
  have hteams : ((sortedKeys (scored.map Prod.fst)).mapM fun participationId => do
      let team ← teamAggregate config.epochTicks
        (epochs.flatMap fun e : EpochEvidence => e.hillMetas)
        ((rows Prod.fst participationId scored).map Prod.snd)
      return (participationId, team)) =
      .ok ((sortedKeys config.rosterIds).map fun participationId =>
        (participationId, teamOf sqrt config eventEnded participationId epochs)) := by
    rw [hids]
    refine mapM_eq_ok_map fun participationId hmem => ?_
    have hmember : participationId ∈ config.rosterIds := mem_sortedKeys.mp hmem
    rw [rows_scoreCells epochs hmember,
      teamAggregate_eq hsorted hne hcomplete hvalid hhills hmember]
    rfl
  rw [scoreEvidenceRows, if_neg hnonempty, scoreCells_eq hnd hcomplete hvalid]
  simp only [bind, Except.bind] at hteams ⊢
  rw [hteams]
  rfl

end Aggregate

end Scored

end KingOfTheHill

end Rsctf
