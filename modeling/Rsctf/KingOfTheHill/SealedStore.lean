import Rsctf.Data.Numbering
import Rsctf.KingOfTheHill.ScoredEvidence

/-!
# The King of the Hill store after sealing a sequence of epochs

Sealing complete epochs one at a time writes rows which carry the totals of the
epochs up to their own.
-/

open Fallible Guarded Keyed Ledger Numbering

namespace Rsctf

namespace KingOfTheHill

open PreviousTotals

section Sealed

variable (sqrt : ℚ → ℚ) (config : OfficialConfig) (eventEnded : Bool)

/-- The totals of a team over a sequence of epochs. -/
def teamTotals (participationId : ℤ) (epochs : List EpochEvidence) : PreviousTotals :=
  ((epochScores sqrt config eventEnded participationId epochs).map (·.totals)).sum
    + hillsTotals (fun hill => hillTotals sqrt config eventEnded participationId hill epochs)
      config.serviceWeight config.hillOrder

namespace EpochEvidence

def scorableTicks (e : EpochEvidence) : ℤ :=
  (e.hillMetas.map fun row => max row.scorableTicks 0).sum

def eligibleWindows (e : EpochEvidence) : ℤ :=
  (e.hillMetas.map fun row => max row.eligibleWindows 0).sum

end EpochEvidence

/-- The header of an epoch sealed after the given earlier ones. -/
def headerOf (finalizedRound : EpochEvidence → ℤ) (before : List EpochEvidence)
    (e : EpochEvidence) : KothEpochRollup where
  epoch := e.epoch
  startRound := (e.hillMetas.head?.map (·.startRound)).getD 0
  endRound := (e.hillMetas.head?.map (·.endRound)).getD 0
  roundCount := (e.hillMetas.head?.map (·.roundCount)).getD 0
  epochWeight := e.weight config
  finalizedRound := finalizedRound e
  evidenceFinalizedAt := (e.hillMetas.filterMap (·.maxCheckedAt)).max?.getD 0
  scorableTicks := e.scorableTicks
  eligibleWindows := e.eligibleWindows
  cumulativeScorableTicks := (before.map (·.scorableTicks)).sum + e.scorableTicks
  cumulativeEligibleWindows := (before.map (·.eligibleWindows)).sum + e.eligibleWindows

def teamRowOf (before : List EpochEvidence) (e : EpochEvidence) (participationId : ℤ) :
    KothEpochTeamRollup :=
  computedTeamRow e.epoch (teamOf sqrt config eventEnded participationId [e])
    (e.epochScore sqrt config eventEnded participationId)
    (teamTotals sqrt config eventEnded participationId before) participationId

def teamRowsOf (before : List EpochEvidence) (e : EpochEvidence) : List KothEpochTeamRollup :=
  config.rosterIds.map (teamRowOf sqrt config eventEnded before e)

def hillRowOf (before : List EpochEvidence) (e : EpochEvidence) (participationId : ℤ)
    (row : HillEpochMetaRow) : KothEpochHillRollup :=
  computedHillRow config.epochTicks e.epoch row
    (cellOfTotals (settledTotals sqrt config eventEnded participationId row.challengeId [e])
      (hillTotals sqrt config eventEnded participationId row.challengeId [e])
      (config.serviceWeight row.challengeId))
    (hillTotals sqrt config eventEnded participationId row.challengeId before) participationId

def hillRowsOf (before : List EpochEvidence) (e : EpochEvidence) : List KothEpochHillRollup :=
  config.rosterIds.flatMap fun participationId =>
    e.hillMetas.map (hillRowOf sqrt config eventEnded before e participationId)

/-- The tables after sealing the given epochs in order. -/
def sealedStore (finalizedRound : EpochEvidence → ℤ) (epochs : List EpochEvidence) :
    RollupStore where
  headers := record (headerOf config finalizedRound) [] epochs
  teams := (record (teamRowsOf sqrt config eventEnded) [] epochs).flatten
  hills := (record (hillRowsOf sqrt config eventEnded) [] epochs).flatten

/-- Score one epoch and seal it. -/
def sealEpoch (finalizedRound : EpochEvidence → ℤ) (store : RollupStore) (e : EpochEvidence) :
    Except AppError RollupStore := do
  let scored ← scoreEvidenceRows sqrt e.hillMetas e.teamEvidence config.rosterIds
    config.epochTicks eventEnded
  materializeEpoch config.epochTicks store e.epoch (finalizedRound e) e.hillMetas
    config.rosterIds scored

/-- Seal the epochs one at a time, starting from empty tables. -/
def foldRollups (finalizedRound : EpochEvidence → ℤ) (epochs : List EpochEvidence) :
    Except AppError RollupStore :=
  epochs.foldlM (sealEpoch sqrt config eventEnded finalizedRound) RollupStore.empty

variable {sqrt config eventEnded}

theorem hillTotals_nil (participationId challengeId : ℤ) :
    hillTotals sqrt config eventEnded participationId challengeId [] = 0 := rfl

theorem teamTotals_nil (participationId : ℤ) :
    teamTotals sqrt config eventEnded participationId [] = 0 := by
  exact (zero_add _).trans (hillsTotals_zero config.serviceWeight config.hillOrder)

theorem teamTotals_append (participationId : ℤ) (epochs₁ epochs₂ : List EpochEvidence) :
    teamTotals sqrt config eventEnded participationId (epochs₁ ++ epochs₂) =
      teamTotals sqrt config eventEnded participationId epochs₁
        + teamTotals sqrt config eventEnded participationId epochs₂ := by
  simp only [teamTotals, epochScores, hillTotals_append, hillsTotals_add, List.map_append,
    List.sum_append]
  exact add_add_add_comm _ _ _ _

theorem EpochEvidence.serviceWeight_nonneg {e : EpochEvidence} (h : e.Complete config)
    (hvalid : e.Valid config) {participationId : ℤ} (hmember : participationId ∈ config.rosterIds)
    {hill : ℤ} (hhill : hill ∈ config.hills) : 0 ≤ config.serviceWeight hill := by
  obtain ⟨row, hrow, rfl⟩ := List.mem_map.mp (h.grid.mem_iff.mpr hhill)
  have hscore := hillScore_valid (fun x => x) (hvalid participationId hmember row hrow)
  have hpos := hscore.serviceWeight_pos
  rw [hillScore_serviceWeight, h.serviceWeight row hrow] at hpos
  exact hpos.le

/-- The aggregate scored from a sequence of epochs shows the totals of its hills. -/
theorem teamOf_shows {epochs : List EpochEvidence} (hne : epochs ≠ [])
    (hcomplete : ∀ e ∈ epochs, e.Complete config) (hvalid : ∀ e ∈ epochs, e.Valid config)
    {participationId : ℤ} (hmember : participationId ∈ config.rosterIds) :
    (teamOf sqrt config eventEnded participationId epochs).Shows
      (fun hill => settledTotals sqrt config eventEnded participationId hill epochs)
      (fun hill => hillTotals sqrt config eventEnded participationId hill epochs)
      config.serviceWeight config.hillOrder where
  cells := rfl
  acquisitionRate := rfl
  controlRate := rfl
  reliabilityRate := rfl
  balanced hill _ := balanced_hillTotals participationId hill epochs
  serviceWeight_nonneg hill hhill := by
    obtain ⟨e, he⟩ := List.exists_mem_of_ne_nil epochs hne
    exact EpochEvidence.serviceWeight_nonneg (hcomplete e he) (hvalid e he) hmember
      (mem_sortedKeys.mp hhill)

section Rows

variable {e : EpochEvidence} {before : List EpochEvidence} {participationId : ℤ}

theorem teamRowOf_totals (h : e.Complete config) (hvalid : e.Valid config)
    (hmember : participationId ∈ config.rosterIds) :
    (teamRowOf sqrt config eventEnded before e participationId).totals =
      teamTotals sqrt config eventEnded participationId (before ++ [e]) := by
  have hshows : (teamOf sqrt config eventEnded participationId [e]).Shows _ _ _ _ :=
    teamOf_shows (List.cons_ne_nil e []) (by simpa using h) (by simpa using hvalid) hmember
  rw [teamTotals_append]
  refine congrArg (teamTotals sqrt config eventEnded participationId before + ·) ?_
  rw [teamContribution_eq hshows, teamTotals]
  simp [epochScores]

theorem hillRowOf_totals (row : HillEpochMetaRow) :
    (hillRowOf sqrt config eventEnded before e participationId row).totals =
      hillTotals sqrt config eventEnded participationId row.challengeId (before ++ [e]) := by
  rw [hillTotals_append]
  exact congrArg (_ + ·) (hillContribution_cellOfTotals _ (balanced_hillTotals _ _ _) _)

/-- The rows computed for a team continue its prior totals. -/
theorem computeTeam_eq (h : e.Complete config) (hne : e.hillMetas ≠ [])
    {scored : KothScoringSnapshot} {previousTeams : List KothEpochTeamRollup}
    {previousHills : List KothEpochHillRollup}
    (hscored : get Prod.fst participationId scored.teams =
      some (participationId, teamOf sqrt config eventEnded participationId [e]))
    (hteams : ((get (·.participationId) participationId previousTeams).map (·.totals)).getD 0 =
      teamTotals sqrt config eventEnded participationId before)
    (hhills : ∀ row ∈ e.hillMetas, ((get KothEpochHillRollup.hillKey
      (participationId, row.challengeId) previousHills).map (·.totals)).getD 0 =
        hillTotals sqrt config eventEnded participationId row.challengeId before) :
    computeTeam e.hillMetas scored config.epochTicks previousTeams previousHills
        participationId =
      .ok (teamRowOf sqrt config eventEnded before e participationId,
        e.hillMetas.map (hillRowOf sqrt config eventEnded before e participationId)) := by
  have hepoch : (e.hillMetas.head?.map (·.epoch)).getD 0 = e.epoch := by
    rw [List.head?_eq_some_head hne]
    exact h.hillMetas_tagged _ (List.head_mem hne)
  have hfind : (teamOf sqrt config eventEnded participationId [e]).epochs.find?
      (·.epoch = e.epoch) =
      (teamOf sqrt config eventEnded participationId [e]).epochs.head? := by
    simp [teamOf, epochScores, cumulate, EpochEvidence.epochScore]
  have hrows : e.hillMetas.mapM (computeHill config.epochTicks e.epoch
      (teamOf sqrt config eventEnded participationId [e]).cells previousHills participationId) =
      .ok (e.hillMetas.map (hillRowOf sqrt config eventEnded before e participationId)) := by
    refine mapM_eq_ok_map fun row hrow => ?_
    have hmem : row.challengeId ∈ config.hillOrder :=
      mem_sortedKeys.mpr (h.grid.mem_iff.mp (List.mem_map_of_mem hrow))
    have hcell : get Prod.fst row.challengeId
        (teamOf sqrt config eventEnded participationId [e]).cells = some (row.challengeId, _) :=
      get_graph _ hmem
    rw [computeHill, hcell]
    dsimp only
    rw [hhills row hrow]
    rfl
  simp only [computeTeam, hepoch, hscored, Option.map_some, Option.getD_some, hfind, hteams,
    hrows]
  rfl

end Rows

section Queries

variable {finalizedRound : EpochEvidence → ℤ} {epochs l₁ l₂ : List EpochEvidence}
  {a e : EpochEvidence}

variable (sqrt config eventEnded finalizedRound) in
theorem map_epoch_headers_sealedStore (epochs : List EpochEvidence) :
    (sealedStore sqrt config eventEnded finalizedRound epochs).headers.map (·.epoch) =
      epochs.map (·.epoch) := by
  rw [sealedStore]
  exact map_record (by intros; rfl) [] epochs

theorem loadTeams_sealedStore (hnum : Numbered ((l₁ ++ a :: l₂).map (·.epoch))) :
    (sealedStore sqrt config eventEnded finalizedRound (l₁ ++ a :: l₂)).loadTeams a.epoch =
      teamRowsOf sqrt config eventEnded l₁ a := by
  refine rows_flatten_record (fun before e r hr => ?_) hnum.nodup []
  obtain ⟨participationId, -, rfl⟩ := List.mem_map.mp hr
  rfl

theorem mem_hillRowsOf {before : List EpochEvidence} {hill : KothEpochHillRollup} :
    hill ∈ hillRowsOf sqrt config eventEnded before e ↔
      ∃ participationId ∈ config.rosterIds, ∃ row ∈ e.hillMetas,
        hillRowOf sqrt config eventEnded before e participationId row = hill := by
  simp [hillRowsOf]

theorem loadHills_sealedStore (hnum : Numbered ((l₁ ++ a :: l₂).map (·.epoch))) :
    (sealedStore sqrt config eventEnded finalizedRound (l₁ ++ a :: l₂)).loadHills a.epoch =
      hillRowsOf sqrt config eventEnded l₁ a := by
  refine rows_flatten_record (fun before e r hr => ?_) hnum.nodup []
  obtain ⟨participationId, -, row, -, rfl⟩ := mem_hillRowsOf.mp hr
  rfl

theorem nodup_participationId_teamRowsOf (before : List EpochEvidence) (e : EpochEvidence) :
    ((teamRowsOf sqrt config eventEnded before e).map (·.participationId)).Nodup := by
  have hmap : (teamRowsOf sqrt config eventEnded before e).map (·.participationId) =
      config.rosterIds := by
    rw [teamRowsOf, List.map_map]
    exact List.map_id _
  rw [hmap]
  exact config.rosterIds_nodup

theorem nodup_hillKey_hillRowsOf (before : List EpochEvidence) (h : e.Complete config) :
    ((hillRowsOf sqrt config eventEnded before e).map KothEpochHillRollup.hillKey).Nodup := by
  have hmap : (hillRowsOf sqrt config eventEnded before e).map KothEpochHillRollup.hillKey =
      config.rosterIds.product (e.hillMetas.map (·.challengeId)) := by
    rw [hillRowsOf, List.map_flatMap, List.product]
    refine List.flatMap_congr fun participationId _ => ?_
    rw [List.map_map, List.map_map]
    rfl
  rw [hmap]
  exact config.rosterIds_nodup.product h.nodup

variable (sqrt config eventEnded finalizedRound) in
theorem sealedStore_append_singleton (epochs : List EpochEvidence) (e : EpochEvidence) :
    sealedStore sqrt config eventEnded finalizedRound (epochs ++ [e]) =
      { headers := (sealedStore sqrt config eventEnded finalizedRound epochs).headers
          ++ [headerOf config finalizedRound epochs e]
        teams := (sealedStore sqrt config eventEnded finalizedRound epochs).teams
          ++ teamRowsOf sqrt config eventEnded epochs e
        hills := (sealedStore sqrt config eventEnded finalizedRound epochs).hills
          ++ hillRowsOf sqrt config eventEnded epochs e } := by
  simp [sealedStore, record_append_singleton]

variable (sqrt config eventEnded finalizedRound) in
theorem nodup_key_teams_sealedStore (hnum : Numbered (epochs.map (·.epoch))) :
    ((sealedStore sqrt config eventEnded finalizedRound epochs).teams.map
      KothEpochTeamRollup.key).Nodup := by
  refine nodup_flatten_record Prod.fst (fun before e r hr => ?_)
    (fun before e _ => ?_) hnum.nodup []
  · obtain ⟨participationId, -, rfl⟩ := List.mem_map.mp hr
    rfl
  · refine List.Nodup.of_map Prod.snd ?_
    rw [List.map_map]
    exact nodup_participationId_teamRowsOf before e

variable (sqrt config eventEnded finalizedRound) in
theorem nodup_key_hills_sealedStore (hnum : Numbered (epochs.map (·.epoch)))
    (hcomplete : ∀ e ∈ epochs, e.Complete config) :
    ((sealedStore sqrt config eventEnded finalizedRound epochs).hills.map
      KothEpochHillRollup.key).Nodup := by
  refine nodup_flatten_record Prod.fst (fun before e r hr => ?_)
    (fun before e he => ?_) hnum.nodup []
  · obtain ⟨participationId, -, row, -, rfl⟩ := mem_hillRowsOf.mp hr
    rfl
  · refine List.Nodup.of_map Prod.snd ?_
    rw [List.map_map]
    exact nodup_hillKey_hillRowsOf before (hcomplete e he)

theorem epoch_lt_of_mem_headers (hnum : Numbered ((epochs ++ [e]).map (·.epoch)))
    {header : KothEpochRollup} (h : header ∈ record (headerOf config finalizedRound) [] epochs) :
    header.epoch < e.epoch := by
  obtain ⟨l₁, a, l₂, rfl, rfl⟩ := mem_record.mp h
  have hmem : a.epoch ∈ (l₁ ++ a :: l₂).map (·.epoch) := by simp
  have hsorted := hnum.pairwise
  rw [List.map_append, List.pairwise_append] at hsorted
  exact hsorted.2.2 _ hmem _ (by simp)

/-- The last header of the sequence is the latest one. -/
theorem latestHeader_sealedStore {p : KothEpochRollup → Bool}
    (hnum : Numbered ((epochs ++ [a]).map (·.epoch)))
    (hp : ∀ header ∈ (sealedStore sqrt config eventEnded finalizedRound (epochs ++ [a])).headers,
      p header = true) :
    (sealedStore sqrt config eventEnded finalizedRound (epochs ++ [a])).latestHeader p =
      some (headerOf config finalizedRound epochs a) := by
  rw [RollupStore.latestHeader, List.filter_eq_self.mpr hp, sealedStore,
    record_append_singleton]
  exact latest_append_singleton fun header hheader => epoch_lt_of_mem_headers hnum hheader

theorem previousHeader_sealedStore (hnum : Numbered ((epochs ++ [e]).map (·.epoch))) :
    (sealedStore sqrt config eventEnded finalizedRound epochs).latestHeader (·.epoch < e.epoch) =
      ((sealedStore sqrt config eventEnded finalizedRound epochs).headers).getLast? := by
  rcases List.eq_nil_or_concat epochs with rfl | ⟨l, a, rfl⟩
  · rfl
  · rw [List.concat_eq_append] at hnum ⊢
    rw [latestHeader_sealedStore hnum.of_map_append
      fun header h => decide_eq_true (epoch_lt_of_mem_headers hnum h), sealedStore,
      record_append_singleton]
    simp

variable (sqrt config eventEnded finalizedRound) in
theorem cumulative_previousHeader (hnum : Numbered ((epochs ++ [e]).map (·.epoch))) :
    (((sealedStore sqrt config eventEnded finalizedRound epochs).latestHeader
        (·.epoch < e.epoch)).map (·.cumulativeScorableTicks)).getD 0 =
      (epochs.map (·.scorableTicks)).sum ∧
    (((sealedStore sqrt config eventEnded finalizedRound epochs).latestHeader
        (·.epoch < e.epoch)).map (·.cumulativeEligibleWindows)).getD 0 =
      (epochs.map (·.eligibleWindows)).sum := by
  rw [previousHeader_sealedStore hnum]
  rcases List.eq_nil_or_concat epochs with rfl | ⟨l, a, rfl⟩
  · exact ⟨rfl, rfl⟩
  · simp [sealedStore, record_append_singleton, headerOf]

/-- The team row of a participation carries its totals. -/
theorem team_totals_teamRowsOf (before : List EpochEvidence) (h : e.Complete config)
    (hvalid : e.Valid config) {participationId : ℤ} (hmember : participationId ∈ config.rosterIds) :
    ((get (·.participationId) participationId
        (teamRowsOf sqrt config eventEnded before e)).map (·.totals)).getD 0 =
      teamTotals sqrt config eventEnded participationId (before ++ [e]) := by
  have hget : get (·.participationId) participationId
      (teamRowsOf sqrt config eventEnded before e) =
      some (teamRowOf sqrt config eventEnded before e participationId) := by
    rw [get_eq_some_iff (nodup_participationId_teamRowsOf before e)]
    exact ⟨List.mem_map_of_mem hmember, rfl⟩
  rw [hget, Option.map_some, Option.getD_some]
  exact teamRowOf_totals h hvalid hmember

variable (sqrt config eventEnded finalizedRound) in
/-- The rows of the epoch before carry the prior totals of every team. -/
theorem team_totals_previous (hnum : Numbered ((epochs ++ [e]).map (·.epoch)))
    (hcomplete : ∀ a ∈ epochs, a.Complete config) (hvalid : ∀ a ∈ epochs, a.Valid config)
    {participationId : ℤ} (hmember : participationId ∈ config.rosterIds) :
    ((get (·.participationId) participationId
        ((sealedStore sqrt config eventEnded finalizedRound epochs).loadTeams
          (e.epoch - 1))).map (·.totals)).getD 0 =
      teamTotals sqrt config eventEnded participationId epochs := by
  rcases List.eq_nil_or_concat epochs with rfl | ⟨l, a, rfl⟩
  · rw [teamTotals_nil]
    rfl
  · rw [List.concat_eq_append] at hnum hcomplete hvalid ⊢
    have hnum' := hnum.of_map_append
    have hprevious : e.epoch - 1 = a.epoch := by
      simp only [List.map_append, List.map_cons, List.map_nil] at hnum
      exact hnum.previous
    rw [hprevious, loadTeams_sealedStore hnum']
    exact team_totals_teamRowsOf l (hcomplete a (by simp)) (hvalid a (by simp)) hmember

variable (sqrt config eventEnded finalizedRound) in
theorem hill_totals_previous (hnum : Numbered ((epochs ++ [e]).map (·.epoch)))
    (hcomplete : ∀ a ∈ epochs, a.Complete config) {participationId : ℤ}
    (hmember : participationId ∈ config.rosterIds) {challengeId : ℤ}
    (hhill : challengeId ∈ config.hills) :
    ((get KothEpochHillRollup.hillKey (participationId, challengeId)
        ((sealedStore sqrt config eventEnded finalizedRound epochs).loadHills
          (e.epoch - 1))).map (·.totals)).getD 0 =
      hillTotals sqrt config eventEnded participationId challengeId epochs := by
  rcases List.eq_nil_or_concat epochs with rfl | ⟨l, a, rfl⟩
  · rfl
  · rw [List.concat_eq_append] at hnum hcomplete ⊢
    have hprevious : e.epoch - 1 = a.epoch := by
      simp only [List.map_append, List.map_cons, List.map_nil] at hnum
      exact hnum.previous
    have ha := hcomplete a (by simp)
    obtain ⟨row, hrow, rfl⟩ := List.mem_map.mp (ha.grid.mem_iff.mpr hhill)
    have hget : get KothEpochHillRollup.hillKey (participationId, row.challengeId)
        (hillRowsOf sqrt config eventEnded l a) =
        some (hillRowOf sqrt config eventEnded l a participationId row) := by
      rw [get_eq_some_iff (nodup_hillKey_hillRowsOf l ha)]
      exact ⟨mem_hillRowsOf.mpr ⟨participationId, hmember, row, hrow, rfl⟩, rfl⟩
    rw [hprevious, loadHills_sealedStore hnum.of_map_append, hget, Option.map_some,
      Option.getD_some]
    exact hillRowOf_totals row

variable (sqrt eventEnded) in
/-- A single valid epoch is scored to one aggregate per team. -/
theorem exists_scoreEvidenceRows (hcomplete : e.Complete config) (hvalid : e.Valid config)
    (hhills : config.hills ≠ []) :
    ∃ scored, scoreEvidenceRows sqrt e.hillMetas e.teamEvidence config.rosterIds
        config.epochTicks eventEnded = .ok scored ∧
      scored.teams = (sortedKeys config.rosterIds).map fun participationId =>
        (participationId, teamOf sqrt config eventEnded participationId [e]) := by
  have hscored := scoreEvidenceRows_eq sqrt eventEnded (List.pairwise_singleton _ e.epoch)
    (List.cons_ne_nil e []) (by simpa using hcomplete) (by simpa using hvalid) hhills
  simp only [List.flatMap_cons, List.flatMap_nil, List.append_nil] at hscored
  exact ⟨_, hscored, rfl⟩

variable (finalizedRound) in
/-- The rows computed for the next epoch of a sequence. -/
theorem computeRows_sealedStore (hnum : Numbered ((epochs ++ [e]).map (·.epoch)))
    (hcomplete : ∀ a ∈ epochs ++ [e], a.Complete config)
    (hvalid : ∀ a ∈ epochs, a.Valid config) (hne : e.hillMetas ≠ [])
    {scored : KothScoringSnapshot}
    (hscored : scored.teams = (sortedKeys config.rosterIds).map fun participationId =>
      (participationId, teamOf sqrt config eventEnded participationId [e])) :
    computeRows e.hillMetas config.rosterIds scored config.epochTicks
        ((sealedStore sqrt config eventEnded finalizedRound epochs).loadTeams (e.epoch - 1))
        ((sealedStore sqrt config eventEnded finalizedRound epochs).loadHills (e.epoch - 1)) =
      .ok (teamRowsOf sqrt config eventEnded epochs e,
        hillRowsOf sqrt config eventEnded epochs e) := by
  have hbefore : ∀ a ∈ epochs, a.Complete config := fun a ha => hcomplete a (by simp [ha])
  have hrows := mapM_eq_ok_map fun participationId hmember =>
    computeTeam_eq (hcomplete e (by simp)) hne
      (by rw [hscored]; exact get_graph _ (mem_sortedKeys.mpr hmember))
      (team_totals_previous sqrt config eventEnded finalizedRound hnum hbefore hvalid hmember)
      fun row hrow => hill_totals_previous sqrt config eventEnded finalizedRound hnum hbefore
        hmember ((hcomplete e (by simp)).grid.mem_iff.mp (List.mem_map_of_mem hrow))
  rw [computeRows, hrows]
  simp only [bind, Except.bind, pure, Except.pure, List.map_map, ← List.flatMap_def]
  rfl

theorem EpochEvidence.exists_evidenceFinalizedAt (hne : e.hillMetas ≠ [])
    (himmutable : e.immutable config.epochTicks eventEnded = true) :
    ∃ finalizedAt, (e.hillMetas.filterMap (·.maxCheckedAt)).max? = some finalizedAt := by
  obtain ⟨row, hrow⟩ := List.exists_mem_of_ne_nil _ hne
  obtain ⟨checkedAt, hchecked⟩ := Option.isSome_iff_exists.mp (immutable_row himmutable hrow).2
  have hmem : checkedAt ∈ e.hillMetas.filterMap (·.maxCheckedAt) :=
    List.mem_filterMap.mpr ⟨row, hrow, hchecked⟩
  rw [← Option.isSome_iff_exists, List.isSome_max?_iff]
  exact List.ne_nil_of_mem hmem

/-- Sealing the next epoch of a sequence appends its rows to the tables. -/
theorem sealEpoch_sealedStore (hnum : Numbered ((epochs ++ [e]).map (·.epoch)))
    (hcomplete : ∀ a ∈ epochs ++ [e], a.Complete config)
    (hvalid : ∀ a ∈ epochs ++ [e], a.Valid config) (hhills : config.hills ≠ [])
    (himmutable : e.immutable config.epochTicks eventEnded = true) :
    sealEpoch sqrt config eventEnded finalizedRound
        (sealedStore sqrt config eventEnded finalizedRound epochs) e =
      .ok (sealedStore sqrt config eventEnded finalizedRound (epochs ++ [e])) := by
  have hne : e.hillMetas ≠ [] := (hcomplete e (by simp)).hillMetas_ne_nil hhills
  obtain ⟨scored, hscored, hteams⟩ := exists_scoreEvidenceRows sqrt eventEnded
    (hcomplete e (by simp)) (hvalid e (by simp)) hhills
  have hfresh : ¬∃ header ∈ (sealedStore sqrt config eventEnded finalizedRound epochs).headers,
      header.epoch = e.epoch := by
    rintro ⟨header, hheader, heq⟩
    exact (epoch_lt_of_mem_headers hnum hheader).ne heq
  have hrows := computeRows_sealedStore finalizedRound hnum hcomplete
    (fun a ha => hvalid a (by simp [ha])) hne hteams
  obtain ⟨hscorable, heligible⟩ :=
    cumulative_previousHeader sqrt config eventEnded finalizedRound hnum
  obtain ⟨finalizedAt, hfinalizedAt⟩ := EpochEvidence.exists_evidenceFinalizedAt hne himmutable
  have happend := sealedStore_append_singleton sqrt config eventEnded finalizedRound epochs e
  have hheaderKeys := hnum.nodup
  rw [← map_epoch_headers_sealedStore sqrt config eventEnded finalizedRound] at hheaderKeys
  have hteamKeys := nodup_key_teams_sealedStore sqrt config eventEnded finalizedRound hnum
  have hhillKeys := nodup_key_hills_sealedStore sqrt config eventEnded finalizedRound hnum
    hcomplete
  rw [happend] at hheaderKeys hteamKeys hhillKeys ⊢
  rw [sealEpoch, hscored]
  change materializeEpoch _ _ _ _ _ _ _ = _
  unfold materializeEpoch
  rw [if_neg hfresh]
  split
  · exact absurd ‹_› hne
  · rename_i first rest hmetas
    have hhead : e.hillMetas.head? = some first := by
      rw [hmetas]
      rfl
    simp only [hrows, hscorable, heligible, hfinalizedAt, bind, Except.bind, pure, Except.pure,
      insertNew_eq_append hteamKeys, insertNew_eq_append hhillKeys]
    rw [← insertNew_eq_append hheaderKeys]
    simp only [headerOf, hhead, hfinalizedAt, Option.map_some, Option.getD_some]
    rfl

variable (sqrt config eventEnded finalizedRound) in
theorem foldRollups_append_singleton (epochs : List EpochEvidence) (e : EpochEvidence) :
    foldRollups sqrt config eventEnded finalizedRound (epochs ++ [e]) =
      foldRollups sqrt config eventEnded finalizedRound epochs >>= fun store =>
        sealEpoch sqrt config eventEnded finalizedRound store e := by
  simp [foldRollups]

/-- Sealing a valid sequence of epochs one at a time gives the closed form. -/
theorem foldRollups_eq (hnum : Numbered (epochs.map (·.epoch)))
    (hcomplete : ∀ e ∈ epochs, e.Complete config) (hvalid : ∀ e ∈ epochs, e.Valid config)
    (hhills : config.hills ≠ [])
    (himmutable : ∀ e ∈ epochs, e.immutable config.epochTicks eventEnded = true) :
    foldRollups sqrt config eventEnded finalizedRound epochs =
      .ok (sealedStore sqrt config eventEnded finalizedRound epochs) := by
  induction epochs using List.reverseRecOn with
  | nil => rfl
  | append_singleton epochs e ih =>
      have hinit := ih hnum.of_map_append (fun a ha => hcomplete a (by simp [ha]))
        (fun a ha => hvalid a (by simp [ha])) fun a ha => himmutable a (by simp [ha])
      rw [foldRollups_append_singleton, hinit]
      exact sealEpoch_sealedStore hnum hcomplete hvalid hhills (himmutable e (by simp))

/-- An epoch which could be sealed carries valid evidence. -/
theorem valid_of_sealEpoch (he : e.Complete config) (hhills : config.hills ≠ [])
    {store store' : RollupStore}
    (h : sealEpoch sqrt config eventEnded finalizedRound store e = .ok store') :
    e.Valid config := by
  obtain ⟨scored, hscored, -⟩ := bind_eq_ok_iff.mp h
  rw [scoreEvidenceRows, if_neg (he.hillMetas_ne_nil hhills), bind_eq_ok_iff] at hscored
  obtain ⟨cells, hcells, -⟩ := hscored
  have hsingle : ∀ a ∈ [e], a.Valid config :=
    valid_of_scoreCells (by simp) (by simpa using he) (by simpa using hcells)
  exact hsingle e (by simp)

/-- Epochs which could be sealed carry valid evidence. -/
theorem valid_of_foldRollups (hcomplete : ∀ e ∈ epochs, e.Complete config)
    (hhills : config.hills ≠ [])
    {store : RollupStore}
    (h : foldRollups sqrt config eventEnded finalizedRound epochs = .ok store) :
    ∀ e ∈ epochs, e.Valid config := by
  induction epochs using List.reverseRecOn generalizing store with
  | nil => simp
  | append_singleton epochs e ih =>
      rw [foldRollups_append_singleton, bind_eq_ok_iff] at h
      obtain ⟨store', hfold, hstep⟩ := h
      have hinit := ih (fun a ha => hcomplete a (by simp [ha])) hfold
      have hlast := valid_of_sealEpoch (hcomplete e (by simp)) hhills hstep
      simpa [or_imp, forall_and] using ⟨hinit, hlast⟩

/-- Without hills nothing is sealed. -/
theorem foldRollups_of_hillMetas_nil (h : ∀ e ∈ epochs, e.hillMetas = []) :
    foldRollups sqrt config eventEnded finalizedRound epochs = .ok RollupStore.empty := by
  induction epochs using List.reverseRecOn with
  | nil => rfl
  | append_singleton epochs e ih =>
      rw [foldRollups_append_singleton, ih fun a ha => h a (by simp [ha])]
      change sealEpoch _ _ _ _ _ _ = _
      rw [sealEpoch, h e (by simp)]
      rfl

end Queries

end Sealed

end KingOfTheHill

end Rsctf
