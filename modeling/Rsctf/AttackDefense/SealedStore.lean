import Mathlib.Algebra.Order.BigOperators.Group.List
import Rsctf.AttackDefense.Rollup
import Rsctf.Data.Ledger

/-!
# The store after sealing a sequence of epochs

When the evidence of every epoch is a complete grid over the frozen roster, the
rollup tables obtained by sealing the epochs one at a time have a closed form:
every row carries the sum of the contributions of the epochs up to its own.
-/

open Fallible Ledger

namespace Rsctf

namespace AttackDefense

/-- The metadata and the aggregated evidence of one epoch. -/
structure EpochEvidence where
  epochMeta : EpochMetaRow
  rows : List EvidenceAggregateRow
deriving DecidableEq, Repr

/-- The frozen roster has one service per participation and challenge. -/
structure FrozenRoster where
  services : List StableServiceRow
  nodup : (services.map StableServiceRow.key).Nodup

/-- The epochs are numbered from one without a gap. -/
def Numbered (epochs : List EpochEvidence) : Prop :=
  epochs.map (·.epochMeta.epoch) = (List.range epochs.length).map fun i : ℕ => (i : ℤ) + 1

/-- The evidence of an epoch has exactly one row per service of the roster. -/
structure EpochEvidence.Complete (roster : FrozenRoster) (e : EpochEvidence) : Prop where
  grid : (e.rows.map EvidenceAggregateRow.key).Perm (roster.services.map StableServiceRow.key)
  tagged : ∀ row ∈ e.rows, row.epoch = e.epochMeta.epoch

def EpochEvidence.Valid (e : EpochEvidence) : Prop := ∀ row ∈ e.rows, row.Valid

theorem numbered_append_singleton {epochs : List EpochEvidence} {e : EpochEvidence} :
    Numbered (epochs ++ [e]) ↔
      Numbered epochs ∧ e.epochMeta.epoch = epochs.length + 1 := by
  simp only [Numbered, List.length_append, List.length_singleton, List.range_succ,
    List.map_append, List.map_cons, List.map_nil]
  constructor
  · intro h
    obtain ⟨hepochs, hlast⟩ := List.append_inj' h rfl
    exact ⟨hepochs, List.singleton_inj.mp hlast⟩
  · rintro ⟨hepochs, hlast⟩
    rw [hepochs, hlast]

theorem Numbered.of_append {l₁ l₂ : List EpochEvidence} (h : Numbered (l₁ ++ l₂)) :
    Numbered l₁ := by
  induction l₂ using List.reverseRecOn with
  | nil => simpa using h
  | append_singleton l₂ e ih =>
      rw [← List.append_assoc, numbered_append_singleton] at h
      exact ih h.1

theorem Numbered.nodup {epochs : List EpochEvidence} (h : Numbered epochs) :
    (epochs.map (·.epochMeta.epoch)).Nodup := by
  rw [h]
  exact List.nodup_range.map fun i j hij => by simpa using hij

theorem Numbered.mem_range {epochs : List EpochEvidence} (h : Numbered epochs)
    {e : EpochEvidence} (he : e ∈ epochs) :
    1 ≤ e.epochMeta.epoch ∧ e.epochMeta.epoch ≤ epochs.length := by
  have hmem : e.epochMeta.epoch ∈ epochs.map (·.epochMeta.epoch) := List.mem_map_of_mem he
  rw [h, List.mem_map] at hmem
  obtain ⟨i, hi, heq⟩ := hmem
  have hlt := List.mem_range.mp hi
  omega

section Contributions

variable (sqrt : ℚ → ℚ) (epochTicks : ℤ)

namespace EpochEvidence

def weight (e : EpochEvidence) : ℚ := e.epochMeta.roundCount / epochTicks

def status (e : EpochEvidence) : AdEvidenceStatus :=
  (e.rows.head?.map (·.status)).getD 0

def teamScores (participationId : ℤ) (e : EpochEvidence) : List EpochServiceScore :=
  (Keyed.rows (·.participationId) participationId e.rows).map (·.score sqrt)

def teamContribution (participationId : ℤ) (e : EpochEvidence) : PreviousTeamTotals :=
  AttackDefense.teamContribution (e.weight epochTicks) (e.teamScores sqrt participationId)

def rowContribution (e : EpochEvidence) (row : EvidenceAggregateRow) :
    PreviousServiceTotals :=
  AttackDefense.serviceContribution (e.weight epochTicks)
    (teamWeight e.rows row.participationId) (row.score sqrt) row.captureCount

def serviceContribution (key : ℤ × ℤ) (e : EpochEvidence) : PreviousServiceTotals :=
  ((Keyed.get EvidenceAggregateRow.key key e.rows).map
    (e.rowContribution sqrt epochTicks)).getD 0

end EpochEvidence

def statusTotals (epochs : List EpochEvidence) : AdEvidenceStatus :=
  (epochs.map (·.status)).sum

def teamTotals (participationId : ℤ) (epochs : List EpochEvidence) : PreviousTeamTotals :=
  (epochs.map (·.teamContribution sqrt epochTicks participationId)).sum

def serviceTotals (key : ℤ × ℤ) (epochs : List EpochEvidence) : PreviousServiceTotals :=
  (epochs.map (·.serviceContribution sqrt epochTicks key)).sum

/-- The header of an epoch sealed after the given earlier ones. -/
def headerOf (finalizedRound : EpochMetaRow → ℤ) (before : List EpochEvidence)
    (e : EpochEvidence) : AdEpochRollup where
  epoch := e.epochMeta.epoch
  startRound := e.epochMeta.startRound
  endRound := e.epochMeta.endRound
  roundCount := e.epochMeta.roundCount
  epochWeight := e.weight epochTicks
  finalizedRound := finalizedRound e.epochMeta
  status := e.status
  cumulative := statusTotals before + e.status

def teamRowOf (before : List EpochEvidence) (e : EpochEvidence) (participationId : ℤ) :
    AdEpochTeamRollup where
  epoch := e.epochMeta.epoch
  participationId := participationId
  points := weightedPoints (e.teamScores sqrt participationId)
  epochWeight := e.weight epochTicks
  totals := teamTotals sqrt epochTicks participationId before
    + e.teamContribution sqrt epochTicks participationId

def teamRowsOf (before : List EpochEvidence) (e : EpochEvidence) :
    List AdEpochTeamRollup :=
  (Keyed.sortedKeys (e.rows.map (·.participationId))).map
    (teamRowOf sqrt epochTicks before e)

def serviceRowOf (before : List EpochEvidence) (e : EpochEvidence)
    (row : EvidenceAggregateRow) : AdEpochServiceRollup :=
  serviceRollupRow e.epochMeta.epoch row
    { localPoints := (row.score sqrt).localPoints
      offenseRate := (row.score sqrt).offenseRate
      defenseRate := (row.score sqrt).defenseRate
      slaRate := (row.score sqrt).slaRate
      totals := serviceTotals sqrt epochTicks row.key before
        + e.rowContribution sqrt epochTicks row }

def serviceRowsOf (before : List EpochEvidence) (e : EpochEvidence) :
    List AdEpochServiceRollup :=
  e.rows.map (serviceRowOf sqrt epochTicks before e)

/-- The tables after sealing the given epochs in order. -/
def sealedStore (finalizedRound : EpochMetaRow → ℤ) (epochs : List EpochEvidence) :
    RollupStore where
  headers := record (headerOf epochTicks finalizedRound) [] epochs
  teams := (record (teamRowsOf sqrt epochTicks) [] epochs).flatten
  services := (record (serviceRowsOf sqrt epochTicks) [] epochs).flatten

/-- Seal the epochs one at a time, starting from empty tables. -/
def foldRollups (finalizedRound : EpochMetaRow → ℤ) (epochs : List EpochEvidence) :
    Except AppError RollupStore :=
  epochs.foldlM (fun store e => materializeEpoch sqrt epochTicks store
    (finalizedRound e.epochMeta) e.epochMeta e.rows) RollupStore.empty

variable {sqrt epochTicks}

theorem teamTotals_append_singleton (participationId : ℤ) (epochs : List EpochEvidence)
    (e : EpochEvidence) :
    teamTotals sqrt epochTicks participationId (epochs ++ [e]) =
      teamTotals sqrt epochTicks participationId epochs
        + e.teamContribution sqrt epochTicks participationId := by
  simp [teamTotals]

theorem serviceTotals_append_singleton (key : ℤ × ℤ) (epochs : List EpochEvidence)
    (e : EpochEvidence) :
    serviceTotals sqrt epochTicks key (epochs ++ [e]) =
      serviceTotals sqrt epochTicks key epochs
        + e.serviceContribution sqrt epochTicks key := by
  simp [serviceTotals]

theorem statusTotals_append_singleton (epochs : List EpochEvidence) (e : EpochEvidence) :
    statusTotals (epochs ++ [e]) = statusTotals epochs + e.status := by
  simp [statusTotals]

/-- The team rows computed for a valid epoch continue the prior totals of every team. -/
theorem computeTeamRollups_eq {e : EpochEvidence} (hvalid : e.Valid)
    {previous : List AdEpochTeamRollup} {before : List EpochEvidence}
    (hprevious : ∀ row ∈ e.rows,
      ((Keyed.get (·.participationId) row.participationId previous).map (·.totals)).getD 0 =
        teamTotals sqrt epochTicks row.participationId before) :
    ∃ computed, computeTeamRollups sqrt e.rows (e.weight epochTicks) previous = .ok computed ∧
      computed.map (teamRollupRow e.epochMeta.epoch) =
        teamRowsOf sqrt epochTicks before e := by
  have hscored : (e.rows.mapM fun row => do
      let score ← scoreRow sqrt row
      return (row.participationId, score)) =
      (.ok (e.rows.map fun row => (row.participationId, row.score sqrt)) :
        Except AppError _) := by
    refine mapM_eq_ok_map fun row hrow => ?_
    rw [scoreRow_of_valid sqrt (hvalid row hrow)]
    rfl
  have hteam : ∀ pid ∈ Keyed.sortedKeys (e.rows.map (·.participationId)),
      (computeTeamRollup (e.weight epochTicks) previous
        (e.rows.map fun row => (row.participationId, row.score sqrt)) pid).map
          (teamRollupRow e.epochMeta.epoch) =
        some (teamRowOf sqrt epochTicks before e pid) := by
    intro pid hpid
    obtain ⟨row, hrow, rfl⟩ := List.mem_map.mp (Keyed.mem_sortedKeys.mp hpid)
    have hservices : (Keyed.rows Prod.fst row.participationId
        (e.rows.map fun row => (row.participationId, row.score sqrt))).map Prod.snd =
        e.teamScores sqrt row.participationId := by
      rw [Keyed.rows_map, List.map_map]
      rfl
    have hweight : 0 < ((e.teamScores sqrt row.participationId).map
        fun score => score.serviceWeight).sum := by
      refine List.sum_pos _ (fun w hw => ?_) ?_
      · simp only [EpochEvidence.teamScores, List.map_map, List.mem_map,
          Keyed.mem_rows] at hw
        obtain ⟨r, ⟨hr, -⟩, rfl⟩ := hw
        exact (hvalid r hr).serviceWeight_pos
      · simp [EpochEvidence.teamScores, Keyed.rows_ne_nil hrow]
    simp only [computeTeamRollup, hservices, if_neg (not_le.mpr hweight),
      hprevious row hrow]
    rfl
  refine ⟨(Keyed.sortedKeys (e.rows.map (·.participationId))).filterMap
    (computeTeamRollup (e.weight epochTicks) previous
      (e.rows.map fun row => (row.participationId, row.score sqrt))), ?_, ?_⟩
  · rw [computeTeamRollups, hscored]
    simp [bind, Except.bind, pure, Except.pure, Function.comp_def]
  · rw [List.map_filterMap, List.filterMap_congr hteam, List.filterMap_eq_map', teamRowsOf]

/-- The service rows computed for a valid epoch continue the prior totals of every
service. -/
theorem computeServiceValues_eq {e : EpochEvidence} (hvalid : e.Valid)
    {previous : List AdEpochServiceRollup} {before : List EpochEvidence}
    (hprevious : ∀ row ∈ e.rows,
      ((Keyed.get AdEpochServiceRollup.serviceKey row.key previous).map (·.totals)).getD 0 =
        serviceTotals sqrt epochTicks row.key before) :
    ∃ values, computeServiceValues sqrt e.rows (e.weight epochTicks) previous = .ok values ∧
      List.zipWith (serviceRollupRow e.epochMeta.epoch) e.rows values =
        serviceRowsOf sqrt epochTicks before e := by
  refine ⟨e.rows.map fun row =>
    { localPoints := (row.score sqrt).localPoints
      offenseRate := (row.score sqrt).offenseRate
      defenseRate := (row.score sqrt).defenseRate
      slaRate := (row.score sqrt).slaRate
      totals := serviceTotals sqrt epochTicks row.key before
        + e.rowContribution sqrt epochTicks row }, ?_, ?_⟩
  · refine mapM_eq_ok_map fun row hrow => ?_
    have hweight : 0 < teamWeight e.rows row.participationId := by
      refine List.sum_pos _ (fun w hw => ?_) ?_
      · obtain ⟨r, hr, rfl⟩ := List.mem_map.mp hw
        exact (hvalid r (Keyed.mem_rows.mp hr).1).serviceWeight_pos
      · simp [Keyed.rows_ne_nil hrow]
    simp only [scoreRow_of_valid sqrt (hvalid row hrow), hprevious row hrow,
      if_neg (not_le.mpr hweight), bind, Except.bind, pure, Except.pure]
    rfl
  · rw [List.zipWith_map_right, List.zipWith_self]
    rfl

section Queries

variable {finalizedRound : EpochMetaRow → ℤ} {roster : FrozenRoster}

theorem EpochEvidence.Complete.nodup {e : EpochEvidence} (h : e.Complete roster) :
    (e.rows.map EvidenceAggregateRow.key).Nodup :=
  h.grid.nodup_iff.mpr roster.nodup

/-- Every complete epoch has a row for every service which any complete epoch has. -/
theorem EpochEvidence.Complete.exists_row {e e' : EpochEvidence} (h : e.Complete roster)
    (h' : e'.Complete roster) {row : EvidenceAggregateRow} (hrow : row ∈ e.rows) :
    ∃ row' ∈ e'.rows, row'.key = row.key := by
  have hmem : row.key ∈ e'.rows.map EvidenceAggregateRow.key :=
    (h.grid.trans h'.grid.symm).mem_iff.mp (List.mem_map_of_mem hrow)
  exact List.mem_map.mp hmem

variable (sqrt epochTicks finalizedRound) in
theorem map_epoch_headers_sealedStore (epochs : List EpochEvidence) :
    (sealedStore sqrt epochTicks finalizedRound epochs).headers.map (·.epoch) =
      epochs.map (·.epochMeta.epoch) := by
  rw [sealedStore]
  exact map_record (by intros; rfl) [] epochs

theorem loadTeamRollups_sealedStore {l₁ l₂ : List EpochEvidence} {a : EpochEvidence}
    (hnum : Numbered (l₁ ++ a :: l₂)) :
    (sealedStore sqrt epochTicks finalizedRound (l₁ ++ a :: l₂)).loadTeamRollups
        a.epochMeta.epoch =
      teamRowsOf sqrt epochTicks l₁ a := by
  refine rows_flatten_record (fun before e r hr => ?_) hnum.nodup []
  obtain ⟨pid, -, rfl⟩ := List.mem_map.mp hr
  rfl

theorem loadServiceRollups_sealedStore {l₁ l₂ : List EpochEvidence} {a : EpochEvidence}
    (hnum : Numbered (l₁ ++ a :: l₂)) :
    (sealedStore sqrt epochTicks finalizedRound (l₁ ++ a :: l₂)).loadServiceRollups
        a.epochMeta.epoch =
      serviceRowsOf sqrt epochTicks l₁ a := by
  refine rows_flatten_record (fun before e r hr => ?_) hnum.nodup []
  obtain ⟨row, -, rfl⟩ := List.mem_map.mp hr
  rfl

theorem nodup_participationId_teamRowsOf (before : List EpochEvidence) (e : EpochEvidence) :
    ((teamRowsOf sqrt epochTicks before e).map (·.participationId)).Nodup := by
  rw [teamRowsOf, List.map_map]
  exact (Keyed.nodup_sortedKeys _).map fun a b h => h

theorem nodup_serviceKey_serviceRowsOf (before : List EpochEvidence) {e : EpochEvidence}
    (h : e.Complete roster) :
    ((serviceRowsOf sqrt epochTicks before e).map AdEpochServiceRollup.serviceKey).Nodup := by
  rw [serviceRowsOf, List.map_map]
  exact h.nodup

/-- The team row remembered for a participation carries its totals. -/
theorem team_totals_teamRowsOf (before : List EpochEvidence) {e : EpochEvidence}
    {row : EvidenceAggregateRow} (hrow : row ∈ e.rows) :
    ((Keyed.get (·.participationId) row.participationId
        (teamRowsOf sqrt epochTicks before e)).map (·.totals)).getD 0 =
      teamTotals sqrt epochTicks row.participationId (before ++ [e]) := by
  have hget : Keyed.get (·.participationId) row.participationId
      (teamRowsOf sqrt epochTicks before e) =
      some (teamRowOf sqrt epochTicks before e row.participationId) := by
    rw [Keyed.get_eq_some_iff (nodup_participationId_teamRowsOf before e)]
    refine ⟨List.mem_map_of_mem (Keyed.mem_sortedKeys.mpr ?_), rfl⟩
    exact List.mem_map_of_mem hrow
  rw [hget, teamTotals_append_singleton]
  rfl

theorem serviceContribution_of_mem {e : EpochEvidence} (h : e.Complete roster)
    {row : EvidenceAggregateRow} (hrow : row ∈ e.rows) :
    e.serviceContribution sqrt epochTicks row.key = e.rowContribution sqrt epochTicks row := by
  have hget : Keyed.get EvidenceAggregateRow.key row.key e.rows = some row :=
    (Keyed.get_eq_some_iff h.nodup).mpr ⟨hrow, rfl⟩
  rw [EpochEvidence.serviceContribution, hget]
  rfl

/-- The service row remembered for a service carries its totals. -/
theorem service_totals_serviceRowsOf (before : List EpochEvidence) {e : EpochEvidence}
    (h : e.Complete roster) {row : EvidenceAggregateRow} (hrow : row ∈ e.rows) :
    ((Keyed.get AdEpochServiceRollup.serviceKey row.key
        (serviceRowsOf sqrt epochTicks before e)).map (·.totals)).getD 0 =
      serviceTotals sqrt epochTicks row.key (before ++ [e]) := by
  have hget : Keyed.get AdEpochServiceRollup.serviceKey row.key
      (serviceRowsOf sqrt epochTicks before e) =
      some (serviceRowOf sqrt epochTicks before e row) := by
    rw [Keyed.get_eq_some_iff (nodup_serviceKey_serviceRowsOf before h)]
    exact ⟨List.mem_map_of_mem hrow, rfl⟩
  rw [hget, serviceTotals_append_singleton, serviceContribution_of_mem h hrow]
  rfl

variable (sqrt epochTicks finalizedRound) in
theorem sealedStore_append_singleton (epochs : List EpochEvidence) (e : EpochEvidence) :
    sealedStore sqrt epochTicks finalizedRound (epochs ++ [e]) =
      { headers := (sealedStore sqrt epochTicks finalizedRound epochs).headers
          ++ [headerOf epochTicks finalizedRound epochs e]
        teams := (sealedStore sqrt epochTicks finalizedRound epochs).teams
          ++ teamRowsOf sqrt epochTicks epochs e
        services := (sealedStore sqrt epochTicks finalizedRound epochs).services
          ++ serviceRowsOf sqrt epochTicks epochs e } := by
  simp [sealedStore, record_append_singleton]

variable (sqrt epochTicks finalizedRound) in
theorem nodup_epoch_headers_sealedStore {epochs : List EpochEvidence}
    (hnum : Numbered epochs) :
    ((sealedStore sqrt epochTicks finalizedRound epochs).headers.map (·.epoch)).Nodup := by
  rw [map_epoch_headers_sealedStore]
  exact hnum.nodup

variable (sqrt epochTicks finalizedRound) in
theorem nodup_key_teams_sealedStore {epochs : List EpochEvidence} (hnum : Numbered epochs) :
    ((sealedStore sqrt epochTicks finalizedRound epochs).teams.map
      AdEpochTeamRollup.key).Nodup := by
  refine nodup_flatten_record Prod.fst (fun before e r hr => ?_)
    (fun before e _ => ?_) hnum.nodup []
  · obtain ⟨pid, -, rfl⟩ := List.mem_map.mp hr
    rfl
  · refine List.Nodup.of_map Prod.snd ?_
    rw [List.map_map]
    exact nodup_participationId_teamRowsOf before e

variable (sqrt epochTicks finalizedRound) in
theorem nodup_key_services_sealedStore {epochs : List EpochEvidence}
    (hnum : Numbered epochs) (hcomplete : ∀ e ∈ epochs, e.Complete roster) :
    ((sealedStore sqrt epochTicks finalizedRound epochs).services.map
      AdEpochServiceRollup.key).Nodup := by
  refine nodup_flatten_record Prod.fst (fun before e r hr => ?_)
    (fun before e he => ?_) hnum.nodup []
  · obtain ⟨row, -, rfl⟩ := List.mem_map.mp hr
    rfl
  · refine List.Nodup.of_map Prod.snd ?_
    rw [List.map_map]
    exact nodup_serviceKey_serviceRowsOf before (hcomplete e he)

theorem latestHeader_sealedStore {epochs : List EpochEvidence} {a : EpochEvidence}
    {p : AdEpochRollup → Bool} (hnum : Numbered (epochs ++ [a]))
    (hp : ∀ header ∈ (sealedStore sqrt epochTicks finalizedRound (epochs ++ [a])).headers,
      p header = true) :
    (sealedStore sqrt epochTicks finalizedRound (epochs ++ [a])).latestHeader p =
      some (headerOf epochTicks finalizedRound epochs a) := by
  rw [RollupStore.latestHeader, List.filter_eq_self.mpr hp, sealedStore,
    record_append_singleton]
  refine Keyed.latest_append_singleton fun header hheader => ?_
  have hepoch : header.epoch ∈ epochs.map (·.epochMeta.epoch) := by
    rw [← map_epoch_headers_sealedStore sqrt epochTicks finalizedRound]
    exact List.mem_map_of_mem hheader
  obtain ⟨e, he, heq⟩ := List.mem_map.mp hepoch
  obtain ⟨hepochs, hlast⟩ := numbered_append_singleton.mp hnum
  have hrange := hepochs.mem_range he
  have hlt : header.epoch < a.epochMeta.epoch := by omega
  exact hlt

theorem epoch_lt_of_mem_headers {epochs : List EpochEvidence} {e : EpochEvidence}
    (hnum : Numbered (epochs ++ [e])) {header : AdEpochRollup}
    (h : header ∈ (sealedStore sqrt epochTicks finalizedRound epochs).headers) :
    header.epoch < e.epochMeta.epoch := by
  obtain ⟨hepochs, hlast⟩ := numbered_append_singleton.mp hnum
  have hmem : header.epoch ∈ epochs.map (·.epochMeta.epoch) := by
    rw [← map_epoch_headers_sealedStore sqrt epochTicks finalizedRound]
    exact List.mem_map_of_mem h
  obtain ⟨a, ha, heq⟩ := List.mem_map.mp hmem
  have hrange := hepochs.mem_range ha
  omega

/-- The header before the next epoch of a sequence is the last one written. -/
theorem previousHeader_sealedStore {epochs : List EpochEvidence} {a e : EpochEvidence}
    (hnum : Numbered (epochs ++ [a] ++ [e])) :
    (sealedStore sqrt epochTicks finalizedRound (epochs ++ [a])).latestHeader
        (·.epoch < e.epochMeta.epoch) =
      some (headerOf epochTicks finalizedRound epochs a) := by
  refine latestHeader_sealedStore (numbered_append_singleton.mp hnum).1 fun header h => ?_
  simpa using epoch_lt_of_mem_headers hnum h

theorem cumulative_previousHeader {epochs : List EpochEvidence} {e : EpochEvidence}
    (hnum : Numbered (epochs ++ [e])) :
    (((sealedStore sqrt epochTicks finalizedRound epochs).latestHeader
        (·.epoch < e.epochMeta.epoch)).map (·.cumulative)).getD 0 =
      statusTotals epochs := by
  rcases List.eq_nil_or_concat epochs with rfl | ⟨l, a, rfl⟩
  · rfl
  · rw [List.concat_eq_append] at hnum ⊢
    rw [previousHeader_sealedStore hnum, statusTotals_append_singleton]
    rfl

variable (sqrt epochTicks finalizedRound) in
theorem team_totals_previous {epochs : List EpochEvidence} {e : EpochEvidence}
    (hnum : Numbered (epochs ++ [e])) (hcomplete : ∀ a ∈ epochs ++ [e], a.Complete roster)
    {row : EvidenceAggregateRow} (hrow : row ∈ e.rows) :
    ((Keyed.get (·.participationId) row.participationId
        ((sealedStore sqrt epochTicks finalizedRound epochs).loadTeamRollups
          (e.epochMeta.epoch - 1))).map (·.totals)).getD 0 =
      teamTotals sqrt epochTicks row.participationId epochs := by
  rcases List.eq_nil_or_concat epochs with rfl | ⟨l, a, rfl⟩
  · rfl
  · rw [List.concat_eq_append] at hnum hcomplete ⊢
    obtain ⟨hepochs, hlast⟩ := numbered_append_singleton.mp hnum
    obtain ⟨-, ha⟩ := numbered_append_singleton.mp hepochs
    have hprevious : e.epochMeta.epoch - 1 = a.epochMeta.epoch := by
      simp only [List.length_append, List.length_singleton] at hlast
      omega
    obtain ⟨row', hrow', hkey⟩ := (hcomplete e (by simp)).exists_row
      (hcomplete a (by simp)) hrow
    have hpid : row'.participationId = row.participationId := congrArg Prod.fst hkey
    rw [hprevious, loadTeamRollups_sealedStore hepochs, ← hpid]
    exact team_totals_teamRowsOf l hrow'

variable (sqrt epochTicks finalizedRound) in
theorem service_totals_previous {epochs : List EpochEvidence} {e : EpochEvidence}
    (hnum : Numbered (epochs ++ [e])) (hcomplete : ∀ a ∈ epochs ++ [e], a.Complete roster)
    {row : EvidenceAggregateRow} (hrow : row ∈ e.rows) :
    ((Keyed.get AdEpochServiceRollup.serviceKey row.key
        ((((sealedStore sqrt epochTicks finalizedRound epochs).latestHeader
          (·.epoch < e.epochMeta.epoch)).map fun header =>
            (sealedStore sqrt epochTicks finalizedRound epochs).loadServiceRollups
              header.epoch).getD [])).map (·.totals)).getD 0 =
      serviceTotals sqrt epochTicks row.key epochs := by
  rcases List.eq_nil_or_concat epochs with rfl | ⟨l, a, rfl⟩
  · rfl
  · rw [List.concat_eq_append] at hnum hcomplete ⊢
    have ha := hcomplete a (by simp)
    obtain ⟨row', hrow', hkey⟩ := (hcomplete e (by simp)).exists_row ha hrow
    rw [previousHeader_sealedStore hnum]
    change ((Keyed.get _ _ (((sealedStore sqrt epochTicks finalizedRound
      (l ++ [a])).loadServiceRollups a.epochMeta.epoch))).map _).getD 0 = _
    rw [loadServiceRollups_sealedStore (numbered_append_singleton.mp hnum).1, ← hkey]
    exact service_totals_serviceRowsOf l ha hrow'

/-- Sealing the next epoch of a sequence appends its rows to the tables. -/
theorem materializeEpoch_sealedStore {epochs : List EpochEvidence} {e : EpochEvidence}
    (hnum : Numbered (epochs ++ [e])) (hcomplete : ∀ a ∈ epochs ++ [e], a.Complete roster)
    (hvalid : e.Valid) (hne : e.rows ≠ []) :
    materializeEpoch sqrt epochTicks (sealedStore sqrt epochTicks finalizedRound epochs)
        (finalizedRound e.epochMeta) e.epochMeta e.rows =
      .ok (sealedStore sqrt epochTicks finalizedRound (epochs ++ [e])) := by
  have hfresh : ¬∃ header ∈ (sealedStore sqrt epochTicks finalizedRound epochs).headers,
      header.epoch = e.epochMeta.epoch := by
    rintro ⟨header, hheader, heq⟩
    exact absurd heq (epoch_lt_of_mem_headers hnum hheader).ne
  obtain ⟨computed, hcomputed, hteams⟩ := computeTeamRollups_eq hvalid
    fun row hrow => team_totals_previous sqrt epochTicks finalizedRound hnum hcomplete hrow
  obtain ⟨values, hvalues, hservices⟩ := computeServiceValues_eq hvalid
    fun row hrow => service_totals_previous sqrt epochTicks finalizedRound hnum hcomplete hrow
  have happend := sealedStore_append_singleton sqrt epochTicks finalizedRound epochs e
  have hheaderKeys := nodup_epoch_headers_sealedStore sqrt epochTicks finalizedRound hnum
  have hteamKeys := nodup_key_teams_sealedStore sqrt epochTicks finalizedRound hnum
  have hserviceKeys := nodup_key_services_sealedStore sqrt epochTicks finalizedRound  hnum hcomplete
  rw [happend] at hheaderKeys hteamKeys hserviceKeys ⊢
  unfold materializeEpoch
  rw [if_neg hfresh]
  split
  · exact absurd ‹_› hne
  · rename_i first rest hrows
    have hstatus : e.status = first.status := by simp [EpochEvidence.status, hrows]
    have hweight : (e.epochMeta.roundCount / epochTicks : ℚ) = e.weight epochTicks := rfl
    simp only [hweight, hcomputed, hvalues, cumulative_previousHeader hnum, bind, Except.bind,
      pure, Except.pure, hteams, hservices, Keyed.insertNew_eq_append hteamKeys,
      Keyed.insertNew_eq_append hserviceKeys]
    rw [← hstatus, ← Keyed.insertNew_eq_append hheaderKeys]
    rfl

variable (sqrt epochTicks) in
theorem materializeEpoch_nil (store : RollupStore) (round : ℤ) (epochMeta : EpochMetaRow) :
    materializeEpoch sqrt epochTicks store round epochMeta [] = .ok store := by
  unfold materializeEpoch
  split <;> rfl

/-- Evidence that could be sealed passed validation. -/
theorem valid_of_materializeEpoch {store store' : RollupStore} {round : ℤ}
    {e : EpochEvidence}
    (hfresh : ¬∃ header ∈ store.headers, header.epoch = e.epochMeta.epoch)
    (h : materializeEpoch sqrt epochTicks store round e.epochMeta e.rows = .ok store') :
    e.Valid := by
  unfold materializeEpoch at h
  rw [if_neg hfresh] at h
  split at h
  · simp [EpochEvidence.Valid, *]
  · obtain ⟨computed, hcomputed, -⟩ := bind_eq_ok_iff.mp h
    rw [computeTeamRollups, bind_eq_ok_iff] at hcomputed
    obtain ⟨scored, hscored, -⟩ := hcomputed
    intro row hrow
    obtain ⟨_, hscore⟩ := exists_of_mapM_eq_ok hscored hrow
    obtain ⟨score, hscore, -⟩ := bind_eq_ok_iff.mp hscore
    exact ((scoreRow_eq_ok_iff sqrt row score).mp hscore).1

theorem foldRollups_append_singleton (epochs : List EpochEvidence) (e : EpochEvidence) :
    foldRollups sqrt epochTicks finalizedRound (epochs ++ [e]) =
      foldRollups sqrt epochTicks finalizedRound epochs >>= fun store =>
        materializeEpoch sqrt epochTicks store (finalizedRound e.epochMeta) e.epochMeta
          e.rows := by
  simp [foldRollups]

theorem foldRollups_of_rows_nil {epochs : List EpochEvidence}
    (h : ∀ e ∈ epochs, e.rows = []) :
    foldRollups sqrt epochTicks finalizedRound epochs = .ok RollupStore.empty := by
  induction epochs using List.reverseRecOn with
  | nil => rfl
  | append_singleton epochs e ih =>
      rw [foldRollups_append_singleton, ih fun a ha => h a (by simp [ha]), h e (by simp)]
      exact materializeEpoch_nil sqrt epochTicks .empty (finalizedRound e.epochMeta)
        e.epochMeta

/-- Sealing a valid sequence of epochs one at a time gives the closed form. -/
theorem foldRollups_eq {epochs : List EpochEvidence} (hnum : Numbered epochs)
    (hcomplete : ∀ e ∈ epochs, e.Complete roster) (hvalid : ∀ e ∈ epochs, e.Valid)
    (hroster : roster.services ≠ []) :
    foldRollups sqrt epochTicks finalizedRound epochs =
      .ok (sealedStore sqrt epochTicks finalizedRound epochs) := by
  induction epochs using List.reverseRecOn with
  | nil => rfl
  | append_singleton epochs e ih =>
      have hinit := ih (numbered_append_singleton.mp hnum).1
        (fun a ha => hcomplete a (by simp [ha])) fun a ha => hvalid a (by simp [ha])
      have hrows : e.rows ≠ [] := by
        intro hnil
        have hperm := (hcomplete e (by simp)).grid
        simp only [hnil, List.map_nil, List.nil_perm, List.map_eq_nil_iff] at hperm
        exact hroster hperm
      rw [foldRollups_append_singleton, hinit]
      exact materializeEpoch_sealedStore hnum hcomplete (hvalid e (by simp)) hrows

/-- Epochs that could be sealed carry valid evidence. -/
theorem valid_of_foldRollups {epochs : List EpochEvidence} (hnum : Numbered epochs)
    (hcomplete : ∀ e ∈ epochs, e.Complete roster) (hroster : roster.services ≠ [])
    {store : RollupStore}
    (h : foldRollups sqrt epochTicks finalizedRound epochs = .ok store) :
    ∀ e ∈ epochs, e.Valid := by
  induction epochs using List.reverseRecOn generalizing store with
  | nil => simp
  | append_singleton epochs e ih =>
      rw [foldRollups_append_singleton, bind_eq_ok_iff] at h
      obtain ⟨store', hfold, hstep⟩ := h
      have hnum' := (numbered_append_singleton.mp hnum).1
      have hcomplete' : ∀ a ∈ epochs, a.Complete roster := fun a ha => hcomplete a (by simp [ha])
      have hinit := ih hnum' hcomplete' hfold
      rw [foldRollups_eq hnum' hcomplete' hinit hroster, Except.ok.injEq] at hfold
      subst hfold
      have hlast : e.Valid := by
        refine valid_of_materializeEpoch ?_ hstep
        rintro ⟨header, hheader, heq⟩
        exact absurd heq (epoch_lt_of_mem_headers hnum hheader).ne
      simpa [or_imp, forall_and] using ⟨hinit, hlast⟩

end Queries

end Contributions

end AttackDefense

end Rsctf
