import Rsctf.AttackDefense.BoardMerge
import Rsctf.AttackDefense.SealedStore

/-!
# Sealing epochs does not change the board

The scoreboard may read an epoch raw, from its evidence, or through the rollup
tables once it has been sealed.  For a frozen roster with complete evidence the
board rows do not depend on which epochs have been sealed.
-/

open Fallible Ledger

namespace Rsctf

namespace AttackDefense

/-- The epochs of an event over a frozen roster. -/
structure EpochSequence (roster : FrozenRoster) (epochTicks : ℤ) where
  epochs : List EpochEvidence
  numbered : Numbered epochs
  complete : ∀ e ∈ epochs, e.Complete roster
  roundCount_le : ∀ e ∈ epochs, e.epochMeta.roundCount ≤ epochTicks

/-- The first epoch which a board reads raw. -/
def RollupSnapshot.firstRawEpoch (snapshot : RollupSnapshot) : ℤ :=
  (snapshot.header.map fun header => header.epoch + 1).getD 1

/-- The board rows computed from a snapshot and the raw epochs after it. -/
def boardTeamRows (sqrt : ℚ → ℚ) (clock : BoardClock) (services : List StableServiceRow)
    (snapshot : RollupSnapshot) (epochs : List EpochEvidence)
    (latestChecks : List LatestCheckStatusRow) : Except AppError (List AdTeamScore) :=
  let rawEpochs := epochs.filter fun e => snapshot.firstRawEpoch ≤ e.epochMeta.epoch
  teamRows sqrt clock services snapshot (rawEpochs.map (·.epochMeta))
    (rawEpochs.flatMap (·.rows)) latestChecks

namespace EpochEvidence

/-- The evidence rows of the given services of one team. -/
def teamRows (e : EpochEvidence) (services : List StableServiceRow) :
    List EvidenceAggregateRow :=
  services.filterMap fun service => Keyed.get EvidenceAggregateRow.key service.key e.rows

variable {roster : FrozenRoster} {e : EpochEvidence}

theorem Complete.exists_get (h : e.Complete roster) {service : StableServiceRow}
    (hservice : service ∈ roster.services) :
    ∃ row ∈ e.rows, row.key = service.key ∧
      Keyed.get EvidenceAggregateRow.key service.key e.rows = some row := by
  have hmem : service.key ∈ e.rows.map EvidenceAggregateRow.key :=
    h.grid.mem_iff.mpr (List.mem_map_of_mem hservice)
  obtain ⟨row, hrow, hkey⟩ := List.mem_map.mp hmem
  exact ⟨row, hrow, hkey, (Keyed.get_eq_some_iff h.nodup).mpr ⟨hrow, hkey⟩⟩

theorem Complete.map_key_teamRows (h : e.Complete roster) {services : List StableServiceRow}
    (hservices : ∀ service ∈ services, service ∈ roster.services) :
    (e.teamRows services).map EvidenceAggregateRow.key =
      services.map StableServiceRow.key := by
  induction services with
  | nil => rfl
  | cons service services ih =>
      obtain ⟨row, -, hkey, hget⟩ := h.exists_get (hservices service (by simp))
      have htail := ih fun s hs => hservices s (by simp [hs])
      rw [teamRows, List.filterMap_cons, hget]
      simpa [hkey, teamRows] using htail

theorem Complete.mem_teamRows (h : e.Complete roster) {services : List StableServiceRow}
    {row : EvidenceAggregateRow} :
    row ∈ e.teamRows services ↔
      row ∈ e.rows ∧ ∃ service ∈ services, row.key = service.key := by
  rw [teamRows, List.mem_filterMap]
  constructor
  · rintro ⟨service, hservice, hget⟩
    obtain ⟨hrow, hkey⟩ := Keyed.mem_of_get hget
    exact ⟨hrow, service, hservice, hkey⟩
  · rintro ⟨hrow, service, hservice, hkey⟩
    exact ⟨service, hservice, (Keyed.get_eq_some_iff h.nodup).mpr ⟨hrow, hkey⟩⟩

/-- The rows found for the services of a team are its rows of the evidence. -/
theorem Complete.teamRows_perm (h : e.Complete roster) (participationId : ℤ) :
    (e.teamRows (Keyed.rows (·.participationId) participationId roster.services)).Perm
      (Keyed.rows (·.participationId) participationId e.rows) := by
  have hnd : (e.teamRows
      (Keyed.rows (·.participationId) participationId roster.services)).Nodup := by
    refine List.Nodup.of_map EvidenceAggregateRow.key ?_
    rw [h.map_key_teamRows fun service hservice => (Keyed.mem_rows.mp hservice).1]
    exact roster.nodup.sublist (List.filter_sublist.map _)
  have hnd' : (Keyed.rows (·.participationId) participationId e.rows).Nodup :=
    (List.Nodup.of_map _ h.nodup).sublist List.filter_sublist
  rw [List.perm_ext_iff_of_nodup hnd hnd']
  intro row
  rw [h.mem_teamRows, Keyed.mem_rows]
  refine and_congr_right fun hrow => ?_
  constructor
  · rintro ⟨service, hservice, hkey⟩
    exact (congrArg Prod.fst hkey).trans (Keyed.mem_rows.mp hservice).2
  · intro hpid
    have hmem : row.key ∈ roster.services.map StableServiceRow.key :=
      h.grid.mem_iff.mp (List.mem_map_of_mem hrow)
    obtain ⟨service, hservice, hkey⟩ := List.mem_map.mp hmem
    refine ⟨service, Keyed.mem_rows.mpr ⟨hservice, ?_⟩, hkey.symm⟩
    exact (congrArg Prod.fst hkey).trans hpid

/-- A board lookup in the evidence of several epochs only sees the rows of its own. -/
theorem teamEvidence_flatMap {epochs : List EpochEvidence}
    (hnd : (epochs.map (·.epochMeta.epoch)).Nodup)
    (htagged : ∀ a ∈ epochs, ∀ row ∈ a.rows, row.epoch = a.epochMeta.epoch)
    (he : e ∈ epochs) (services : List StableServiceRow) :
    teamEvidence (epochs.flatMap (·.rows)) services e.epochMeta.epoch =
      e.teamRows services := by
  refine List.filterMap_congr fun service _ => ?_
  obtain ⟨l₁, l₂, rfl⟩ := List.append_of_mem he
  rw [List.map_append, List.map_cons, List.nodup_middle, List.nodup_cons,
    ← List.map_append] at hnd
  rw [Keyed.get_flatMap]
  · refine Keyed.get_congr fun row hrow => ?_
    simp [EvidenceAggregateRow.epochKey, EvidenceAggregateRow.key, StableServiceRow.key,
      htagged e he row hrow]
  · intro a ha row hrow hkey
    have hepoch : a.epochMeta.epoch = e.epochMeta.epoch := by
      rw [← htagged a (by rcases List.mem_append.mp ha with h | h <;> simp [h]) row hrow]
      exact congrArg (·.2.2) hkey
    exact hnd.1 (List.mem_map.mpr ⟨a, ha, hepoch⟩)

end EpochEvidence

section Bridge

variable {sqrt : ℚ → ℚ} {clock : BoardClock} {roster : FrozenRoster}

variable (sqrt clock roster) in
/-- One epoch of one team as the board scores it from valid evidence. -/
def scoredEpochOf (participationId : ℤ) (e : EpochEvidence) : ScoredEpoch :=
  scoredEpoch clock e.epochMeta
    ((e.teamRows (Keyed.rows (·.participationId) participationId roster.services)).map
      fun row => scoredService row (row.score sqrt))

theorem scoredPoints_eq (services : List ScoredService) :
    scoredPoints services =
      (services.map fun service => service.localPoints * service.serviceWeight).sum
        / (services.map fun service => service.serviceWeight).sum := by
  unfold scoredPoints
  split
  · simp [*]
  · rfl

theorem scoredEpochOf_epochWeight (participationId : ℤ) {e : EpochEvidence}
    (hcount : e.epochMeta.roundCount ≤ clock.epochTicks) :
    (scoredEpochOf sqrt clock roster participationId e).summary.epochWeight =
      e.weight clock.epochTicks := by
  simp [scoredEpochOf, scoredEpoch, EpochEvidence.weight, min_eq_left hcount]

/-- A sum over the scored services of a team is the sum over its evidence rows. -/
theorem sum_scoredServices (participationId : ℤ) {e : EpochEvidence}
    (h : e.Complete roster) (f : ScoredService → ℚ) :
    ((scoredEpochOf sqrt clock roster participationId e).services.map f).sum =
      ((Keyed.rows (·.participationId) participationId e.rows).map fun row =>
        f (scoredService row (row.score sqrt))).sum := by
  rw [scoredEpochOf, scoredEpoch, List.map_map]
  exact ((h.teamRows_perm participationId).map _).sum_eq

theorem scoredEpochOf_points (participationId : ℤ) {e : EpochEvidence}
    (h : e.Complete roster) :
    (scoredEpochOf sqrt clock roster participationId e).summary.points =
      weightedPoints (e.teamScores sqrt participationId) := by
  change scoredPoints (scoredEpochOf sqrt clock roster participationId e).services = _
  rw [scoredPoints_eq, sum_scoredServices participationId h,
    sum_scoredServices participationId h, weightedPoints, EpochEvidence.teamScores,
    List.map_map, List.map_map]
  rfl

/-- The board and the rollup writer derive the same team totals from an epoch. -/
theorem teamTotals_scoredEpochOf (participationId : ℤ) {e : EpochEvidence}
    (h : e.Complete roster) (hcount : e.epochMeta.roundCount ≤ clock.epochTicks) :
    (scoredEpochOf sqrt clock roster participationId e).teamTotals =
      e.teamContribution sqrt clock.epochTicks participationId := by
  rw [ScoredEpoch.teamTotals, EpochEvidence.teamContribution, teamContribution,
    scoredEpochOf_points participationId h, scoredEpochOf_epochWeight participationId hcount,
    sum_scoredServices participationId h, sum_scoredServices participationId h,
    sum_scoredServices participationId h, sum_scoredServices participationId h,
    EpochEvidence.teamScores, ← List.sum_map_mul_right]
  simp only [List.map_map]
  rfl

/-- The board and the rollup writer derive the same service totals from an epoch. -/
theorem serviceTotals_scoredEpochOf {e : EpochEvidence} (h : e.Complete roster)
    (hvalid : e.Valid) (hcount : e.epochMeta.roundCount ≤ clock.epochTicks)
    {service : StableServiceRow} (hservice : service ∈ roster.services) :
    (scoredEpochOf sqrt clock roster service.participationId e).serviceTotals
        service.challengeId =
      e.serviceContribution sqrt clock.epochTicks service.key := by
  obtain ⟨row, hrow, hkey, hget⟩ := h.exists_get hservice
  have hpid : row.participationId = service.participationId := congrArg Prod.fst hkey
  have hcid : row.challengeId = service.challengeId := congrArg Prod.snd hkey
  have hmem : row ∈ e.teamRows
      (Keyed.rows (·.participationId) service.participationId roster.services) :=
    h.mem_teamRows.mpr ⟨hrow, service, Keyed.mem_rows.mpr ⟨hservice, rfl⟩, hkey⟩
  have hfind : (scoredEpochOf sqrt clock roster service.participationId e).services.find?
      (fun scored => scored.challengeId = service.challengeId) =
      some (scoredService row (row.score sqrt)) := by
    refine Keyed.find?_eq_some_of_unique (List.mem_map_of_mem hmem) (decide_eq_true hcid) ?_
    rintro scored hscored hchallenge
    obtain ⟨row', hrow', rfl⟩ := List.mem_map.mp hscored
    obtain ⟨hmem', service', hservice', hkey'⟩ := h.mem_teamRows.mp hrow'
    have hsame : row'.key = row.key := by
      refine Prod.ext ?_ ?_
      · exact ((congrArg Prod.fst hkey').trans (Keyed.mem_rows.mp hservice').2).trans hpid.symm
      · exact (of_decide_eq_true hchallenge).trans hcid.symm
    rw [List.inj_on_of_nodup_map h.nodup hmem' hrow hsame]
  have hweight : ((scoredEpochOf sqrt clock roster service.participationId e).services.map
      fun scored => scored.serviceWeight).sum = teamWeight e.rows row.participationId := by
    rw [sum_scoredServices _ h, hpid]
    rfl
  have hpos : 0 < teamWeight e.rows row.participationId := by
    refine List.sum_pos _ (fun w hw => ?_) (by simp [Keyed.rows_ne_nil hrow])
    obtain ⟨r, hr, rfl⟩ := List.mem_map.mp hw
    exact (hvalid r (Keyed.mem_rows.mp hr).1).serviceWeight_pos
  have hcaptures : ((serviceEvidence row).captureCount : ℤ) = count row.captureCount :=
    Int.toNat_of_nonneg (le_max_right _ _)
  simp only [ScoredEpoch.serviceTotals, hfind, hweight, if_neg (not_le.mpr hpos),
    EpochEvidence.serviceContribution, hget, Option.map_some, Option.getD_some,
    EpochEvidence.rowContribution, serviceContribution,
    scoredEpochOf_epochWeight _ hcount, ← hcaptures]
  rfl

/-- The board scores valid evidence epoch by epoch. -/
theorem scoreEpochs_eq {epochs : List EpochEvidence}
    (hnd : (epochs.map (·.epochMeta.epoch)).Nodup) (hcomplete : ∀ e ∈ epochs, e.Complete roster)
    (hvalid : ∀ e ∈ epochs, e.Valid) (participationId : ℤ) :
    scoreEpochs sqrt clock (epochs.map (·.epochMeta)) (epochs.flatMap (·.rows))
        (Keyed.rows (·.participationId) participationId roster.services) =
      .ok (epochs.map (scoredEpochOf sqrt clock roster participationId)) := by
  rw [scoreEpochs, List.mapM_map]
  refine mapM_eq_ok_map fun e he => ?_
  rw [Function.comp_apply, EpochEvidence.teamEvidence_flatMap hnd
    (fun a ha => (hcomplete a ha).tagged) he]
  have hservices : scoreServices sqrt
      (e.teamRows (Keyed.rows (·.participationId) participationId roster.services)) =
      .ok ((e.teamRows (Keyed.rows (·.participationId) participationId
        roster.services)).map fun row => scoredService row (row.score sqrt)) := by
    refine mapM_eq_ok_map fun row hrow => ?_
    have hmem := ((hcomplete e he).mem_teamRows.mp hrow).1
    rw [scoreRow_of_valid sqrt (hvalid e he row hmem)]
    rfl
  rw [hservices]
  rfl

/-- The team rows of one participation, epoch by epoch. -/
theorem rows_teams_sealedStore {finalizedRound : EpochMetaRow → ℤ} {epochTicks : ℤ}
    {epochs : List EpochEvidence} {participationId : ℤ}
    (hpid : ∀ e ∈ epochs, participationId ∈ e.rows.map (·.participationId)) :
    Keyed.rows (·.participationId) participationId
        (sealedStore sqrt epochTicks finalizedRound epochs).teams =
      record (fun before e => teamRowOf sqrt epochTicks before e participationId) [] epochs := by
  refine rows_flatten_record_of_single (fun before e he => ?_) []
  have hkeys : Keyed.rows id participationId
      (Keyed.sortedKeys (e.rows.map (·.participationId))) = [participationId] :=
    Keyed.rows_id (Keyed.nodup_sortedKeys _) (Keyed.mem_sortedKeys.mpr (hpid e he))
  rw [teamRowsOf, Keyed.rows_map]
  exact congrArg (List.map _) hkeys

theorem Numbered.pairwise {epochs : List EpochEvidence} (h : Numbered epochs) :
    (epochs.map (·.epochMeta.epoch)).Pairwise (· < ·) := by
  rw [h]
  exact List.pairwise_lt_range.map _ fun i j hij => by omega

/-- The recent epochs of a header are the last ones up to it. -/
theorem recentEpochs_sealedStore {finalizedRound : EpochMetaRow → ℤ} {epochTicks : ℤ}
    {l₁ l₂ : List EpochEvidence} {a : EpochEvidence} (hnum : Numbered (l₁ ++ a :: l₂)) :
    (sealedStore sqrt epochTicks finalizedRound (l₁ ++ a :: l₂)).recentEpochs
        a.epochMeta.epoch =
      (((l₁ ++ [a]).map (·.epochMeta.epoch)).rtake teamDetailEpochLimit).reverse := by
  have hsorted := hnum.pairwise
  rw [List.append_cons, List.map_append, List.pairwise_append] at hsorted
  obtain ⟨hleft, -, hcross⟩ := hsorted
  have hle : ∀ x ∈ (l₁ ++ [a]).map (·.epochMeta.epoch), x ≤ a.epochMeta.epoch := by
    intro x hx
    rw [List.map_append, List.pairwise_append] at hleft
    rw [List.map_append, List.mem_append] at hx
    rcases hx with hx | hx
    · exact (hleft.2.2 x hx _ (by simp)).le
    · simp_all
  have hgt : ∀ x ∈ l₂.map (·.epochMeta.epoch), ¬x ≤ a.epochMeta.epoch := by
    intro x hx
    exact not_le.mpr (hcross _ (by simp) x hx)
  have hfilter : ((l₁ ++ a :: l₂).map (·.epochMeta.epoch)).filter (· ≤ a.epochMeta.epoch) =
      (l₁ ++ [a]).map (·.epochMeta.epoch) := by
    rw [List.append_cons, List.map_append, List.filter_append,
      List.filter_eq_self.mpr (by simpa using hle),
      List.filter_eq_nil_iff.mpr (by simpa using hgt), List.append_nil]
  have hsort : ((l₁ ++ [a]).map (·.epochMeta.epoch)).insertionSort (· ≥ ·) =
      ((l₁ ++ [a]).map (·.epochMeta.epoch)).reverse := by
    refine Keyed.insertionSort_eq_of_perm (List.reverse_perm _).symm ?_
      fun x _ y _ hxy hyx => le_antisymm hyx hxy
    rw [List.pairwise_reverse]
    exact hleft.imp fun h => h.le
  rw [RollupStore.recentEpochs, map_epoch_headers_sealedStore, hfilter, hsort,
    List.rtake_eq_reverse_take_reverse, List.reverse_reverse]
  rfl

theorem mem_rosterTeams {services : List StableServiceRow} {team : StableServiceRow}
    (h : team ∈ rosterTeams services) : team ∈ services := by
  obtain ⟨participationId, -, hget⟩ := List.mem_filterMap.mp h
  exact (Keyed.mem_of_get hget).1

theorem exists_rosterTeam {services : List StableServiceRow} {service : StableServiceRow}
    (h : service ∈ services) :
    ∃ team ∈ rosterTeams services, team.participationId = service.participationId := by
  cases hget : Keyed.get (·.participationId) service.participationId services with
  | none => exact absurd rfl (Keyed.get_eq_none_iff.mp hget service h)
  | some team =>
      refine ⟨team, ?_, (Keyed.mem_of_get hget).2⟩
      refine List.mem_filterMap.mpr ⟨service.participationId, ?_, hget⟩
      exact Keyed.mem_sortedKeys.mpr (List.mem_map_of_mem h)

/-- The board rows of valid evidence. -/
theorem teamRows_eq {epochs : List EpochEvidence}
    (hnd : (epochs.map (·.epochMeta.epoch)).Nodup) (hcomplete : ∀ e ∈ epochs, e.Complete roster)
    (hvalid : ∀ e ∈ epochs, e.Valid) (snapshot : RollupSnapshot)
    (latestChecks : List LatestCheckStatusRow) :
    teamRows sqrt clock roster.services snapshot (epochs.map (·.epochMeta))
        (epochs.flatMap (·.rows)) latestChecks =
      .ok ((rosterTeams roster.services).map fun team =>
        teamRow snapshot latestChecks team
          (Keyed.rows (·.participationId) team.participationId roster.services)
          (epochs.map (scoredEpochOf sqrt clock roster team.participationId))) := by
  refine mapM_eq_ok_map fun team _ => ?_
  dsimp only
  rw [scoreEpochs_eq hnd hcomplete hvalid]
  rfl

/-- A board can only be built from valid evidence. -/
theorem valid_of_teamRows {epochs : List EpochEvidence}
    (hnd : (epochs.map (·.epochMeta.epoch)).Nodup) (hcomplete : ∀ e ∈ epochs, e.Complete roster)
    {snapshot : RollupSnapshot} {latestChecks : List LatestCheckStatusRow}
    {rows : List AdTeamScore}
    (h : teamRows sqrt clock roster.services snapshot (epochs.map (·.epochMeta))
      (epochs.flatMap (·.rows)) latestChecks = .ok rows) :
    ∀ e ∈ epochs, e.Valid := by
  intro e he row hrow
  have hmem : row.key ∈ roster.services.map StableServiceRow.key :=
    (hcomplete e he).grid.mem_iff.mp (List.mem_map_of_mem hrow)
  obtain ⟨service, hservice, hkey⟩ := List.mem_map.mp hmem
  obtain ⟨team, hteam, hpid⟩ := exists_rosterTeam hservice
  obtain ⟨_, hrows⟩ := exists_of_mapM_eq_ok h hteam
  obtain ⟨scored, hscored, -⟩ := bind_eq_ok_iff.mp hrows
  obtain ⟨_, hepoch⟩ := exists_of_mapM_eq_ok hscored (List.mem_map_of_mem he)
  obtain ⟨services, hservices, -⟩ := bind_eq_ok_iff.mp hepoch
  rw [EpochEvidence.teamEvidence_flatMap hnd (fun a ha => (hcomplete a ha).tagged) he]
    at hservices
  have hrow' : row ∈ e.teamRows
      (Keyed.rows (·.participationId) team.participationId roster.services) :=
    (hcomplete e he).mem_teamRows.mpr
      ⟨hrow, service, Keyed.mem_rows.mpr ⟨hservice, hpid.symm⟩, hkey.symm⟩
  obtain ⟨_, hscore⟩ := exists_of_mapM_eq_ok hservices hrow'
  obtain ⟨score, hscore, -⟩ := bind_eq_ok_iff.mp hscore
  exact ((scoreRow_eq_ok_iff sqrt row score).mp hscore).1

/-- The recent rows of a participation are its rows of the last epochs up to the header. -/
theorem recent_snapshotAt {finalizedRound : EpochMetaRow → ℤ} {epochTicks : ℤ}
    {l₁ l₂ : List EpochEvidence} {a : EpochEvidence} {header : AdEpochRollup}
    (hheader : header.epoch = a.epochMeta.epoch) (hnum : Numbered (l₁ ++ a :: l₂))
    {participationId : ℤ}
    (hpid : ∀ e ∈ l₁ ++ a :: l₂, participationId ∈ e.rows.map (·.participationId)) :
    ((Keyed.rows (·.participationId) participationId
        ((sealedStore sqrt epochTicks finalizedRound (l₁ ++ a :: l₂)).snapshotAt
          header).recent).map fun row =>
        { epoch := row.epoch, points := row.points, epochWeight := row.epochWeight,
          finalized := true : AdEpochScore }).Perm
      (((l₁ ++ [a]).rtake teamDetailEpochLimit).map fun e =>
        { epoch := e.epochMeta.epoch
          points := weightedPoints (e.teamScores sqrt participationId)
          epochWeight := e.weight epochTicks
          finalized := true }) := by
  set epochs := l₁ ++ a :: l₂
  set last := (l₁ ++ [a]).rtake teamDetailEpochLimit
  set recent := (last.map (·.epochMeta.epoch)) with hrecent
  have hepochs : epochs = (l₁ ++ [a]).take ((l₁ ++ [a]).length - teamDetailEpochLimit)
      ++ last ++ l₂ := by
    simp only [last, List.rtake, List.take_append_drop, epochs, List.append_cons l₁ a l₂]
  have hmem : ∀ x, x ∈ (sealedStore sqrt epochTicks finalizedRound epochs).recentEpochs
      header.epoch ↔ x ∈ recent := by
    intro x
    rw [hheader, recentEpochs_sealedStore hnum, List.mem_reverse]
    simp only [hrecent, last, List.rtake, List.map_drop, List.length_map]
  have hfilter : (epochs.filter fun e => e.epochMeta.epoch ∈ recent) = last := by
    have hnd := hnum.nodup
    rw [hepochs] at hnd ⊢
    exact filter_mem_map hnd
  have hrows : ((Keyed.rows (·.participationId) participationId
      ((sealedStore sqrt epochTicks finalizedRound epochs).teams.filter fun row =>
        row.epoch ∈ (sealedStore sqrt epochTicks finalizedRound epochs).recentEpochs
          header.epoch)).map fun row =>
        { epoch := row.epoch, points := row.points, epochWeight := row.epochWeight,
          finalized := true : AdEpochScore }) =
      last.map fun e =>
        { epoch := e.epochMeta.epoch
          points := weightedPoints (e.teamScores sqrt participationId)
          epochWeight := e.weight epochTicks
          finalized := true } := by
    have hcomm : Keyed.rows (·.participationId) participationId
        ((sealedStore sqrt epochTicks finalizedRound epochs).teams.filter fun row =>
          row.epoch ∈ (sealedStore sqrt epochTicks finalizedRound epochs).recentEpochs
            header.epoch) =
        (Keyed.rows (·.participationId) participationId
          (sealedStore sqrt epochTicks finalizedRound epochs).teams).filter fun row =>
            row.epoch ∈ recent := by
      simp only [Keyed.rows, List.filter_filter, hmem, Bool.and_comm]
    have hmap : ((record (fun before e => teamRowOf sqrt epochTicks before e participationId)
        [] epochs).map fun row =>
          { epoch := row.epoch, points := row.points, epochWeight := row.epochWeight,
            finalized := true : AdEpochScore }) =
        epochs.map fun e =>
          { epoch := e.epochMeta.epoch
            points := weightedPoints (e.teamScores sqrt participationId)
            epochWeight := e.weight epochTicks
            finalized := true } := map_record (by intros; rfl) [] epochs
    have hselect := congrArg
      (List.filter fun score : AdEpochScore => decide (score.epoch ∈ recent)) hmap
    rw [List.filter_map, List.filter_map] at hselect
    rw [hcomm, rows_teams_sealedStore hpid, ← hfilter]
    exact hselect
  rw [← hrows]
  exact ((List.perm_insertionSort _ _).filter _).map _

/-- A snapshot of the sealed tables remembers the epochs up to its header. -/
theorem remembers_snapshotAt {finalizedRound : EpochMetaRow → ℤ}
    {l₁ l₂ : List EpochEvidence} {a : EpochEvidence} (hnum : Numbered (l₁ ++ a :: l₂))
    (hcomplete : ∀ e ∈ l₁ ++ a :: l₂, e.Complete roster)
    (hvalid : ∀ e ∈ l₁ ++ a :: l₂, e.Valid)
    (hcount : ∀ e ∈ l₁ ++ a :: l₂, e.epochMeta.roundCount ≤ clock.epochTicks)
    (hfinal : ∀ e ∈ l₁ ++ [a], clock.finalized e.epochMeta = true)
    {team : StableServiceRow} (hteam : team ∈ roster.services) :
    ((sealedStore sqrt clock.epochTicks finalizedRound (l₁ ++ a :: l₂)).snapshotAt
        (headerOf clock.epochTicks finalizedRound l₁ a)).Remembers team.participationId
      (Keyed.rows (·.participationId) team.participationId roster.services)
      ((l₁ ++ [a]).map (scoredEpochOf sqrt clock roster team.participationId)) := by
  have hinit : ∀ e ∈ l₁ ++ [a], e ∈ l₁ ++ a :: l₂ := by
    intro e he
    rw [List.append_cons]
    exact List.mem_append_left l₂ he
  have ha : a ∈ l₁ ++ a :: l₂ := by simp
  constructor
  · intro epoch hepoch
    obtain ⟨e, he, rfl⟩ := List.mem_map.mp hepoch
    exact hfinal e he
  · obtain ⟨row, hrow, hkey, -⟩ := (hcomplete a ha).exists_get hteam
    have hpid : row.participationId = team.participationId := congrArg Prod.fst hkey
    have hload : (sealedStore sqrt clock.epochTicks finalizedRound
        (l₁ ++ a :: l₂)).loadTeamRollups a.epochMeta.epoch = _ :=
      loadTeamRollups_sealedStore hnum
    change ((Keyed.get _ _ ((sealedStore sqrt clock.epochTicks finalizedRound
      (l₁ ++ a :: l₂)).loadTeamRollups a.epochMeta.epoch)).map _).getD 0 = _
    rw [hload, ← hpid, team_totals_teamRowsOf l₁ hrow, teamTotals, List.map_map]
    congr 1
    refine List.map_congr_left fun e he => ?_
    exact (teamTotals_scoredEpochOf _ (hcomplete e (hinit e he))
      (hcount e (hinit e he))).symm
  · intro service hservice
    obtain ⟨hmem, hpid⟩ := Keyed.mem_rows.mp hservice
    obtain ⟨row, hrow, hkey, -⟩ := (hcomplete a ha).exists_get hmem
    change ((Keyed.get _ _ ((sealedStore sqrt clock.epochTicks finalizedRound
      (l₁ ++ a :: l₂)).loadServiceRollups a.epochMeta.epoch)).map _).getD 0 = _
    have hservicekey : (team.participationId, service.challengeId) = row.key := by
      rw [hkey, StableServiceRow.key, hpid]
    rw [loadServiceRollups_sealedStore hnum, hservicekey,
      service_totals_serviceRowsOf l₁ (hcomplete a ha) hrow, serviceTotals, List.map_map]
    congr 1
    refine List.map_congr_left fun e he => ?_
    rw [hkey, Function.comp_apply, ← hpid]
    exact (serviceTotals_scoredEpochOf (hcomplete e (hinit e he))
      (hvalid e (hinit e he)) (hcount e (hinit e he)) hmem).symm
  · have hpid : ∀ e ∈ l₁ ++ a :: l₂, team.participationId ∈ e.rows.map (·.participationId) := by
      intro e he
      obtain ⟨row, hrow, hkey, -⟩ := (hcomplete e he).exists_get hteam
      exact List.mem_map.mpr ⟨row, hrow, congrArg Prod.fst hkey⟩
    have hsummary : ((((l₁ ++ [a]).map
        (scoredEpochOf sqrt clock roster team.participationId)).map
          (·.summary)).rtake teamDetailEpochLimit) =
        ((l₁ ++ [a]).rtake teamDetailEpochLimit).map fun e =>
          { epoch := e.epochMeta.epoch
            points := weightedPoints (e.teamScores sqrt team.participationId)
            epochWeight := e.weight clock.epochTicks
            finalized := true } := by
      rw [List.map_map, List.rtake, List.length_map, ← List.map_drop, ← List.rtake]
      refine List.map_congr_left fun e he => ?_
      have hmem : e ∈ l₁ ++ [a] := (List.drop_sublist _ _).mem he
      have hpoints : (scoredEpochOf sqrt clock roster team.participationId e).summary.points =
          _ := scoredEpochOf_points _ (hcomplete e (hinit e hmem))
      have hweight : (scoredEpochOf sqrt clock roster team.participationId
          e).summary.epochWeight = _ :=
        scoredEpochOf_epochWeight _ (hcount e (hinit e hmem))
      rw [← hpoints, ← hweight, ← hfinal e hmem]
      rfl
    rw [hsummary]
    exact recent_snapshotAt rfl hnum hpid

theorem boardTeamRows_none {epochs : List EpochEvidence} (hnum : Numbered epochs)
    (latestChecks : List LatestCheckStatusRow) :
    boardTeamRows sqrt clock roster.services .none epochs latestChecks =
      teamRows sqrt clock roster.services .none (epochs.map (·.epochMeta))
        (epochs.flatMap (·.rows)) latestChecks := by
  have hfilter : (epochs.filter fun e =>
      RollupSnapshot.none.firstRawEpoch ≤ e.epochMeta.epoch) = epochs := by
    rw [List.filter_eq_self]
    intro e he
    exact decide_eq_true (hnum.mem_range he).1
  simp only [boardTeamRows, hfilter]

/-- A board with a header reads the epochs after the header raw. -/
theorem boardTeamRows_of_header {snapshot : RollupSnapshot} {header : AdEpochRollup}
    (hsnapshot : snapshot.header = some header) {l₁ l₂ : List EpochEvidence}
    {a : EpochEvidence} (hheader : header.epoch = a.epochMeta.epoch)
    (hnum : Numbered (l₁ ++ a :: l₂)) (latestChecks : List LatestCheckStatusRow) :
    boardTeamRows sqrt clock roster.services snapshot (l₁ ++ a :: l₂) latestChecks =
      teamRows sqrt clock roster.services snapshot (l₂.map (·.epochMeta))
        (l₂.flatMap (·.rows)) latestChecks := by
  have hsorted := hnum.pairwise
  rw [List.map_append, List.pairwise_append, List.map_cons, List.pairwise_cons] at hsorted
  obtain ⟨-, ⟨hafter, -⟩, hbefore⟩ := hsorted
  have hfirst : snapshot.firstRawEpoch = a.epochMeta.epoch + 1 := by
    simp [RollupSnapshot.firstRawEpoch, hsnapshot, hheader]
  have hfilter : ((l₁ ++ a :: l₂).filter fun e =>
      snapshot.firstRawEpoch ≤ e.epochMeta.epoch) = l₂ := by
    have hleft : (l₁.filter fun e => snapshot.firstRawEpoch ≤ e.epochMeta.epoch) = [] := by
      rw [List.filter_eq_nil_iff]
      intro e he
      have hlt := hbefore _ (List.mem_map_of_mem he) a.epochMeta.epoch (by simp)
      simp only [hfirst, decide_eq_true_eq]
      omega
    have hright : (l₂.filter fun e => snapshot.firstRawEpoch ≤ e.epochMeta.epoch) = l₂ := by
      rw [List.filter_eq_self]
      intro e he
      have hlt := hafter _ (List.mem_map_of_mem he)
      simp only [hfirst, decide_eq_true_eq]
      omega
    have hself : ¬snapshot.firstRawEpoch ≤ a.epochMeta.epoch := by omega
    rw [List.filter_append, List.filter_cons, hleft, hright, if_neg (by simpa using hself)]
    rfl
  simp only [boardTeamRows, hfilter]

/-- The rows computed from a snapshot of the sealed tables and the epochs after its
header are the rows of all epochs raw. -/
theorem boardTeamRows_snapshotAt {finalizedRound : EpochMetaRow → ℤ}
    {epochs finalizedEpochs rest l₁ l₂ : List EpochEvidence} {a : EpochEvidence}
    (hepochs : finalizedEpochs ++ rest = epochs) (hheader : finalizedEpochs = l₁ ++ a :: l₂)
    (hnum : Numbered epochs) (hcomplete : ∀ e ∈ epochs, e.Complete roster)
    (hvalid : ∀ e ∈ epochs, e.Valid)
    (hcount : ∀ e ∈ epochs, e.epochMeta.roundCount ≤ clock.epochTicks)
    (hfinal : ∀ e ∈ finalizedEpochs, clock.finalized e.epochMeta = true)
    (latestChecks : List LatestCheckStatusRow) :
    boardTeamRows sqrt clock roster.services
        ((sealedStore sqrt clock.epochTicks finalizedRound finalizedEpochs).snapshotAt
          (headerOf clock.epochTicks finalizedRound l₁ a))
        epochs latestChecks =
      boardTeamRows sqrt clock roster.services .none epochs latestChecks := by
  subst hheader hepochs
  have hsub : ∀ e ∈ l₁ ++ a :: l₂, e ∈ l₁ ++ a :: l₂ ++ rest :=
    fun e he => List.mem_append_left rest he
  have hsub' : ∀ e ∈ l₂ ++ rest, e ∈ l₁ ++ a :: l₂ ++ rest := by
    intro e he
    simp only [List.mem_append, List.mem_cons] at he ⊢
    tauto
  have hsplit : l₁ ++ a :: l₂ ++ rest = l₁ ++ a :: (l₂ ++ rest) := by simp
  have hsplit' : l₁ ++ a :: l₂ ++ rest = l₁ ++ [a] ++ (l₂ ++ rest) := by simp
  have hsorted := hnum.pairwise
  have hnd : ((l₂ ++ rest).map (·.epochMeta.epoch)).Nodup := by
    have hnodup := hnum.nodup
    rw [hsplit', List.map_append] at hnodup
    exact hnodup.of_append_right
  rw [boardTeamRows_none hnum, teamRows_eq hnum.nodup hcomplete hvalid]
  rw [hsplit] at hnum
  nth_rewrite 1 [hsplit]
  rw [boardTeamRows_of_header rfl rfl hnum,
    teamRows_eq hnd (fun e he => hcomplete e (hsub' e he)) fun e he => hvalid e (hsub' e he)]
  congr 1
  refine List.map_congr_left fun team hteam => ?_
  have happend : (l₁ ++ a :: l₂ ++ rest).map
        (scoredEpochOf sqrt clock roster team.participationId) =
      (l₁ ++ [a]).map (scoredEpochOf sqrt clock roster team.participationId)
        ++ (l₂ ++ rest).map (scoredEpochOf sqrt clock roster team.participationId) := by
    rw [hsplit', List.map_append]
  rw [happend]
  have hfinal' : ∀ e ∈ l₁ ++ [a], clock.finalized e.epochMeta = true := by
    intro e he
    refine hfinal e ?_
    rw [List.append_cons]
    exact List.mem_append_left l₂ he
  refine teamRow_append latestChecks (remembers_snapshotAt ?_ ?_ ?_ ?_ hfinal'
    (mem_rosterTeams hteam)) ?_
  · rw [← hsplit] at hnum
    exact hnum.of_append
  · exact fun e he => hcomplete e (hsub e he)
  · exact fun e he => hvalid e (hsub e he)
  · exact fun e he => hcount e (hsub e he)
  · rw [← happend, List.map_map, List.pairwise_map]
    exact List.pairwise_map.mp hsorted

/-- A board with a header can only be built when the epochs after it are valid. -/
theorem valid_of_boardTeamRows_snapshotAt {store : RollupStore} {header : AdEpochRollup}
    {epochs finalizedEpochs rest l₁ l₂ : List EpochEvidence} {a : EpochEvidence}
    (hepochs : finalizedEpochs ++ rest = epochs) (hheader : finalizedEpochs = l₁ ++ a :: l₂)
    (hepoch : header.epoch = a.epochMeta.epoch)
    (hnum : Numbered epochs) (hcomplete : ∀ e ∈ epochs, e.Complete roster)
    (hvalid : ∀ e ∈ finalizedEpochs, e.Valid) {latestChecks : List LatestCheckStatusRow}
    {rows : List AdTeamScore}
    (h : boardTeamRows sqrt clock roster.services (store.snapshotAt header) epochs
      latestChecks = .ok rows) :
    ∀ e ∈ epochs, e.Valid := by
  subst hheader
  have hsplit : epochs = l₁ ++ a :: (l₂ ++ rest) := by simp [← hepochs]
  subst hsplit
  have hnd : ((l₂ ++ rest).map (·.epochMeta.epoch)).Nodup := by
    have hnodup := hnum.nodup
    rw [List.map_append, List.map_cons] at hnodup
    exact hnodup.of_append_right.of_cons
  rw [boardTeamRows_of_header rfl hepoch hnum] at h
  have hrest := valid_of_teamRows hnd (fun e he => hcomplete e (by
    rw [List.mem_append]
    exact .inr (List.mem_cons_of_mem a he))) h
  intro e he
  rw [← hepochs, List.mem_append] at he
  rcases he with he | he
  · exact hvalid e he
  · exact hrest e (List.mem_append_right l₂ he)

variable (sqrt) in
/-- A snapshot of the sealed tables is empty or belongs to one of their epochs. -/
theorem loadRollupSnapshot_sealedStore (epochTicks : ℤ) (finalizedRound : EpochMetaRow → ℤ)
    (epochs : List EpochEvidence) (cutoffRound : Option ℤ) :
    loadRollupSnapshot (sealedStore sqrt epochTicks finalizedRound epochs) cutoffRound = .none ∨
      ∃ l₁ a l₂, epochs = l₁ ++ a :: l₂ ∧
        loadRollupSnapshot (sealedStore sqrt epochTicks finalizedRound epochs) cutoffRound =
          (sealedStore sqrt epochTicks finalizedRound epochs).snapshotAt
            (headerOf epochTicks finalizedRound l₁ a) := by
  unfold loadRollupSnapshot
  cases hlatest : (sealedStore sqrt epochTicks finalizedRound epochs).latestHeader _ with
  | none => exact .inl rfl
  | some header =>
      have hmem := List.mem_of_mem_filter (Keyed.mem_of_latest hlatest)
      obtain ⟨l₁, a, l₂, hepochs, rfl⟩ := mem_record.mp hmem
      exact .inr ⟨l₁, a, l₂, hepochs, rfl⟩

end Bridge

/-- **Sealing epochs does not change the board.**  For a frozen roster and any
sequence of epochs, seal an arbitrary immutable prefix, read the resulting
tables with an arbitrary cutoff, and score the remaining epochs raw: the board
rows are the ones computed from all epochs raw. -/
theorem boardTeamRows_split (sqrt : ℚ → ℚ) (clock : BoardClock) (roster : FrozenRoster)
    (sequence : EpochSequence roster clock.epochTicks)
    (finalizedRound : EpochMetaRow → ℤ) (cutoffRound : Option ℤ)
    (latestChecks : List LatestCheckStatusRow) (k : ℕ)
    (himmutable : ∀ e ∈ sequence.epochs.take k, clock.finalized e.epochMeta = true)
    (rows : List AdTeamScore) :
    (do
      let store ← foldRollups sqrt clock.epochTicks finalizedRound (sequence.epochs.take k)
      boardTeamRows sqrt clock roster.services (loadRollupSnapshot store cutoffRound)
        sequence.epochs latestChecks) = .ok rows ↔
    boardTeamRows sqrt clock roster.services .none sequence.epochs latestChecks =
      .ok rows := by
  set epochs := sequence.epochs
  have hnum : Numbered epochs := sequence.numbered
  have hcomplete : ∀ e ∈ epochs, e.Complete roster := sequence.complete
  have hnumTake : Numbered (epochs.take k) := by
    rw [← List.take_append_drop k epochs] at hnum
    exact hnum.of_append
  have hcompleteTake : ∀ e ∈ epochs.take k, e.Complete roster :=
    fun e he => hcomplete e (List.mem_of_mem_take he)
  rcases eq_or_ne roster.services [] with hroster | hroster
  · have hrows : ∀ e ∈ epochs.take k, e.rows = [] := by
      intro e he
      simpa [hroster] using (hcompleteTake e he).grid
    rw [foldRollups_of_rows_nil hrows, hroster]
    rfl
  · have hsplit : epochs.take k ++ epochs.drop k = epochs := List.take_append_drop k epochs
    have hfold : (∀ e ∈ epochs.take k, e.Valid) →
        foldRollups sqrt clock.epochTicks finalizedRound (epochs.take k) =
          .ok (sealedStore sqrt clock.epochTicks finalizedRound (epochs.take k)) :=
      fun hvalid => foldRollups_eq hnumTake hcompleteTake hvalid hroster
    by_cases hvalid : ∀ e ∈ epochs, e.Valid
    · rw [hfold fun e he => hvalid e (List.mem_of_mem_take he)]
      change boardTeamRows _ _ _ (loadRollupSnapshot _ cutoffRound) _ _ = _ ↔ _
      obtain hnone | ⟨l₁, a, l₂, htake, hsome⟩ :=
        loadRollupSnapshot_sealedStore sqrt clock.epochTicks finalizedRound (epochs.take k)
          cutoffRound
      · rw [hnone]
      · rw [hsome, boardTeamRows_snapshotAt hsplit htake hnum hcomplete hvalid
          sequence.roundCount_le himmutable]
    · refine iff_of_false (fun h => hvalid ?_) fun h => hvalid ?_
      · obtain ⟨store, hstore, hrows⟩ := bind_eq_ok_iff.mp h
        have hvalidTake := valid_of_foldRollups hnumTake hcompleteTake hroster hstore
        rw [hfold hvalidTake, Except.ok.injEq] at hstore
        subst hstore
        obtain hnone | ⟨l₁, a, l₂, htake, hsome⟩ :=
          loadRollupSnapshot_sealedStore sqrt clock.epochTicks finalizedRound (epochs.take k)
            cutoffRound
        · rw [hnone, boardTeamRows_none hnum] at hrows
          exact valid_of_teamRows hnum.nodup hcomplete hrows
        · rw [hsome] at hrows
          exact valid_of_boardTeamRows_snapshotAt hsplit htake rfl hnum hcomplete hvalidTake
            hrows
      · rw [boardTeamRows_none hnum] at h
        exact valid_of_teamRows hnum.nodup hcomplete h

/-- One team with one service. -/
def soloRoster : FrozenRoster where
  services := [⟨1, 10, 100, 5, "red", none⟩]
  nodup := by decide

def soloEpoch (epoch : ℤ) : EpochEvidence where
  epochMeta := ⟨epoch, epoch, 1, true, true, epoch, 2⟩
  rows := [⟨10, 100, epoch, 1, 10, 5, 0, 10, 5, 4, 4, 10, 5, 5, 10, 5, some .ok, some 1⟩]

/-- Two full epochs, the second one still open in its flag lifetime. -/
def soloSequence : EpochSequence soloRoster 1 where
  epochs := [soloEpoch 1, soloEpoch 2]
  numbered := rfl
  complete := by
    simp only [List.forall_mem_cons, List.not_mem_nil, false_implies, implies_true, and_true]
    exact ⟨⟨by decide, by decide⟩, ⟨by decide, by decide⟩⟩
  roundCount_le := by decide

theorem boardTeamRows_split_solo :
    (do
      let store ← foldRollups id 1 (fun epochMeta => epochMeta.endRound + 1)
        (soloSequence.epochs.take 1)
      boardTeamRows id ⟨1, 1, false, 2⟩ soloRoster.services (loadRollupSnapshot store none)
        soloSequence.epochs []) =
      .ok [⟨0, 10, 5, "red", none, 45, 45, 1 / 2, 1 / 2, 1,
        [⟨100, 45, 45, 0, 0, 1 / 2, 1 / 2, 1, 10, none⟩],
        [⟨1, 45, 1, true⟩, ⟨2, 45, 1, false⟩]⟩] :=
  (boardTeamRows_split id ⟨1, 1, false, 2⟩ soloRoster soloSequence _ none [] 1
    (by decide) _).mpr (by decide +kernel)

end AttackDefense

end Rsctf
