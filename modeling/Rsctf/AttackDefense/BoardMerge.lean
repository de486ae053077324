import Mathlib.Algebra.BigOperators.Ring.List
import Rsctf.AttackDefense.Board
import Rsctf.Data.Ledger

/-!
# Merging remembered epochs with raw ones

A board row only sees the sums of what its epochs contribute.  When the totals
of a snapshot are the sums over some finalized epochs, merging the snapshot with
further raw epochs gives the row of all the epochs raw.
-/

open Guarded Ledger

namespace Rsctf

namespace AttackDefense

namespace ScoredEpoch

/-- What one epoch contributes to the totals of a team. -/
def teamTotals (epoch : ScoredEpoch) : PreviousTeamTotals where
  pointsNumerator := epoch.summary.points * epoch.summary.epochWeight
  epochWeight := epoch.summary.epochWeight
  offenseNumerator := (epoch.services.map fun service =>
    service.offenseRate * service.serviceWeight * epoch.summary.epochWeight).sum
  defenseNumerator := (epoch.services.map fun service =>
    service.defenseRate * service.serviceWeight * epoch.summary.epochWeight).sum
  slaNumerator := (epoch.services.map fun service =>
    service.slaRate * service.serviceWeight * epoch.summary.epochWeight).sum
  rateWeight := (epoch.services.map fun service =>
    service.serviceWeight * epoch.summary.epochWeight).sum

/-- What one epoch contributes to the totals of a service. -/
def serviceTotals (challengeId : ℤ) (epoch : ScoredEpoch) : PreviousServiceTotals :=
  match epoch.services.find? fun service => service.challengeId = challengeId with
  | none => 0
  | some service =>
    let serviceWeight := (epoch.services.map fun service => service.serviceWeight).sum
    if serviceWeight ≤ 0 then 0
    else
      let weight := epoch.summary.epochWeight
      { pointsNumerator :=
          service.localPoints * service.serviceWeight / serviceWeight * weight
        epochWeight := weight
        offenseNumerator := service.offenseRate * weight
        defenseNumerator := service.defenseRate * weight
        slaNumerator := service.slaRate * weight
        captureCount := service.captureCount }

theorem serviceTotals_captureCount_nonneg (challengeId : ℤ) (epoch : ScoredEpoch) :
    0 ≤ (epoch.serviceTotals challengeId).captureCount := by
  unfold serviceTotals
  split
  · exact le_rfl
  · dsimp only
    split
    · exact le_rfl
    · exact Int.natCast_nonneg _

end ScoredEpoch

theorem rateComponents_cons (epoch : ScoredEpoch) (epochs : List ScoredEpoch)
    (select : ScoredService → ℚ) :
    rateComponents (epoch :: epochs) select =
      ((epoch.services.map fun service =>
          select service * service.serviceWeight * epoch.summary.epochWeight).sum
        + (rateComponents epochs select).1,
        (epoch.services.map fun service =>
          service.serviceWeight * epoch.summary.epochWeight).sum
        + (rateComponents epochs select).2) := by
  simp [rateComponents]

theorem rateComponents_append (epochs₁ epochs₂ : List ScoredEpoch)
    (select : ScoredService → ℚ) :
    rateComponents (epochs₁ ++ epochs₂) select =
      rateComponents epochs₁ select + rateComponents epochs₂ select := by
  simp [rateComponents]

/-- The totals of a list of epochs, column by column as the board sums them. -/
theorem sum_teamTotals (epochs : List ScoredEpoch) :
    (epochs.map (·.teamTotals)).sum =
      { pointsNumerator :=
          (epochs.map fun epoch => epoch.summary.points * epoch.summary.epochWeight).sum
        epochWeight := (epochs.map fun epoch => epoch.summary.epochWeight).sum
        offenseNumerator := (rateComponents epochs fun service => service.offenseRate).1
        defenseNumerator := (rateComponents epochs fun service => service.defenseRate).1
        slaNumerator := (rateComponents epochs fun service => service.slaRate).1
        rateWeight := (rateComponents epochs fun service => service.offenseRate).2 } := by
  induction epochs with
  | nil => rfl
  | cons epoch epochs ih =>
      rw [List.map_cons, List.sum_cons, ih]
      simp [PreviousTeamTotals.add_def, ScoredEpoch.teamTotals, rateComponents_cons]

theorem mergeServiceEpoch_ofTotals (challengeId : ℤ) {totals : PreviousServiceTotals}
    (htotals : 0 ≤ totals.captureCount) {epoch : ScoredEpoch}
    (hfinal : epoch.summary.finalized = true) :
    mergeServiceEpoch challengeId (.ofTotals totals) epoch =
      .ofTotals (totals + epoch.serviceTotals challengeId) := by
  unfold mergeServiceEpoch ScoredEpoch.serviceTotals
  cases epoch.services.find? fun service => service.challengeId = challengeId with
  | none => simp
  | some service =>
      dsimp only
      split
      · simp
      · have hcaptures : (count (totals.captureCount + service.captureCount)).toNat =
            (count totals.captureCount).toNat + service.captureCount := by
          unfold count
          omega
        simp only [ServiceAccumulators.ofTotals, PreviousServiceTotals.add_def, hcaptures]

/-- Finalized raw epochs only add to the totals which the merge starts from. -/
theorem foldl_mergeServiceEpoch_ofTotals (challengeId : ℤ) {totals : PreviousServiceTotals}
    (htotals : 0 ≤ totals.captureCount) {epochs : List ScoredEpoch}
    (hfinal : ∀ epoch ∈ epochs, epoch.summary.finalized = true) :
    epochs.foldl (mergeServiceEpoch challengeId) (.ofTotals totals) =
      .ofTotals (totals + (epochs.map (·.serviceTotals challengeId)).sum) := by
  induction epochs generalizing totals with
  | nil => simp
  | cons epoch epochs ih =>
      have hnonneg := epoch.serviceTotals_captureCount_nonneg challengeId
      rw [List.foldl_cons, mergeServiceEpoch_ofTotals challengeId htotals (hfinal epoch (by simp)),
        ih (add_nonneg htotals hnonneg) fun e he => hfinal e (by simp [he])]
      simp [add_assoc]

theorem mergeServiceDetail_append (challengeId : ℤ) (previous : Option AdEpochServiceRollup)
    {finalizedEpochs : List ScoredEpoch} (rawEpochs : List ScoredEpoch)
    (lastCheckStatus : Option String)
    (hprevious : (previous.map (·.totals)).getD 0 =
      (finalizedEpochs.map (·.serviceTotals challengeId)).sum)
    (hfinal : ∀ epoch ∈ finalizedEpochs, epoch.summary.finalized = true) :
    mergeServiceDetail challengeId previous rawEpochs lastCheckStatus =
      mergeServiceDetail challengeId none (finalizedEpochs ++ rawEpochs)
        lastCheckStatus := by
  have hzero : 0 ≤ (0 : PreviousServiceTotals).captureCount := le_rfl
  have hfold := foldl_mergeServiceEpoch_ofTotals challengeId hzero hfinal
  simp only [mergeServiceDetail, hprevious, List.foldl_append, Option.map_none,
    Option.getD_none, hfold, zero_add]

theorem detailEpochs_eq (recent : List AdEpochTeamRollup) (rawEpochs : List ScoredEpoch)
    {epochs : List AdEpochScore}
    (hperm : ((recent.map fun row =>
        { epoch := row.epoch, points := row.points, epochWeight := row.epochWeight,
          finalized := true : AdEpochScore })).Perm epochs)
    (hsorted : (epochs ++ rawEpochs.map (·.summary)).Pairwise
      fun left right => left.epoch < right.epoch) :
    detailEpochs recent rawEpochs =
      (epochs ++ rawEpochs.map (·.summary)).rtake teamDetailEpochLimit := by
  have htotal : Std.Total fun left right : AdEpochScore => left.epoch ≤ right.epoch :=
    ⟨fun left right => le_total left.epoch right.epoch⟩
  have htrans : IsTrans AdEpochScore fun left right => left.epoch ≤ right.epoch :=
    ⟨fun _ _ _ => le_trans⟩
  have hanti : ∀ a ∈ epochs ++ rawEpochs.map (·.summary),
      ∀ b ∈ epochs ++ rawEpochs.map (·.summary), a.epoch ≤ b.epoch → b.epoch ≤ a.epoch →
        a = b := by
    intro a ha b hb hab hba
    have hnd : ((epochs ++ rawEpochs.map (·.summary)).map (·.epoch)).Nodup :=
      List.pairwise_map.mpr (hsorted.imp fun h => h.ne)
    exact List.inj_on_of_nodup_map hnd ha hb (le_antisymm hab hba)
  rw [detailEpochs, Keyed.insertionSort_eq_of_perm (hperm.append_right _)
    (hsorted.imp fun h => h.le) hanti]
  rfl

/-- A snapshot remembers some finalized epochs of a team when its totals are the sums
over them and its recent rows are the last of them. -/
structure RollupSnapshot.Remembers (snapshot : RollupSnapshot) (participationId : ℤ)
    (teamServices : List StableServiceRow) (epochs : List ScoredEpoch) : Prop where
  finalized : ∀ epoch ∈ epochs, epoch.summary.finalized = true
  team : ((Keyed.get (·.participationId) participationId snapshot.teams).map
    (·.totals)).getD 0 = (epochs.map (·.teamTotals)).sum
  services : ∀ service ∈ teamServices,
    ((Keyed.get AdEpochServiceRollup.serviceKey (participationId, service.challengeId)
      snapshot.services).map (·.totals)).getD 0 =
        (epochs.map (·.serviceTotals service.challengeId)).sum
  recent : ((Keyed.rows (·.participationId) participationId snapshot.recent).map fun row =>
      { epoch := row.epoch, points := row.points, epochWeight := row.epochWeight,
        finalized := true : AdEpochScore }).Perm
    ((epochs.map (·.summary)).rtake teamDetailEpochLimit)

/-- Merging a snapshot with raw epochs gives the row of all epochs raw. -/
theorem teamRow_append {snapshot : RollupSnapshot} {team : StableServiceRow}
    {teamServices : List StableServiceRow} {finalizedEpochs rawEpochs : List ScoredEpoch}
    (latestChecks : List LatestCheckStatusRow)
    (h : snapshot.Remembers team.participationId teamServices finalizedEpochs)
    (hsorted : ((finalizedEpochs ++ rawEpochs).map (·.summary)).Pairwise
      fun left right => left.epoch < right.epoch) :
    teamRow snapshot latestChecks team teamServices rawEpochs =
      teamRow .none latestChecks team teamServices (finalizedEpochs ++ rawEpochs) := by
  have hfilter : (finalizedEpochs.filter fun epoch => epoch.summary.finalized) =
      finalizedEpochs := List.filter_eq_self.mpr h.finalized
  have hservices : (teamServices.map fun service =>
      mergeServiceDetail service.challengeId
        (Keyed.get AdEpochServiceRollup.serviceKey
          (team.participationId, service.challengeId) snapshot.services)
        rawEpochs
        ((Keyed.get (fun row : LatestCheckStatusRow => (row.participationId, row.challengeId))
          (team.participationId, service.challengeId) latestChecks).map
            fun row => checkStatusLabel row.status)) =
      teamServices.map fun service =>
        mergeServiceDetail service.challengeId none (finalizedEpochs ++ rawEpochs)
          ((Keyed.get
            (fun row : LatestCheckStatusRow => (row.participationId, row.challengeId))
            (team.participationId, service.challengeId) latestChecks).map
              fun row => checkStatusLabel row.status) :=
    List.map_congr_left fun service hservice =>
      mergeServiceDetail_append _ _ _ _ (h.services service hservice) h.finalized
  have hdetail : detailEpochs
      (Keyed.rows (·.participationId) team.participationId snapshot.recent) rawEpochs =
      detailEpochs [] (finalizedEpochs ++ rawEpochs) := by
    rw [List.map_append] at hsorted
    rw [detailEpochs_eq _ _ h.recent, detailEpochs_eq [] _ (List.Perm.refl []),
      rtake_rtake_append, List.nil_append, List.map_append]
    · simpa using hsorted
    · refine hsorted.sublist (List.Sublist.append_right ?_ _)
      exact List.drop_sublist _ _
  simp only [teamRow, h.team, hservices, hdetail, sum_teamTotals, rateComponents_append,
    List.filter_append, hfilter, List.map_append, List.sum_append, RollupSnapshot.none,
    Keyed.get_nil, Keyed.rows_nil, Option.map_none, Option.getD_none, Prod.fst_add,
    Prod.snd_add]
  simp only [PreviousTeamTotals.zero_def, zero_add]

end AttackDefense

end Rsctf
