import Rsctf.AttackDefense.Normalization
import Rsctf.Data.Related

/-!
# The order of the board

Two boards over the same services can be compared score by score.  Every step from the
evidence of an epoch to the total of a team keeps the comparison; the normalization
keeps it as far as the field bests allow.
-/

open Guarded
open List (Forall₂)

namespace Rsctf

namespace AttackDefense

open Scoring

/-- The formula is monotone in offense and defense. -/
theorem epochServiceScore_localPoints_mono {sqrt : ℚ → ℚ} (hsqrt : MonotoneOn sqrt (Set.Icc 0 1))
    {evidence evidence' : EpochServiceEvidence}
    (hoffense : (epochServiceScore sqrt evidence).offenseRate ≤
      (epochServiceScore sqrt evidence').offenseRate)
    (hdefense : (epochServiceScore sqrt evidence).defenseRate ≤
      (epochServiceScore sqrt evidence').defenseRate)
    (hsla : (epochServiceScore sqrt evidence').slaRate =
      (epochServiceScore sqrt evidence).slaRate) :
    (epochServiceScore sqrt evidence).localPoints ≤
      (epochServiceScore sqrt evidence').localPoints := by
  set offense := (epochServiceScore sqrt evidence).offenseRate with hoff
  set offense' := (epochServiceScore sqrt evidence').offenseRate with hoff'
  set defense := (epochServiceScore sqrt evidence).defenseRate with hdef
  set defense' := (epochServiceScore sqrt evidence').defenseRate with hdef'
  set sla := (epochServiceScore sqrt evidence).slaRate with hslaRate
  have hlocal : ∀ e : EpochServiceEvidence, (epochServiceScore sqrt e).localPoints =
      clamp 0 100 (100 * (epochServiceScore sqrt e).slaRate * clamp 0 1
        (offenseWeight * (epochServiceScore sqrt e).offenseRate +
          defenseWeight * (epochServiceScore sqrt e).defenseRate +
          balanceWeight * sqrt ((epochServiceScore sqrt e).offenseRate *
            (epochServiceScore sqrt e).defenseRate))) := fun _ => rfl
  have hoffenseNonneg : 0 ≤ offense := low_le_clamp _ _ _
  have hdefenseNonneg : 0 ≤ defense := low_le_clamp _ _ _
  have hoffenseLe : offense' ≤ 1 := clamp_le_high zero_le_one _
  have hdefenseLe : defense' ≤ 1 := clamp_le_high zero_le_one _
  have hslaNonneg : 0 ≤ sla := low_le_clamp _ _ _
  have hproduct : offense * defense ≤ offense' * defense' :=
    mul_le_mul hoffense hdefense hdefenseNonneg (hoffenseNonneg.trans hoffense)
  have hproductNonneg : 0 ≤ offense * defense := mul_nonneg hoffenseNonneg hdefenseNonneg
  have hproductLe : offense' * defense' ≤ 1 :=
    mul_le_one₀ hoffenseLe (hdefenseNonneg.trans hdefense) hdefenseLe
  have hbalance : sqrt (offense * defense) ≤ sqrt (offense' * defense') :=
    hsqrt ⟨hproductNonneg, hproduct.trans hproductLe⟩
      ⟨hproductNonneg.trans hproduct, hproductLe⟩ hproduct
  rw [hlocal, hlocal, hsla, ← hoff, ← hoff', ← hdef, ← hdef', ← hslaRate]
  refine clamp_mono 0 100 (mul_le_mul_of_nonneg_left (clamp_mono 0 1 ?_) (by positivity))
  unfold offenseWeight defenseWeight balanceWeight
  linarith

/-- A row is below another one of the same service and epoch when it is worth no more. -/
structure EvidenceAggregateRow.Below (sqrt : ℚ → ℚ) (row row' : EvidenceAggregateRow) :
    Prop where
  challengeId : row'.challengeId = row.challengeId
  serviceWeight : row'.serviceWeight = row.serviceWeight
  localPoints : (row.score sqrt).localPoints ≤ (row'.score sqrt).localPoints
  valid : row.Valid
  valid' : row'.Valid

structure ScoredService.Below (service service' : ScoredService) : Prop where
  challengeId : service'.challengeId = service.challengeId
  serviceWeight : service'.serviceWeight = service.serviceWeight
  localPoints : service.localPoints ≤ service'.localPoints
  serviceWeight_pos : 0 < service.serviceWeight

structure ScoredEpoch.Below (epoch epoch' : ScoredEpoch) : Prop where
  epochWeight : epoch'.summary.epochWeight = epoch.summary.epochWeight
  finalized : epoch'.summary.finalized = epoch.summary.finalized
  points : epoch.summary.points ≤ epoch'.summary.points
  services : Forall₂ ScoredService.Below epoch.services epoch'.services
  epochWeight_nonneg : 0 ≤ epoch.summary.epochWeight

structure AdServiceScore.Below (service service' : AdServiceScore) : Prop where
  challengeId : service'.challengeId = service.challengeId
  points : ∀ horizon, service.points horizon ≤ service'.points horizon

/-- A team is below another row of the same team when no score of it is higher. -/
structure AdTeamScore.Below (row row' : AdTeamScore) : Prop where
  participationId : row'.participationId = row.participationId
  total : ∀ horizon, row.total horizon ≤ row'.total horizon
  services : Forall₂ AdServiceScore.Below row.services row'.services

section Epochs

variable {sqrt : ℚ → ℚ}

theorem scoredServices_below {evidence evidence' : List EvidenceAggregateRow}
    (h : Forall₂ (EvidenceAggregateRow.Below sqrt) evidence evidence') :
    Forall₂ ScoredService.Below
      (evidence.map fun row => scoredService row (row.score sqrt))
      (evidence'.map fun row => scoredService row (row.score sqrt)) := by
  refine List.forall₂_map_left_iff.mpr (List.forall₂_map_right_iff.mpr (h.imp ?_))
  exact fun row row' hrow =>
    ⟨hrow.challengeId, hrow.serviceWeight, hrow.localPoints, hrow.valid.serviceWeight_pos⟩

theorem scoreServices_of_valid {evidence : List EvidenceAggregateRow}
    (h : ∀ row ∈ evidence, row.Valid) : scoreServices sqrt evidence =
      .ok (evidence.map fun row => scoredService row (row.score sqrt)) := by
  refine Fallible.mapM_eq_ok_map fun row hrow => ?_
  rw [scoreRow_of_valid sqrt (h row hrow)]
  rfl

theorem scoredPoints_le {services services' : List ScoredService}
    (h : Forall₂ ScoredService.Below services services') :
    scoredPoints services ≤ scoredPoints services' := by
  have hweight : services'.map (·.serviceWeight) = services.map (·.serviceWeight) :=
    Related.map_eq (fun _ _ hservice => hservice.serviceWeight) h
  have hempty : services = [] ↔ services' = [] := by
    rw [← List.length_eq_zero_iff, h.length_eq, List.length_eq_zero_iff]
  have hpos : ∀ service ∈ services, 0 < service.serviceWeight := by
    intro service hservice
    obtain ⟨_, _, hbelow⟩ := Related.exists_right h hservice
    exact hbelow.serviceWeight_pos
  unfold scoredPoints
  rw [hweight]
  by_cases hnil : services = []
  · rw [if_pos hnil, if_pos (hempty.mp hnil)]
  · rw [if_neg hnil, if_neg fun h' => hnil (hempty.mpr h')]
    refine div_le_div_of_nonneg_right (Related.sum_le ?_ h) (List.sum_nonneg ?_)
    · intro service service' hservice
      rw [hservice.serviceWeight]
      exact mul_le_mul_of_nonneg_right hservice.localPoints hservice.serviceWeight_pos.le
    · intro weight hmem
      obtain ⟨service, hservice, rfl⟩ := List.mem_map.mp hmem
      exact (hpos service hservice).le

theorem scoredEpoch_below (clock : BoardClock) (hticks : 0 < clock.epochTicks)
    {epochMeta : EpochMetaRow} (hcount : 0 ≤ epochMeta.roundCount)
    {services services' : List ScoredService} (h : Forall₂ ScoredService.Below services services') :
    (scoredEpoch clock epochMeta services).Below (scoredEpoch clock epochMeta services') where
  epochWeight := rfl
  finalized := rfl
  points := scoredPoints_le h
  services := h
  epochWeight_nonneg := by
    refine div_nonneg ?_ ?_
    · exact_mod_cast le_min hcount hticks.le
    · exact_mod_cast hticks.le

end Epochs

section Rows

/-- The points of one accumulator are below those of another with the same weights. -/
structure ServiceAccumulators.Below (acc acc' : ServiceAccumulators) : Prop where
  projectedWeight : acc'.projectedWeight = acc.projectedWeight
  settledWeight : acc'.settledWeight = acc.settledWeight
  projectedPoints : acc.projectedPointsNumerator ≤ acc'.projectedPointsNumerator
  settledPoints : acc.settledPointsNumerator ≤ acc'.settledPointsNumerator

theorem mergeServiceEpoch_below (challengeId : ℤ) {acc acc' : ServiceAccumulators}
    (hacc : acc.Below acc') {epoch epoch' : ScoredEpoch} (hepoch : epoch.Below epoch') :
    (mergeServiceEpoch challengeId acc epoch).Below
      (mergeServiceEpoch challengeId acc' epoch') := by
  have hfind : Option.Rel ScoredService.Below
      (epoch.services.find? fun service => service.challengeId = challengeId)
      (epoch'.services.find? fun service => service.challengeId = challengeId) :=
    Related.find? (fun service service' hservice => by rw [hservice.challengeId]) hepoch.services
  have hweights : epoch'.services.map (·.serviceWeight) = epoch.services.map (·.serviceWeight) :=
    Related.map_eq (fun _ _ hservice => hservice.serviceWeight) hepoch.services
  unfold mergeServiceEpoch
  generalize (epoch.services.find? fun service => service.challengeId = challengeId) = found
    at hfind ⊢
  generalize (epoch'.services.find? fun service => service.challengeId = challengeId) = found'
    at hfind ⊢
  cases hfind with
  | none => exact hacc
  | @some service service' hservice =>
      dsimp only
      rw [hweights]
      split
      · exact hacc
      · next hpos =>
          have hcontribution : service.localPoints * service.serviceWeight /
                (epoch.services.map (·.serviceWeight)).sum * epoch.summary.epochWeight ≤
              service'.localPoints * service'.serviceWeight /
                (epoch.services.map (·.serviceWeight)).sum * epoch'.summary.epochWeight := by
            rw [hservice.serviceWeight, hepoch.epochWeight]
            refine mul_le_mul_of_nonneg_right (div_le_div_of_nonneg_right ?_
              (not_le.mp hpos).le) hepoch.epochWeight_nonneg
            exact mul_le_mul_of_nonneg_right hservice.localPoints hservice.serviceWeight_pos.le
          refine ⟨?_, ?_, add_le_add hacc.projectedPoints hcontribution, ?_⟩
          · exact congrArg₂ _ hacc.projectedWeight hepoch.epochWeight
          · dsimp only
            rw [hepoch.finalized, hepoch.epochWeight, hacc.settledWeight]
          · dsimp only
            rw [hepoch.finalized]
            split
            · exact add_le_add hacc.settledPoints hcontribution
            · exact hacc.settledPoints

theorem foldl_mergeServiceEpoch_below (challengeId : ℤ) {epochs epochs' : List ScoredEpoch}
    (h : Forall₂ ScoredEpoch.Below epochs epochs') {acc acc' : ServiceAccumulators}
    (hacc : acc.Below acc') :
    (epochs.foldl (mergeServiceEpoch challengeId) acc).Below
      (epochs'.foldl (mergeServiceEpoch challengeId) acc') := by
  induction h generalizing acc acc' with
  | nil => exact hacc
  | cons hepoch _ ih => exact ih (mergeServiceEpoch_below challengeId hacc hepoch)

theorem mergeServiceDetail_below (challengeId : ℤ) (previous : Option AdEpochServiceRollup)
    (lastCheckStatus : Option String) {epochs epochs' : List ScoredEpoch}
    (h : Forall₂ ScoredEpoch.Below epochs epochs') :
    (mergeServiceDetail challengeId previous epochs lastCheckStatus).Below
      (mergeServiceDetail challengeId previous epochs' lastCheckStatus) := by
  have hstart : (ServiceAccumulators.ofTotals ((previous.map (·.totals)).getD 0)).Below
      (.ofTotals ((previous.map (·.totals)).getD 0)) := ⟨rfl, rfl, le_rfl, le_rfl⟩
  have hacc := foldl_mergeServiceEpoch_below challengeId h hstart
  refine ⟨rfl, fun horizon => ?_⟩
  cases horizon with
  | settled =>
      simp only [mergeServiceDetail, AdServiceScore.points, hacc.settledWeight]
      exact ratio_le_ratio hacc.settledPoints _
  | projected =>
      simp only [mergeServiceDetail, AdServiceScore.points, hacc.projectedWeight]
      exact ratio_le_ratio hacc.projectedPoints _

theorem epochPoints_le {epochs epochs' : List ScoredEpoch}
    (h : Forall₂ ScoredEpoch.Below epochs epochs') :
    (epochs.map fun epoch => epoch.summary.points * epoch.summary.epochWeight).sum ≤
      (epochs'.map fun epoch => epoch.summary.points * epoch.summary.epochWeight).sum := by
  refine Related.sum_le (fun epoch epoch' hepoch => ?_) h
  rw [hepoch.epochWeight]
  exact mul_le_mul_of_nonneg_right hepoch.points hepoch.epochWeight_nonneg

theorem epochWeights_eq {epochs epochs' : List ScoredEpoch}
    (h : Forall₂ ScoredEpoch.Below epochs epochs') :
    epochs'.map (·.summary.epochWeight) = epochs.map (·.summary.epochWeight) :=
  Related.map_eq (fun _ _ hepoch => hepoch.epochWeight) h

theorem teamRow_below (snapshot : RollupSnapshot) (latestChecks : List LatestCheckStatusRow)
    (team : StableServiceRow) (teamServices : List StableServiceRow)
    {epochs epochs' : List ScoredEpoch} (h : Forall₂ ScoredEpoch.Below epochs epochs') :
    (teamRow snapshot latestChecks team teamServices epochs).Below
      (teamRow snapshot latestChecks team teamServices epochs') := by
  have hsettled : Forall₂ ScoredEpoch.Below (epochs.filter (·.summary.finalized))
      (epochs'.filter (·.summary.finalized)) :=
    List.rel_filter (fun _ _ hepoch => Bool.coe_iff_coe.mpr hepoch.finalized.symm) h
  refine ⟨rfl, fun horizon => ?_, ?_⟩
  · cases horizon with
    | settled =>
        simp only [teamRow, AdTeamScore.total, epochWeights_eq hsettled]
        exact ratio_le_ratio (add_le_add_right (epochPoints_le hsettled) _) _
    | projected =>
        simp only [teamRow, AdTeamScore.total, epochWeights_eq h]
        exact ratio_le_ratio (add_le_add_right (epochPoints_le h) _) _
  · refine List.forall₂_map_left_iff.mpr (List.forall₂_map_right_iff.mpr ?_)
    exact List.forall₂_same.mpr fun service _ => mergeServiceDetail_below _ _ _ h

end Rows

section Official

variable (teams : List AdTeamScore) (challenges : List AdScoreboardChallenge) (horizon : Horizon)

/-- The event average of a service, as the normalization recovers it. -/
def recoveredAverage (totalWeight : ℚ) (challenge : AdScoreboardChallenge)
    (service : AdServiceScore) : ℚ :=
  clamp 0 100 (service.points horizon * totalWeight / challenge.serviceWeight)

/-- What a service contributes to the total of its team once the board is normalized. -/
def officialPoints (totalWeight : ℚ) (service : AdServiceScore) : ℚ :=
  match challenges.find? (·.challengeId = service.challengeId) with
  | none => 0
  | some challenge =>
    normalizeToFieldBest (recoveredAverage horizon totalWeight challenge service)
        ((normalizeChallenge totalWeight teams challenge).fieldBest horizon)
      * challenge.serviceWeight / totalWeight

theorem find?_normalizeChallenge (totalWeight : ℚ) (challengeId : ℤ) :
    (challenges.map (normalizeChallenge totalWeight teams)).find?
        (·.challengeId = challengeId) =
      (challenges.find? (·.challengeId = challengeId)).map (normalizeChallenge totalWeight teams) :=
  List.find?_map

theorem normalizeTeam_total_eq (totalWeight : ℚ) (team : AdTeamScore) :
    (normalizeTeam totalWeight (challenges.map (normalizeChallenge totalWeight teams)) team).total
        horizon =
      clamp 0 100
        (team.services.map (officialPoints teams challenges horizon totalWeight)).sum := by
  rw [normalizeTeam_total, Grouping.sum_filter, normalizeTeam, List.map_map]
  refine congrArg (clamp 0 100) (congrArg List.sum (List.map_congr_left fun service _ => ?_))
  simp only [Function.comp_apply, ← List.isSome_find?, find?_normalizeChallenge]
  unfold officialPoints
  cases hfind : challenges.find? (·.challengeId = service.challengeId) with
  | none => simp [hfind]
  | some challenge =>
      have hid : (normalizeService totalWeight (normalizeChallenge totalWeight teams challenge)
          service).challengeId = service.challengeId := rfl
      simp only [Option.map_some, hid, hfind, Option.isSome_some, if_true]
      rw [normalizeService_points]
      rfl

variable {teams challenges horizon}

theorem recoveredAverage_mem (totalWeight : ℚ) (challenge : AdScoreboardChallenge)
    (service : AdServiceScore) : 0 ≤ recoveredAverage horizon totalWeight challenge service ∧
      recoveredAverage horizon totalWeight challenge service ≤ 100 :=
  ⟨low_le_clamp _ _ _, clamp_le_high (by norm_num) _⟩

theorem recoveredAverage_le {totalWeight : ℚ} (htotal : 0 ≤ totalWeight)
    {challenge : AdScoreboardChallenge} (hweight : 0 ≤ challenge.serviceWeight)
    {service service' : AdServiceScore} (h : service.Below service') :
    recoveredAverage horizon totalWeight challenge service ≤
      recoveredAverage horizon totalWeight challenge service' :=
  clamp_mono 0 100 (div_le_div_of_nonneg_right
    (mul_le_mul_of_nonneg_right (h.points horizon) htotal) hweight)

theorem recoveredAverage_le_fieldBest {totalWeight : ℚ} {challenge : AdScoreboardChallenge}
    {team : AdTeamScore} (hteam : team ∈ teams) {service : AdServiceScore}
    (hservice : team.services.find? (·.challengeId = challenge.challengeId) = some service) :
    recoveredAverage horizon totalWeight challenge service ≤
      (normalizeChallenge totalWeight teams challenge).fieldBest horizon := by
  rw [normalizeChallenge_fieldBest]
  refine clamp_mono 0 100 (le_foldl_max (List.mem_filterMap.mpr ⟨team, hteam, ?_⟩))
  rw [hservice]
  rfl

theorem fieldBest_le {totalWeight : ℚ} {challenge : AdScoreboardChallenge} {bound : ℚ}
    (hbound : 0 ≤ bound)
    (h : ∀ team ∈ teams, ∀ service,
      team.services.find? (·.challengeId = challenge.challengeId) = some service →
        recoveredAverage horizon totalWeight challenge service ≤ bound) :
    (normalizeChallenge totalWeight teams challenge).fieldBest horizon ≤ bound := by
  have hzero : clamp 0 100 (0 : ℚ) = 0 := clamp_eq_self le_rfl (by norm_num)
  rw [normalizeChallenge_fieldBest, fieldBestOf, clamp_foldl_max, hzero]
  refine foldl_max_le hbound fun average haverage => ?_
  obtain ⟨points, hpoints, rfl⟩ := List.mem_map.mp haverage
  obtain ⟨team, hteam, hfind⟩ := List.mem_filterMap.mp hpoints
  obtain ⟨service, hservice, rfl⟩ := Option.map_eq_some_iff.mp hfind
  exact h team hteam service hservice

theorem fieldBest_mem (totalWeight : ℚ) (challenge : AdScoreboardChallenge) :
    0 ≤ (normalizeChallenge totalWeight teams challenge).fieldBest horizon ∧
      (normalizeChallenge totalWeight teams challenge).fieldBest horizon ≤ 100 := by
  rw [normalizeChallenge_fieldBest]
  exact ⟨low_le_clamp _ _ _, clamp_le_high (by norm_num) _⟩

end Official

section Shifted

/-- The row of a team after the scores of one team rose and those of the others fell. -/
structure Shifted (riser : ℤ) (row row' : AdTeamScore) : Prop where
  rises : row.participationId = riser → row.Below row'
  falls : row.participationId ≠ riser → row'.Below row

variable {riser : ℤ} {rows rows' : List AdTeamScore}

theorem Shifted.participationId {row row' : AdTeamScore} (h : Shifted riser row row') :
    row'.participationId = row.participationId := by
  by_cases heq : row.participationId = riser
  · exact (h.rises heq).participationId
  · exact (h.falls heq).participationId.symm

/-- Only the riser can lift the best of a field. -/
theorem fieldBest_le_max (hrows : Forall₂ (Shifted riser) rows rows')
    (hnd : (rows'.map (·.participationId)).Nodup) {totalWeight : ℚ} (htotal : 0 ≤ totalWeight)
    {challenge : AdScoreboardChallenge} (hweight : 0 ≤ challenge.serviceWeight)
    {row' : AdTeamScore} (hrow' : row' ∈ rows') (hriser : row'.participationId = riser)
    {service' : AdServiceScore}
    (hservice' : row'.services.find? (·.challengeId = challenge.challengeId) = some service')
    (horizon : Horizon) :
    (normalizeChallenge totalWeight rows' challenge).fieldBest horizon ≤
      max ((normalizeChallenge totalWeight rows challenge).fieldBest horizon)
        (recoveredAverage horizon totalWeight challenge service') := by
  refine fieldBest_le ((fieldBest_mem totalWeight challenge).1.trans (le_max_left _ _)) ?_
  intro other' hother' found' hfound'
  obtain ⟨other, hother, hshift⟩ := Related.exists_left hrows hother'
  by_cases heq : other.participationId = riser
  · obtain rfl : other' = row' := List.inj_on_of_nodup_map hnd hother' hrow'
      ((hshift.participationId.trans heq).trans hriser.symm)
    obtain rfl : found' = service' := Option.some.inj (hfound'.symm.trans hservice')
    exact le_max_right _ _
  · have hfind : Option.Rel AdServiceScore.Below
        (other'.services.find? (·.challengeId = challenge.challengeId))
        (other.services.find? (·.challengeId = challenge.challengeId)) :=
      Related.find? (fun _ _ hservice => by rw [hservice.challengeId]) (hshift.falls heq).services
    rw [hfound'] at hfind
    generalize hfound : other.services.find? (·.challengeId = challenge.challengeId) = found
      at hfind
    cases hfind with
    | some hbelow =>
        exact ((recoveredAverage_le htotal hweight hbelow).trans
          (recoveredAverage_le_fieldBest hother hfound)).trans (le_max_left _ _)

variable {challenges : List AdScoreboardChallenge}

theorem officialPoints_mono {totalWeight : ℚ} (htotal : 0 ≤ totalWeight)
    (hweights : ∀ challenge ∈ challenges, 0 < challenge.serviceWeight) {horizon : Horizon}
    {service service' : AdServiceScore} (hid : service'.challengeId = service.challengeId)
    (h : ∀ challenge ∈ challenges, challenge.challengeId = service.challengeId →
      normalizeToFieldBest (recoveredAverage horizon totalWeight challenge service)
          ((normalizeChallenge totalWeight rows challenge).fieldBest horizon) ≤
        normalizeToFieldBest (recoveredAverage horizon totalWeight challenge service')
          ((normalizeChallenge totalWeight rows' challenge).fieldBest horizon)) :
    officialPoints rows challenges horizon totalWeight service ≤
      officialPoints rows' challenges horizon totalWeight service' := by
  unfold officialPoints
  rw [hid]
  cases hfind : challenges.find? (·.challengeId = service.challengeId) with
  | none => exact le_rfl
  | some challenge =>
      have hmem := List.mem_of_find?_eq_some hfind
      refine div_le_div_of_nonneg_right (mul_le_mul_of_nonneg_right ?_ (hweights _ hmem).le) htotal
      exact h challenge hmem (by simpa using List.find?_some hfind)

theorem applyFieldBestNormalization_of_pos (h : 0 < totalChallengeWeight challenges) :
    applyFieldBestNormalization rows challenges =
      (rows.map (normalizeTeam (totalChallengeWeight challenges)
          (challenges.map (normalizeChallenge (totalChallengeWeight challenges) rows))),
        challenges.map (normalizeChallenge (totalChallengeWeight challenges) rows)) :=
  if_neg (not_le.mpr h)

theorem applyFieldBestNormalization_of_nonpos (h : totalChallengeWeight challenges ≤ 0) :
    applyFieldBestNormalization rows challenges = (rows, challenges) :=
  if_pos h

/-- Two normalized boards, compared row by row through what their services contribute. -/
theorem forall₂_official {P R : AdTeamScore → AdTeamScore → Prop} (hrows : Forall₂ R rows rows')
    {horizon : Horizon}
    (hraw : ∀ row row', R row row' → P row row' → row.total horizon ≤ row'.total horizon)
    (hP : ∀ row row' totalWeight challenges challenges',
      P (normalizeTeam totalWeight challenges row) (normalizeTeam totalWeight challenges' row') →
        P row row')
    (hservices : 0 < totalChallengeWeight challenges → ∀ row ∈ rows, ∀ row' ∈ rows',
      R row row' → P row row' → Forall₂ (fun service service' =>
        officialPoints rows challenges horizon (totalChallengeWeight challenges) service ≤
          officialPoints rows' challenges horizon (totalChallengeWeight challenges) service')
        row.services row'.services) :
    Forall₂ (fun row row' => P row row' → row.total horizon ≤ row'.total horizon)
      (applyFieldBestNormalization rows challenges).1
      (applyFieldBestNormalization rows' challenges).1 := by
  rcases le_or_gt (totalChallengeWeight challenges) 0 with hnonpos | hpos
  · rw [applyFieldBestNormalization_of_nonpos hnonpos,
      applyFieldBestNormalization_of_nonpos hnonpos]
    exact hrows.imp hraw
  · rw [applyFieldBestNormalization_of_pos hpos, applyFieldBestNormalization_of_pos hpos]
    refine List.forall₂_map_left_iff.mpr (List.forall₂_map_right_iff.mpr
      (Related.imp_of_mem ?_ hrows))
    intro row hrow row' hrow' hR hprow
    rw [normalizeTeam_total_eq, normalizeTeam_total_eq]
    exact clamp_mono 0 100 (Related.sum_le (fun _ _ hle => hle)
      (hservices hpos row hrow row' hrow' hR (hP _ _ _ _ _ hprow)))

/-- The official total of the riser does not fall. -/
theorem shifted_riser (hrows : Forall₂ (Shifted riser) rows rows')
    (hnd : (rows'.map (·.participationId)).Nodup)
    (hservices : ∀ row ∈ rows, (row.services.map (·.challengeId)).Nodup)
    (hweights : ∀ challenge ∈ challenges, 0 < challenge.serviceWeight) (horizon : Horizon) :
    Forall₂ (fun row row' => row.participationId = riser → row.total horizon ≤ row'.total horizon)
      (applyFieldBestNormalization rows challenges).1
      (applyFieldBestNormalization rows' challenges).1 := by
  refine forall₂_official (P := fun row _ => row.participationId = riser) hrows
    (fun row row' hrow hriser => (hrow.rises hriser).total horizon)
    (fun _ _ _ _ _ hriser => hriser) ?_
  intro hpos row hrow row' hrow' hshift hriser
  have hbelow := hshift.rises hriser
  have hids : row'.services.map (·.challengeId) = row.services.map (·.challengeId) :=
    Related.map_eq (fun _ _ hservice => hservice.challengeId) hbelow.services
  have hnd' : (row'.services.map (·.challengeId)).Nodup := hids ▸ hservices row hrow
  refine Related.imp_of_mem (fun service hservice service' hservice' h => ?_) hbelow.services
  refine officialPoints_mono hpos.le hweights h.challengeId fun challenge hchallenge hid => ?_
  have hweight := hweights challenge hchallenge
  have hfind' : row'.services.find? (·.challengeId = challenge.challengeId) = some service' := by
    rw [hid, ← h.challengeId]
    exact Keyed.find?_key_eq_some hnd' hservice'
  exact normalizeToFieldBest_mono (recoveredAverage_mem _ _ _).1
    (recoveredAverage_le hpos.le hweight.le h) (recoveredAverage_le_fieldBest hrow' hfind')
    (fieldBest_mem _ _).2 (fieldBest_le_max hrows hnd hpos.le hweight.le hrow'
      (hshift.participationId.trans hriser) hfind' horizon)

/-- The official totals of the others do not rise while no field best falls. -/
theorem shifted_others (hrows : Forall₂ (Shifted riser) rows rows')
    (hservices : ∀ row ∈ rows, (row.services.map (·.challengeId)).Nodup)
    (hweights : ∀ challenge ∈ challenges, 0 < challenge.serviceWeight) (horizon : Horizon)
    (hbest : Forall₂ (fun challenge challenge' =>
        challenge.fieldBest horizon ≤ challenge'.fieldBest horizon)
      (applyFieldBestNormalization rows challenges).2
      (applyFieldBestNormalization rows' challenges).2) :
    Forall₂ (fun row row' => row.participationId ≠ riser → row'.total horizon ≤ row.total horizon)
      (applyFieldBestNormalization rows challenges).1
      (applyFieldBestNormalization rows' challenges).1 := by
  refine List.Forall₂.flip (forall₂_official (P := fun _ row => row.participationId ≠ riser)
    hrows.flip (fun row' row hrow hother => (hrow.falls hother).total horizon)
    (fun _ _ _ _ _ hother => hother) ?_)
  intro hpos row' hrow' row hrow hshift hother
  rw [applyFieldBestNormalization_of_pos hpos, applyFieldBestNormalization_of_pos hpos,
    List.forall₂_map_left_iff, List.forall₂_map_right_iff, List.forall₂_same] at hbest
  have hbelow := hshift.falls hother
  refine Related.imp_of_mem (fun service' hservice' service hservice h => ?_) hbelow.services
  refine officialPoints_mono hpos.le hweights h.challengeId fun challenge hchallenge hid => ?_
  have hfind : row.services.find? (·.challengeId = challenge.challengeId) = some service := by
    rw [hid, ← h.challengeId]
    exact Keyed.find?_key_eq_some (hservices row hrow) hservice
  exact normalizeToFieldBest_le (recoveredAverage_mem _ _ _).1
    (recoveredAverage_le hpos.le (hweights challenge hchallenge).le h)
    (recoveredAverage_le_fieldBest hrow hfind) (hbest challenge hchallenge)

end Shifted

end AttackDefense

end Rsctf
