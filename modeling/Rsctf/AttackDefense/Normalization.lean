import Mathlib.Algebra.BigOperators.Ring.List
import Mathlib.Tactic.Ring
import Rsctf.AttackDefense.Board
import Rsctf.AttackDefense.Formula
import Rsctf.Data.Grouping

/-!
# Field-best normalization of the board

Before the board is ranked, every service score is turned back into an event
average, compared with the best one of the field, and scaled.  The stored
contributions were divided by the service weights which were frozen at the official
start; they are multiplied by the weights of the challenges which are enabled when
the board is read.
-/

open Guarded

namespace Rsctf

namespace AttackDefense

open Scoring

/-- The best score which any team reached on a challenge, at least zero. -/
def fieldBestOf (teams : List AdTeamScore) (challengeId : ℤ)
    (localPoints : AdServiceScore → ℚ) : ℚ :=
  (teams.filterMap fun team =>
    (team.services.find? (·.challengeId = challengeId)).map localPoints).foldl max 0

def normalizeChallenge (totalWeight : ℚ) (teams : List AdTeamScore)
    (challenge : AdScoreboardChallenge) : AdScoreboardChallenge :=
  let weight := challenge.serviceWeight
  let settledFieldBest := clamp 0 100 (fieldBestOf teams challenge.challengeId
    fun service => service.settledPoints * totalWeight / weight)
  let projectedFieldBest := clamp 0 100 (fieldBestOf teams challenge.challengeId
    fun service => service.projectedPoints * totalWeight / weight)
  { challenge with
    settledFieldBest
    projectedFieldBest
    settledMultiplier := fieldBestMultiplier settledFieldBest
    projectedMultiplier := fieldBestMultiplier projectedFieldBest }

def normalizeService (totalWeight : ℚ) (challenge : AdScoreboardChallenge)
    (service : AdServiceScore) : AdServiceScore :=
  let weight := challenge.serviceWeight
  let settledLocal := clamp 0 100 (service.settledPoints * totalWeight / weight)
  let projectedLocal := clamp 0 100 (service.projectedPoints * totalWeight / weight)
  { service with
    settledLocalPoints := settledLocal
    projectedLocalPoints := projectedLocal
    settledPoints :=
      normalizeToFieldBest settledLocal challenge.settledFieldBest * weight / totalWeight
    projectedPoints :=
      normalizeToFieldBest projectedLocal challenge.projectedFieldBest * weight / totalWeight }

/-- Services of challenges which are not listed are left as they are and do not enter
the totals. -/
def normalizeTeam (totalWeight : ℚ) (challenges : List AdScoreboardChallenge)
    (team : AdTeamScore) : AdTeamScore :=
  let services := team.services.map fun service =>
    match challenges.find? (·.challengeId = service.challengeId) with
    | none => service
    | some challenge => normalizeService totalWeight challenge service
  let listed := services.filter fun service =>
    challenges.any (·.challengeId = service.challengeId)
  { team with
    services
    settledTotal := clamp 0 100 (listed.map (·.settledPoints)).sum
    projectedTotal := clamp 0 100 (listed.map (·.projectedPoints)).sum }

def totalChallengeWeight (challenges : List AdScoreboardChallenge) : ℚ :=
  (challenges.map (·.serviceWeight)).sum

/-- Normalize the rows of the board and the challenges they are normalized against. -/
def applyFieldBestNormalization (teams : List AdTeamScore)
    (challenges : List AdScoreboardChallenge) :
    List AdTeamScore × List AdScoreboardChallenge :=
  let totalWeight := totalChallengeWeight challenges
  if totalWeight ≤ 0 then (teams, challenges)
  else
    let normalized := challenges.map (normalizeChallenge totalWeight teams)
    (teams.map (normalizeTeam totalWeight normalized), normalized)

/-- Every score of the board is kept for the settled epochs and for all epochs. -/
inductive Horizon
  | settled
  | projected
deriving DecidableEq, Repr

def AdServiceScore.points (service : AdServiceScore) : Horizon → ℚ
  | .settled => service.settledPoints
  | .projected => service.projectedPoints

def AdServiceScore.localPoints (service : AdServiceScore) : Horizon → ℚ
  | .settled => service.settledLocalPoints
  | .projected => service.projectedLocalPoints

def AdTeamScore.total (team : AdTeamScore) : Horizon → ℚ
  | .settled => team.settledTotal
  | .projected => team.projectedTotal

def AdScoreboardChallenge.fieldBest (challenge : AdScoreboardChallenge) : Horizon → ℚ
  | .settled => challenge.settledFieldBest
  | .projected => challenge.projectedFieldBest

def AdScoreboardChallenge.multiplier (challenge : AdScoreboardChallenge) : Horizon → ℚ
  | .settled => challenge.settledMultiplier
  | .projected => challenge.projectedMultiplier

section Spec

variable (totalWeight : ℚ) (horizon : Horizon)

theorem normalizeChallenge_fieldBest (teams : List AdTeamScore)
    (challenge : AdScoreboardChallenge) :
    (normalizeChallenge totalWeight teams challenge).fieldBest horizon =
      clamp 0 100 (fieldBestOf teams challenge.challengeId fun service =>
        service.points horizon * totalWeight / challenge.serviceWeight) := by
  cases horizon <;> rfl

theorem normalizeChallenge_multiplier (teams : List AdTeamScore)
    (challenge : AdScoreboardChallenge) :
    (normalizeChallenge totalWeight teams challenge).multiplier horizon =
      fieldBestMultiplier
        ((normalizeChallenge totalWeight teams challenge).fieldBest horizon) := by
  cases horizon <;> rfl

theorem normalizeService_localPoints (challenge : AdScoreboardChallenge)
    (service : AdServiceScore) :
    (normalizeService totalWeight challenge service).localPoints horizon =
      clamp 0 100 (service.points horizon * totalWeight / challenge.serviceWeight) := by
  cases horizon <;> rfl

theorem normalizeService_points (challenge : AdScoreboardChallenge)
    (service : AdServiceScore) :
    (normalizeService totalWeight challenge service).points horizon =
      normalizeToFieldBest
          (clamp 0 100 (service.points horizon * totalWeight / challenge.serviceWeight))
          (challenge.fieldBest horizon)
        * challenge.serviceWeight / totalWeight := by
  cases horizon <;> rfl

theorem normalizeTeam_total (challenges : List AdScoreboardChallenge) (team : AdTeamScore) :
    (normalizeTeam totalWeight challenges team).total horizon =
      clamp 0 100 (((normalizeTeam totalWeight challenges team).services.filter fun service =>
        challenges.any (·.challengeId = service.challengeId)).map (·.points horizon)).sum := by
  cases horizon <;> rfl

end Spec

/-- One frozen service of a team with its event averages. -/
structure FrozenService where
  service : AdServiceScore
  serviceWeight : ℚ
  average : Horizon → ℚ
  serviceWeight_mem : minServiceWeight ≤ serviceWeight ∧ serviceWeight ≤ maxServiceWeight
  average_mem : ∀ horizon, 0 ≤ average horizon ∧ average horizon ≤ 100

/-- A team of the frozen roster, with at most one service for every challenge. -/
structure FrozenTeam where
  row : AdTeamScore
  services : List FrozenService
  challengeId_nodup : (services.map (·.service.challengeId)).Nodup

def FrozenTeam.weight (team : FrozenTeam) : ℚ := (team.services.map (·.serviceWeight)).sum

/-- A service as the rollups and the raw epochs give it: its contribution to the
team is its average times its share of the frozen weights. -/
def FrozenService.stored (teamWeight : ℚ) (frozen : FrozenService) : AdServiceScore :=
  { frozen.service with
    settledPoints := frozen.average .settled * frozen.serviceWeight / teamWeight
    projectedPoints := frozen.average .projected * frozen.serviceWeight / teamWeight }

def FrozenTeam.stored (team : FrozenTeam) : AdTeamScore :=
  { team.row with services := team.services.map (FrozenService.stored team.weight) }

/-- The challenges with which the board is read: distinct, and with clamped weights. -/
structure EnabledChallenges where
  challenges : List AdScoreboardChallenge
  challengeId_nodup : (challenges.map (·.challengeId)).Nodup
  serviceWeight_mem : ∀ challenge ∈ challenges,
    minServiceWeight ≤ challenge.serviceWeight ∧ challenge.serviceWeight ≤ maxServiceWeight

/-- The best event average of the teams on a challenge, at least zero. -/
def bestAverage (teams : List FrozenTeam) (challengeId : ℤ) (horizon : Horizon) : ℚ :=
  (teams.filterMap fun team =>
    (team.services.find? (·.service.challengeId = challengeId)).map
      (·.average horizon)).foldl max 0

/-- A listed service was normalized as intended: its average is recovered, every team
is scaled by the multiplier of the challenge, and the best team reaches 100 points or
four times its average. -/
structure NormalizedService (teams : List FrozenTeam) (totalWeight : ℚ) (horizon : Horizon)
    (challenge : AdScoreboardChallenge) (frozen : FrozenService) (service : AdServiceScore) :
    Prop where
  localPoints_eq : service.localPoints horizon = frozen.average horizon
  scaled : service.points horizon =
    frozen.average horizon * challenge.multiplier horizon * challenge.serviceWeight / totalWeight
  best : frozen.average horizon = bestAverage teams challenge.challengeId horizon →
    service.points horizon = min 100 (4 * frozen.average horizon)
      * challenge.serviceWeight / totalWeight

/-- A row was normalized as intended: its listed services were, and its total is the
sum of their contributions, which needs no clamp. -/
structure NormalizedRow (teams : List FrozenTeam) (challenges : List AdScoreboardChallenge)
    (horizon : Horizon) (team : FrozenTeam) (row : AdTeamScore) : Prop where
  services : List.Forall₂ (fun frozen service =>
    service.challengeId = frozen.service.challengeId ∧
      ∀ challenge ∈ challenges, challenge.challengeId = service.challengeId →
        NormalizedService teams (totalChallengeWeight challenges) horizon challenge frozen service)
    team.services row.services
  total_eq : row.total horizon = ((row.services.filter fun service =>
    challenges.any (·.challengeId = service.challengeId)).map (·.points horizon)).sum
  total_mem : 0 ≤ row.total horizon ∧ row.total horizon ≤ 100

/-- The whole board was normalized as intended. -/
def Normalized (teams : List FrozenTeam)
    (board : List AdTeamScore × List AdScoreboardChallenge) : Prop :=
  ∀ horizon, List.Forall₂ (NormalizedRow teams board.2 horizon) teams board.1

/-- A service keeps its share of the weights between the official start and the reading
of the board, as far as its average depends on it. -/
def SharesAgree (totalWeight teamWeight : ℚ) (challenge : AdScoreboardChallenge)
    (frozen : FrozenService) (average : ℚ) : Prop :=
  average = 0 ∨ frozen.serviceWeight * totalWeight = challenge.serviceWeight * teamWeight ∨
    (average = 100 ∧
      challenge.serviceWeight * teamWeight ≤ frozen.serviceWeight * totalWeight)

/-- The enabled challenges fit the frozen roster: every listed service keeps its share,
and without any enabled challenge no team has points. -/
def EnabledChallenges.Fit (enabled : EnabledChallenges) (teams : List FrozenTeam) : Prop :=
  (enabled.challenges = [] → ∀ team ∈ teams, ∀ horizon, team.row.total horizon = 0) ∧
    ∀ team ∈ teams, ∀ frozen ∈ team.services, ∀ challenge ∈ enabled.challenges,
      challenge.challengeId = frozen.service.challengeId → ∀ horizon,
        SharesAgree (totalChallengeWeight enabled.challenges) team.weight challenge frozen
          (frozen.average horizon)

/-- The clamped recovery of an average finds it exactly when the shares agree. -/
theorem clamp_recovered_eq_iff {totalWeight teamWeight weight frozenWeight average : ℚ}
    (htotal : 0 < totalWeight) (hteam : 0 < teamWeight) (hweight : 0 < weight)
    (hfrozen : 0 < frozenWeight) (haverage : 0 ≤ average ∧ average ≤ 100) :
    clamp 0 100 (average * frozenWeight / teamWeight * totalWeight / weight) = average ↔
      average = 0 ∨ frozenWeight * totalWeight = weight * teamWeight ∨
        (average = 100 ∧ weight * teamWeight ≤ frozenWeight * totalWeight) := by
  set recovered := average * frozenWeight / teamWeight * totalWeight / weight with hrecovered
  have hshares : recovered * (weight * teamWeight) = average * (frozenWeight * totalWeight) := by
    rw [hrecovered]
    field_simp
  have hpos : 0 < weight * teamWeight := mul_pos hweight hteam
  have hnonneg : 0 ≤ recovered := by
    rw [hrecovered]
    have := haverage.1
    positivity
  rcases le_total recovered 100 with hle | hge
  · rw [clamp_eq_self hnonneg hle]
    constructor
    · intro heq
      rw [heq, mul_eq_mul_left_iff] at hshares
      rcases hshares with hshares | hzero
      · exact .inr (.inl hshares.symm)
      · exact .inl hzero
    · rintro (rfl | hequal | ⟨rfl, hle'⟩)
      · simpa [hpos.ne'] using hshares
      · rw [hequal] at hshares
        exact mul_right_cancel₀ hpos.ne' hshares
      · refine le_antisymm hle (le_of_mul_le_mul_right ?_ hpos)
        rw [hshares]
        linarith
  · have hclamp : clamp 0 100 recovered = 100 := by
      rw [clamp, min_eq_left hge]
      norm_num
    rw [hclamp]
    constructor
    · intro heq
      refine .inr (.inr ⟨heq.symm, ?_⟩)
      rw [← heq] at hshares
      nlinarith
    · rintro (rfl | hequal | ⟨rfl, -⟩)
      · have hzero : recovered = 0 := by simp [hrecovered]
        linarith
      · rw [hequal] at hshares
        linarith [mul_right_cancel₀ hpos.ne' hshares, haverage.2]
      · rfl

section Board

variable (teams : List FrozenTeam) (enabled : EnabledChallenges)

theorem EnabledChallenges.weight_pos {challenge : AdScoreboardChallenge}
    (h : challenge ∈ enabled.challenges) : 0 < challenge.serviceWeight := by
  have hmin := (enabled.serviceWeight_mem challenge h).1
  unfold minServiceWeight at hmin
  linarith

theorem EnabledChallenges.totalWeight_pos (h : enabled.challenges ≠ []) :
    0 < totalChallengeWeight enabled.challenges := by
  refine List.sum_pos _ ?_ (by simpa using h)
  intro weight hweight
  obtain ⟨challenge, hchallenge, rfl⟩ := List.mem_map.mp hweight
  exact enabled.weight_pos hchallenge

theorem totalChallengeWeight_nonneg : 0 ≤ totalChallengeWeight enabled.challenges := by
  rcases eq_or_ne enabled.challenges [] with hnil | hne
  · simp [totalChallengeWeight, hnil]
  · exact (enabled.totalWeight_pos hne).le

theorem FrozenService.weight_pos (frozen : FrozenService) : 0 < frozen.serviceWeight := by
  have hmin := frozen.serviceWeight_mem.1
  unfold minServiceWeight at hmin
  linarith

theorem FrozenTeam.weight_pos {team : FrozenTeam} {frozen : FrozenService}
    (h : frozen ∈ team.services) : 0 < team.weight := by
  refine List.sum_pos _ ?_ (List.ne_nil_of_mem (List.mem_map_of_mem h))
  intro weight hweight
  obtain ⟨frozen, -, rfl⟩ := List.mem_map.mp hweight
  exact frozen.weight_pos

theorem FrozenService.stored_points (teamWeight : ℚ) (frozen : FrozenService)
    (horizon : Horizon) : (frozen.stored teamWeight).points horizon =
      frozen.average horizon * frozen.serviceWeight / teamWeight := by
  cases horizon <;> rfl

theorem FrozenTeam.stored_total (team : FrozenTeam) (horizon : Horizon) :
    team.stored.total horizon = team.row.total horizon := by
  cases horizon <;> rfl

/-- The enabled challenges with their field bests and multipliers. -/
def normalizedChallenges : List AdScoreboardChallenge :=
  enabled.challenges.map (normalizeChallenge (totalChallengeWeight enabled.challenges)
    (teams.map FrozenTeam.stored))

/-- A frozen service as the normalized board shows it. -/
def normalizedService (teamWeight : ℚ) (frozen : FrozenService) : AdServiceScore :=
  match (normalizedChallenges teams enabled).find?
      (·.challengeId = frozen.service.challengeId) with
  | none => frozen.stored teamWeight
  | some challenge => normalizeService (totalChallengeWeight enabled.challenges) challenge
      (frozen.stored teamWeight)

theorem totalChallengeWeight_normalized :
    totalChallengeWeight (normalizedChallenges teams enabled) =
      totalChallengeWeight enabled.challenges := by
  simp [totalChallengeWeight, normalizedChallenges, normalizeChallenge, Function.comp_def]

theorem normalizedChallengeId_nodup :
    ((normalizedChallenges teams enabled).map (·.challengeId)).Nodup := by
  simpa [normalizedChallenges, normalizeChallenge, Function.comp_def]
    using enabled.challengeId_nodup

theorem normalizedService_challengeId (teamWeight : ℚ) (frozen : FrozenService) :
    (normalizedService teams enabled teamWeight frozen).challengeId =
      frozen.service.challengeId := by
  unfold normalizedService
  split <;> rfl

theorem normalizedService_of_mem {challenge : AdScoreboardChallenge}
    (h : challenge ∈ normalizedChallenges teams enabled) {frozen : FrozenService}
    (hid : challenge.challengeId = frozen.service.challengeId) (teamWeight : ℚ) :
    normalizedService teams enabled teamWeight frozen =
      normalizeService (totalChallengeWeight enabled.challenges) challenge
        (frozen.stored teamWeight) := by
  have hfind := Keyed.find?_key_eq_some (normalizedChallengeId_nodup teams enabled) h
  rw [hid] at hfind
  rw [normalizedService, hfind]

/-- The normalized row of a frozen team. -/
def normalizedRow (team : FrozenTeam) : AdTeamScore :=
  normalizeTeam (totalChallengeWeight enabled.challenges) (normalizedChallenges teams enabled)
    team.stored

theorem normalizedRow_services (team : FrozenTeam) :
    (normalizedRow teams enabled team).services =
      team.services.map (normalizedService teams enabled team.weight) := by
  simp only [normalizedRow, normalizeTeam, FrozenTeam.stored, List.map_map]
  rfl

theorem applyFieldBestNormalization_eq (h : enabled.challenges ≠ []) :
    applyFieldBestNormalization (teams.map FrozenTeam.stored) enabled.challenges =
      (teams.map (normalizedRow teams enabled), normalizedChallenges teams enabled) := by
  rw [applyFieldBestNormalization, if_neg (not_le.mpr (enabled.totalWeight_pos h))]
  simp only [List.map_map]
  rfl

theorem normalized_iff (h : enabled.challenges ≠ []) :
    Normalized teams
        (applyFieldBestNormalization (teams.map FrozenTeam.stored) enabled.challenges) ↔
      ∀ horizon, ∀ team ∈ teams, NormalizedRow teams (normalizedChallenges teams enabled)
        horizon team (normalizedRow teams enabled team) := by
  simp only [applyFieldBestNormalization_eq teams enabled h, Normalized,
    List.forall₂_map_right_iff, List.forall₂_same]

/-- A listed service recovers its average exactly when the shares agree. -/
theorem normalizedService_localPoints_iff {team : FrozenTeam} {frozen : FrozenService}
    (hfrozen : frozen ∈ team.services) {challenge : AdScoreboardChallenge}
    (hchallenge : challenge ∈ enabled.challenges)
    (hid : challenge.challengeId = frozen.service.challengeId) (horizon : Horizon) :
    (normalizedService teams enabled team.weight frozen).localPoints horizon =
        frozen.average horizon ↔
      SharesAgree (totalChallengeWeight enabled.challenges) team.weight challenge frozen
        (frozen.average horizon) := by
  rw [normalizedService_of_mem teams enabled (List.mem_map_of_mem hchallenge) hid,
    normalizeService_localPoints, FrozenService.stored_points]
  have hweight := enabled.weight_pos hchallenge
  exact clamp_recovered_eq_iff (enabled.totalWeight_pos (List.ne_nil_of_mem hchallenge))
    (FrozenTeam.weight_pos hfrozen) hweight frozen.weight_pos (frozen.average_mem horizon)

section Fit

variable {teams enabled}

theorem bestAverage_mem (teams : List FrozenTeam) (challengeId : ℤ) (horizon : Horizon) :
    0 ≤ bestAverage teams challengeId horizon ∧ bestAverage teams challengeId horizon ≤ 100 := by
  refine ⟨start_le_foldl_max _ _, foldl_max_le (by norm_num) fun average haverage => ?_⟩
  obtain ⟨team, -, hfind⟩ := List.mem_filterMap.mp haverage
  obtain ⟨frozen, -, rfl⟩ := Option.map_eq_some_iff.mp hfind
  exact (frozen.average_mem horizon).2

theorem average_le_bestAverage {team : FrozenTeam} (hteam : team ∈ teams)
    {frozen : FrozenService} (hfrozen : frozen ∈ team.services) (horizon : Horizon) :
    frozen.average horizon ≤ bestAverage teams frozen.service.challengeId horizon := by
  refine le_foldl_max (List.mem_filterMap.mpr ⟨team, hteam, ?_⟩)
  rw [Keyed.find?_key_eq_some team.challengeId_nodup hfrozen]
  rfl

/-- When the shares agree, the field best of a challenge is the best average. -/
theorem EnabledChallenges.Fit.fieldBest_eq (h : enabled.Fit teams)
    {challenge : AdScoreboardChallenge} (hchallenge : challenge ∈ enabled.challenges)
    (horizon : Horizon) :
    (normalizeChallenge (totalChallengeWeight enabled.challenges)
        (teams.map FrozenTeam.stored) challenge).fieldBest horizon =
      bestAverage teams challenge.challengeId horizon := by
  have hzero : clamp 0 100 (0 : ℚ) = 0 := clamp_eq_self le_rfl (by norm_num)
  rw [normalizeChallenge_fieldBest, fieldBestOf, clamp_foldl_max, hzero, bestAverage,
    List.filterMap_map, List.map_filterMap]
  refine congrArg (List.foldl max 0) (List.filterMap_congr fun team hteam => ?_)
  have hstored : (FrozenTeam.stored team).services.find?
      (fun service => service.challengeId = challenge.challengeId) =
      (team.services.find? fun frozen =>
        frozen.service.challengeId = challenge.challengeId).map (FrozenService.stored team.weight) :=
    List.find?_map
  rw [Function.comp_apply, hstored]
  cases hfind : team.services.find? fun frozen =>
      frozen.service.challengeId = challenge.challengeId with
  | none => rfl
  | some frozen =>
      have hmem := List.mem_of_find?_eq_some hfind
      have hid : frozen.service.challengeId = challenge.challengeId := by
        simpa using List.find?_some hfind
      have hshares := h.2 team hteam frozen hmem challenge hchallenge hid.symm horizon
      have hlocal := (normalizedService_localPoints_iff teams enabled hmem hchallenge hid.symm
        horizon).mpr hshares
      rw [normalizedService_of_mem teams enabled (List.mem_map_of_mem hchallenge) hid.symm,
        normalizeService_localPoints] at hlocal
      exact congrArg some hlocal

/-- When the shares agree, a listed service gets the average of its team times the
multiplier of the challenge. -/
theorem EnabledChallenges.Fit.normalizedService (h : enabled.Fit teams) {team : FrozenTeam}
    (hteam : team ∈ teams) {frozen : FrozenService} (hfrozen : frozen ∈ team.services)
    {challenge : AdScoreboardChallenge} (hchallenge : challenge ∈ normalizedChallenges teams enabled)
    (hid : challenge.challengeId = frozen.service.challengeId) (horizon : Horizon) :
    NormalizedService teams (totalChallengeWeight enabled.challenges) horizon challenge frozen
      (normalizedService teams enabled team.weight frozen) := by
  obtain ⟨source, hsource, rfl⟩ := List.mem_map.mp hchallenge
  have hlocal := (normalizedService_localPoints_iff teams enabled hfrozen hsource hid
    horizon).mpr (h.2 team hteam frozen hfrozen source hsource hid horizon)
  have hbest := h.fieldBest_eq hsource horizon
  have hle : frozen.average horizon ≤ bestAverage teams source.challengeId horizon := by
    rw [show source.challengeId = frozen.service.challengeId from hid]
    exact average_le_bestAverage hteam hfrozen horizon
  have hpoints : (AttackDefense.normalizedService teams enabled team.weight frozen).points horizon =
      frozen.average horizon
        * fieldBestMultiplier (bestAverage teams source.challengeId horizon)
        * source.serviceWeight / totalChallengeWeight enabled.challenges := by
    have hservice := normalizedService_of_mem teams enabled hchallenge hid team.weight
    rw [hservice] at hlocal ⊢
    rw [normalizeService_localPoints] at hlocal
    rw [normalizeService_points, hlocal, hbest, normalizeToFieldBest_eq
      (frozen.average_mem horizon).1 hle (bestAverage_mem teams _ horizon).2]
    rfl
  refine ⟨hlocal, ?_, fun heq => ?_⟩
  · rw [hpoints, normalizeChallenge_multiplier, hbest]
    rfl
  · have heq' : frozen.average horizon = bestAverage teams source.challengeId horizon := heq
    rw [hpoints, ← heq', fieldBest_mul_multiplier (frozen.average_mem horizon).1
      (frozen.average_mem horizon).2]
    rfl

/-- The listed services of a normalized row. -/
def listedServices (teams : List FrozenTeam) (enabled : EnabledChallenges)
    (team : FrozenTeam) : List AdServiceScore :=
  (normalizedRow teams enabled team).services.filter fun service =>
    (normalizedChallenges teams enabled).any (·.challengeId = service.challengeId)

theorem mem_listedServices {team : FrozenTeam} {service : AdServiceScore}
    (h : service ∈ listedServices teams enabled team) :
    ∃ frozen ∈ team.services, ∃ challenge ∈ normalizedChallenges teams enabled,
      challenge.challengeId = frozen.service.challengeId ∧
        service.challengeId = frozen.service.challengeId ∧
        service = AttackDefense.normalizedService teams enabled team.weight frozen := by
  obtain ⟨hservice, hlisted⟩ := List.mem_filter.mp h
  rw [normalizedRow_services] at hservice
  obtain ⟨frozen, hfrozen, rfl⟩ := List.mem_map.mp hservice
  obtain ⟨challenge, hchallenge, hid⟩ := List.any_eq_true.mp hlisted
  have hservice := normalizedService_challengeId teams enabled team.weight frozen
  exact ⟨frozen, hfrozen, challenge, hchallenge, (of_decide_eq_true hid).trans hservice,
    hservice, rfl⟩

theorem listedServiceId_nodup (team : FrozenTeam) :
    ((listedServices teams enabled team).map (·.challengeId)).Nodup := by
  have hall : ((normalizedRow teams enabled team).services.map (·.challengeId)).Nodup := by
    rw [normalizedRow_services, List.map_map]
    have hid : (fun service : AdServiceScore => service.challengeId) ∘
        AttackDefense.normalizedService teams enabled team.weight =
          fun frozen => frozen.service.challengeId :=
      funext fun frozen => normalizedService_challengeId teams enabled team.weight frozen
    rw [hid]
    exact team.challengeId_nodup
  exact hall.sublist (List.filter_sublist.map _)

/-- A listed service contributes at most the share of its challenge. -/
theorem listedService_points_mem {team : FrozenTeam} {service : AdServiceScore}
    (hservice : service ∈ listedServices teams enabled team)
    {challenge : AdScoreboardChallenge}
    (hchallenge : challenge ∈ normalizedChallenges teams enabled)
    (hid : challenge.challengeId = service.challengeId) (horizon : Horizon) :
    0 ≤ service.points horizon ∧ service.points horizon ≤
      100 * challenge.serviceWeight / totalChallengeWeight enabled.challenges := by
  obtain ⟨frozen, hfrozen, -, -, -, hserviceId, rfl⟩ := mem_listedServices hservice
  obtain ⟨source, hsource, rfl⟩ := List.mem_map.mp hchallenge
  have hweight := enabled.weight_pos hsource
  have htotal := enabled.totalWeight_pos (List.ne_nil_of_mem hsource)
  have hpoints := normalizedService_of_mem teams enabled hchallenge (hid.trans hserviceId)
    team.weight
  rw [hpoints, normalizeService_points]
  obtain ⟨hnonneg, hle⟩ := normalizeToFieldBest_mem
    (clamp 0 100 ((frozen.stored team.weight).points horizon
      * totalChallengeWeight enabled.challenges / source.serviceWeight))
    ((normalizeChallenge (totalChallengeWeight enabled.challenges)
      (teams.map FrozenTeam.stored) source).fieldBest horizon)
  constructor
  · exact div_nonneg (mul_nonneg hnonneg hweight.le) htotal.le
  · exact div_le_div_of_nonneg_right (mul_le_mul_of_nonneg_right hle hweight.le) htotal.le

/-- The contributions of the listed services stay within `[0, 100]`. -/
theorem listedServices_sum_mem {team : FrozenTeam} (horizon : Horizon) :
    0 ≤ ((listedServices teams enabled team).map (·.points horizon)).sum ∧
      ((listedServices teams enabled team).map (·.points horizon)).sum ≤ 100 := by
  set listed := listedServices teams enabled team with hlisted
  set normalized := normalizedChallenges teams enabled with hnormalized
  set share := 100 / totalChallengeWeight enabled.challenges with hshare
  have hcover : ∀ service ∈ listed, service.challengeId ∈ normalized.map (·.challengeId) := by
    intro service hservice
    obtain ⟨frozen, -, challenge, hchallenge, hid, hserviceId, -⟩ := mem_listedServices hservice
    exact List.mem_map.mpr ⟨challenge, hchallenge, hid.trans hserviceId.symm⟩
  have hgroup : ∀ challenge ∈ normalized,
      ((Keyed.rows (·.challengeId) challenge.challengeId listed).map (·.points horizon)).sum ≤
        challenge.serviceWeight * share := by
    intro challenge hchallenge
    rcases Keyed.rows_eq_nil_or_singleton (listedServiceId_nodup team)
      challenge.challengeId with hnil | ⟨service, hservice, hid, hone⟩
    · obtain ⟨source, hsource, rfl⟩ := List.mem_map.mp hchallenge
      have hweight := enabled.weight_pos hsource
      have htotal := enabled.totalWeight_pos (List.ne_nil_of_mem hsource)
      rw [hnil]
      exact mul_nonneg hweight.le (div_nonneg (by norm_num) htotal.le)
    · have hle := (listedService_points_mem hservice hchallenge hid.symm horizon).2
      have hcomm : challenge.serviceWeight * share =
          100 * challenge.serviceWeight / totalChallengeWeight enabled.challenges := by
        rw [hshare]
        ring
      rw [hone, hcomm]
      simpa using hle
  constructor
  · refine List.sum_nonneg fun points hpoints => ?_
    obtain ⟨service, hservice, rfl⟩ := List.mem_map.mp hpoints
    obtain ⟨challenge, hchallenge, hid⟩ := List.mem_map.mp (hcover service hservice)
    exact (listedService_points_mem hservice hchallenge hid horizon).1
  · calc (listed.map (·.points horizon)).sum
        = (normalized.map fun challenge => ((Keyed.rows (·.challengeId) challenge.challengeId
            listed).map (·.points horizon)).sum).sum := by
          rw [← Grouping.sum_rows (fun service : AdServiceScore => service.points horizon)
            (normalizedChallengeId_nodup teams enabled) hcover, List.map_map]
          rfl
      _ ≤ (normalized.map fun challenge => challenge.serviceWeight * share).sum :=
          List.sum_le_sum hgroup
      _ = totalChallengeWeight enabled.challenges * share := by
          rw [List.sum_map_mul_right, ← totalChallengeWeight_normalized teams enabled]
          rfl
      _ ≤ 100 := by
          rw [hshare, mul_div_assoc']
          exact div_le_of_le_mul₀ (totalChallengeWeight_nonneg enabled) (by norm_num)
            (by rw [mul_comm])

/-- Enabled challenges which are still the frozen ones, with their frozen weights, fit. -/
theorem EnabledChallenges.fit_of_perm (hne : enabled.challenges ≠ [])
    (h : ∀ team ∈ teams,
      (team.services.map fun frozen => (frozen.service.challengeId, frozen.serviceWeight)).Perm
        (enabled.challenges.map fun challenge =>
          (challenge.challengeId, challenge.serviceWeight))) :
    enabled.Fit teams := by
  refine ⟨fun hnil => absurd hnil hne, ?_⟩
  intro team hteam frozen hfrozen challenge hchallenge hid horizon
  have hperm := h team hteam
  have htotal : team.weight = totalChallengeWeight enabled.challenges := by
    have hsum := (hperm.map Prod.snd).sum_eq
    simpa [FrozenTeam.weight, totalChallengeWeight, Function.comp_def] using hsum
  have hweight : challenge.serviceWeight = frozen.serviceWeight := by
    obtain ⟨other, hother, heq⟩ :=
      List.mem_map.mp (hperm.mem_iff.mp (List.mem_map_of_mem hfrozen))
    obtain ⟨hotherId, hotherWeight⟩ := Prod.mk.inj heq
    have hsame := List.inj_on_of_nodup_map enabled.challengeId_nodup hchallenge hother
      (hid.trans hotherId.symm)
    rw [hsame, hotherWeight]
  exact .inr (.inl (by rw [htotal, hweight]))

/-- The board is normalized as intended exactly when the enabled challenges fit the
frozen roster. -/
theorem normalized_iff_fit (teams : List FrozenTeam) (enabled : EnabledChallenges) :
    Normalized teams
        (applyFieldBestNormalization (teams.map FrozenTeam.stored) enabled.challenges) ↔
      enabled.Fit teams := by
  rcases eq_or_ne enabled.challenges [] with hnil | hne
  · have hboard : applyFieldBestNormalization (teams.map FrozenTeam.stored) enabled.challenges =
        (teams.map FrozenTeam.stored, []) := by
      have hzero : totalChallengeWeight [] ≤ 0 := by simp [totalChallengeWeight]
      rw [hnil, applyFieldBestNormalization, if_pos hzero]
    rw [hboard]
    simp only [Normalized, List.forall₂_map_right_iff, List.forall₂_same]
    constructor
    · intro h
      refine ⟨fun _ team hteam horizon => ?_, by simp [hnil]⟩
      have htotal := (h horizon team hteam).total_eq
      simpa [FrozenTeam.stored_total] using htotal
    · intro h horizon team hteam
      have htotal : team.stored.total horizon = 0 :=
        (team.stored_total horizon).trans (h.1 hnil team hteam horizon)
      refine ⟨?_, by simpa using htotal, by simp [htotal]⟩
      simp only [FrozenTeam.stored, List.forall₂_map_right_iff, List.forall₂_same]
      exact fun frozen _ => ⟨rfl, by simp⟩
  · rw [normalized_iff teams enabled hne]
    constructor
    · refine fun h => ⟨fun hnil => absurd hnil hne, ?_⟩
      intro team hteam frozen hfrozen challenge hchallenge hid horizon
      have hservices := (h horizon team hteam).services
      rw [normalizedRow_services, List.forall₂_map_right_iff, List.forall₂_same] at hservices
      obtain ⟨hserviceId, hnormalized⟩ := hservices frozen hfrozen
      have hlocal := (hnormalized _ (List.mem_map_of_mem hchallenge)
        (hid.trans hserviceId.symm)).localPoints_eq
      exact (normalizedService_localPoints_iff teams enabled hfrozen hchallenge hid horizon).mp
        hlocal
    · intro h horizon team hteam
      have hmem : 0 ≤ ((listedServices teams enabled team).map (·.points horizon)).sum ∧
          ((listedServices teams enabled team).map (·.points horizon)).sum ≤ 100 :=
        listedServices_sum_mem horizon
      have htotal : (normalizedRow teams enabled team).total horizon =
          ((listedServices teams enabled team).map (·.points horizon)).sum :=
        (normalizeTeam_total _ horizon _ _).trans (clamp_eq_self hmem.1 hmem.2)
      refine ⟨?_, htotal, by rwa [htotal]⟩
      rw [normalizedRow_services, List.forall₂_map_right_iff, List.forall₂_same]
      intro frozen hfrozen
      refine ⟨normalizedService_challengeId teams enabled team.weight frozen, ?_⟩
      intro challenge hchallenge hid
      rw [totalChallengeWeight_normalized]
      rw [normalizedService_challengeId] at hid
      exact h.normalizedService hteam hfrozen hchallenge hid horizon

end Fit

end Board

/-- A frozen service with the same average for the settled and for all epochs. -/
def steadyService (challengeId : ℤ) (average : ℚ) (h : 0 ≤ average ∧ average ≤ 100) :
    FrozenService where
  service := ⟨challengeId, 0, 0, 0, 0, 0, 0, 0, 0, none⟩
  serviceWeight := 1
  average := fun _ => average
  serviceWeight_mem := by norm_num [minServiceWeight, maxServiceWeight]
  average_mem := fun _ => h

/-- A team with the averages 40 and 80 on the frozen challenges 1 and 2. -/
def frozenPair : FrozenTeam where
  row := ⟨0, 31, 51, "solo", none, 60, 60, 0, 0, 0, [], []⟩
  services := [steadyService 1 40 (by norm_num), steadyService 2 80 (by norm_num)]
  challengeId_nodup := by decide

/-- Only the first of the two frozen challenges is still enabled. -/
def enabledFirst : EnabledChallenges where
  challenges := [⟨1, "first", 1, 0, 0, 1, 1⟩]
  challengeId_nodup := by decide
  serviceWeight_mem := by simp [minServiceWeight, maxServiceWeight]; norm_num

/-- Disabling one of two frozen services halves the recovered average of the other. -/
theorem not_normalized_of_disabled :
    ¬Normalized [frozenPair]
      (applyFieldBestNormalization ([frozenPair].map FrozenTeam.stored)
        enabledFirst.challenges) := by
  intro h
  have hne : enabledFirst.challenges ≠ [] := by simp [enabledFirst]
  have hrow := (normalized_iff [frozenPair] enabledFirst hne).mp h .settled frozenPair (by simp)
  have hservices := hrow.services
  rw [normalizedRow_services, List.forall₂_map_right_iff, List.forall₂_same] at hservices
  have hfrozen : steadyService 1 40 (by norm_num) ∈ frozenPair.services := by simp [frozenPair]
  obtain ⟨hid, hnormalized⟩ := hservices _ hfrozen
  have hlocal := (hnormalized _ (List.mem_map_of_mem List.mem_cons_self) hid.symm).localPoints_eq
  revert hlocal
  decide +kernel

end AttackDefense

end Rsctf
