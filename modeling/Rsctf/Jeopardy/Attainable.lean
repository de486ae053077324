import Rsctf.Data.Grouping
import Rsctf.Jeopardy.Bloods

/-!
# The attainable ceiling

The combined board measures the Jeopardy score of a team against the most its
division could earn on the published board.  Whatever a team has earned on a
challenge is at most the contribution counted for that challenge, so the ratio is
never cut off.  It is rounded to a ten-thousandth of a point, so a team can be shown
at a hundred points a little below its attainable total.
-/

namespace Rsctf

namespace Jeopardy

/-- What the combined board knows about a division. -/
structure DivisionAccess where
  id : ℤ
  name : String
  defaultPermissions : GamePermission
  challengePermissions : List (ℤ × GamePermission)

variable (t : GameTables)

/-- A division with the configurations that the left join finds for it. -/
def divisionAccess (d : Division) : DivisionAccess where
  id := d.id
  name := d.name
  defaultPermissions := d.defaultPermissions
  challengePermissions :=
    (Keyed.rows DivisionChallengeConfig.divisionId d.id t.configs).map fun c =>
      (c.challengeId, c.permissions)

def loadDivisionAccess : List DivisionAccess := t.divisions.map (divisionAccess t)

def permissionFor (divisionId : Option ℤ) (challengeId : ℤ) (divisions : List DivisionAccess) :
    GamePermission :=
  match divisionId with
  | none => GamePermission.all
  | some divisionId =>
      match Keyed.get DivisionAccess.id divisionId divisions with
      | none => 0
      | some division =>
          ((Keyed.get Prod.fst challengeId division.challengePermissions).map Prod.snd).getD
            division.defaultPermissions

/-- The most a team can earn on the challenges of the published board. -/
def jeopardyAttainablePoints (item : ScoreboardItem) (board : ScoreboardModel)
    (divisions : List DivisionAccess) : ℤ :=
  (((board.challenges.flatMap Prod.snd).filter fun challenge =>
      !challenge.challengeType.isEngine).filterMap fun challenge =>
    let permission := permissionFor item.divisionId challenge.id divisions
    if permission.contains GamePermission.getScore then
      some (maximumJeopardyContribution challenge.score board.bloodBonus
        (permission.contains GamePermission.getBlood && !challenge.disableBloodBonus))
    else none).sum

/-- A hundred points, in units of a ten-thousandth. -/
def maxComponentUnits : ℤ := 100 * 10000

def normalizedRatioUnits (earned attainable : ℤ) : ℤ :=
  if attainable ≤ 0 ∨ earned ≤ 0 then 0
  else
    let earned := min earned attainable
    (earned * maxComponentUnits + attainable / 2) / attainable

/-- The separately loaded permissions are the ones the board decides by. -/
theorem permissionFor_loadDivisionAccess (divisionId : Option ℤ) (challengeId : ℤ) :
    permissionFor divisionId challengeId (loadDivisionAccess t) = permOf t divisionId challengeId := by
  cases divisionId with
  | none => rfl
  | some divisionId =>
      have hget : Keyed.get DivisionAccess.id divisionId (loadDivisionAccess t) =
          (Keyed.get Division.id divisionId t.divisions).map (divisionAccess t) :=
        Keyed.get_map DivisionAccess.id (divisionAccess t) divisionId t.divisions
      simp only [permissionFor, permOf, hget, defaultPerms]
      cases hdivision : Keyed.get Division.id divisionId t.divisions with
      | none =>
          have hnone : divChallengePerms t divisionId challengeId = none := by
            rw [divChallengePerms, Option.map_eq_none_iff, Keyed.get_eq_none_iff]
            intro c hc hkey
            obtain ⟨d, hd, hid⟩ := List.mem_map.mp (of_decide_eq_true (List.mem_filter.mp hc).2)
            exact Keyed.get_eq_none_iff.mp hdivision d hd (hid.trans (Prod.ext_iff.mp hkey).1)
          rw [hnone]
          rfl
      | some division =>
          obtain ⟨hmem, hid⟩ := Keyed.mem_of_get hdivision
          have hconfigs : divChallengePerms t divisionId challengeId =
              (Keyed.get (fun c => (c.divisionId, c.challengeId)) (divisionId, challengeId)
                t.configs).map DivisionChallengeConfig.permissions := by
            rw [divChallengePerms, Keyed.get_filter]
            intro c _ hkey
            have hconfig : c.divisionId = divisionId := (Prod.ext_iff.mp hkey).1
            rw [decide_eq_true_iff, hconfig]
            exact List.mem_map.mpr ⟨division, hmem, hid⟩
          have hpermissions : (Keyed.get Prod.fst challengeId
              ((Keyed.rows DivisionChallengeConfig.divisionId division.id t.configs).map
                fun c => (c.challengeId, c.permissions))).map Prod.snd =
              divChallengePerms t divisionId challengeId := by
            rw [hconfigs, Keyed.get_map, Option.map_map, hid, ← Keyed.get_rows_pair]
            rfl
          simp only [Option.map_some, divisionAccess, hpermissions]
          cases divChallengePerms t divisionId challengeId <;> rfl

/-- The most a team of a division can earn on a challenge worth the given score. -/
def challengeCeiling (divisionId : Option ℤ) (score : ℤ) (c : Challenge) : ℤ :=
  if c.challengeType.isEngine then 0
  else if (permOf t divisionId c.id).contains GamePermission.getScore then
    maximumJeopardyContribution score t.game.bloodBonusValue
      ((permOf t divisionId c.id).contains GamePermission.getBlood && !c.disableBloodBonus)
  else 0

theorem challengeCeiling_nonneg (divisionId : Option ℤ) (score : ℤ) (c : Challenge) :
    0 ≤ challengeCeiling t divisionId score c := by
  unfold challengeCeiling
  split
  · exact le_rfl
  · split
    · exact maximumJeopardyContribution_nonneg _ _ _
    · exact le_rfl

theorem sum_filterMap_filter {α : Type*} (p : α → Bool) (f : α → Option ℤ) (l : List α) :
    ((l.filter p).filterMap f).sum = (l.map fun a => if p a then (f a).getD 0 else 0).sum := by
  induction l with
  | nil => rfl
  | cons a l ih =>
      rw [List.map_cons, List.sum_cons, ← ih, List.filter_cons]
      cases hp : p a with
      | false => simp
      | true => cases hf : f a <;> simp [hf]

theorem metaOf_of_mem {c : Challenge} (hc : c ∈ t.challenges) : metaOf t c.id = some c :=
  (Keyed.get_eq_some_iff t.challengeKey).mpr ⟨hc, rfl⟩

section Board

variable {libm : Libm} {roster : Roster} {subs : List SolveRow} {solves : List EligibleSolve}
  {updateTime : ℤ} {frozen : Bool}

/-- The columns of the board hold every challenge once. -/
theorem sum_columns (f : ChallengeInfo → ℤ) :
    (((boardOf t libm roster subs solves updateTime frozen).challenges.flatMap Prod.snd).map
        f).sum =
      (t.challenges.map fun c => f (backfill (currentScore t libm solves) (acceptedCount solves)
        (assignSolves (boardLookup t libm roster subs solves) (sortSolves solves)).challengeBloods
          (challengeInfo c))).sum := by
  have hcover : ∀ c ∈ t.challenges, c.category.wire ∈
      Keyed.sortedKeys (t.challenges.map fun c => c.category.wire) := fun c hc =>
    Keyed.mem_sortedKeys.mpr (List.mem_map.mpr ⟨c, hc, rfl⟩)
  rw [← Grouping.sum_rows _ (Keyed.nodup_sortedKeys _) hcover]
  simp only [boardOf, buildChallengesMap, List.map_map, List.flatMap_def, List.map_flatten,
    List.sum_flatten, Function.comp_def]

/-- The attainable total of a row is the sum of the ceilings of the challenges. -/
theorem jeopardyAttainablePoints_eq (item : ScoreboardItem) :
    jeopardyAttainablePoints item (boardOf t libm roster subs solves updateTime frozen)
        (loadDivisionAccess t) =
      (t.challenges.map fun c =>
        challengeCeiling t item.divisionId (challengeScore libm solves c) c).sum := by
  rw [jeopardyAttainablePoints, sum_filterMap_filter, sum_columns]
  congr 1
  apply List.map_congr_left
  intro c hc
  have hscore : (currentScore t libm solves c.id).getD c.originalScore =
      challengeScore libm solves c := by
    rw [currentScore, metaOf_of_mem t hc]
    rfl
  simp only [backfill, challengeInfo, permissionFor_loadDivisionAccess, hscore, challengeCeiling]
  cases c.challengeType.isEngine with
  | true => rfl
  | false =>
      simp only [Bool.not_false, if_true, Bool.false_eq_true, if_false]
      split <;> rfl

/-- A solve scores or competes for a blood only as the permissions allow. -/
theorem eligibleSolve_permissions {cutoff : Option ℤ} {p : Participation} {row : SolveRow}
    {s : EligibleSolve} (h : eligibleSolve t cutoff p row = some s) :
    (s.scoreEligible = true →
        (permOf t p.divisionId s.challengeId).contains GamePermission.getScore = true) ∧
      (s.bloodEligible = true →
        (permOf t p.divisionId s.challengeId).contains GamePermission.getBlood = true) := by
  unfold eligibleSolve at h
  split at h
  case h_1 => exact absurd h (by simp)
  case h_2 =>
    split at h
    case isTrue => exact absurd h (by simp)
    case isFalse =>
      obtain rfl := Option.some.inj h
      exact ⟨fun hs => (Bool.and_eq_true_iff.mp hs).2, fun hs => (Bool.and_eq_true_iff.mp hs).2⟩

/-- Only a solve that competes for it is listed as a blood. -/
theorem bloodType_eq_normal_or (s : EligibleSolve) :
    bloodType solves s = .normal ∨ s.bloodEligible = true := by
  unfold bloodType
  split
  case isTrue h =>
    exact .inr (Bool.and_eq_true_iff.mp (Bool.and_eq_true_iff.mp h).1).1
  case isFalse => exact .inl rfl

/-- What a solve contributes is at most the ceiling of its challenge. -/
theorem cell_le_ceiling {cutoff : Option ℤ} {p : Participation} {row : SolveRow}
    {s : EligibleSolve} (h : eligibleSolve t cutoff p row = some s) {c : Challenge}
    (hc : c ∈ t.challenges) (hchallenge : s.challengeId = c.id) :
    ((boardLookup t libm roster subs solves).cell s (bloodType solves s)).score ≤
      challengeCeiling t p.divisionId (challengeScore libm solves c) c := by
  have hnonneg := challengeCeiling_nonneg t p.divisionId (challengeScore libm solves c) c
  have hscore : (boardLookup t libm roster subs solves).score s.challengeId =
      challengeScore libm solves c := by
    simp only [boardLookup, currentScore, hchallenge, metaOf_of_mem t hc]
    rfl
  have hdisabled : (boardLookup t libm roster subs solves).disableBlood s.challengeId =
      c.disableBloodBonus := by
    simp only [boardLookup, hchallenge, metaOf_of_mem t hc]
    rfl
  obtain ⟨hgetScore, hgetBlood⟩ := eligibleSolve_permissions t h
  rw [hchallenge] at hgetScore hgetBlood
  simp only [BoardLookup.cell, hscore, hdisabled]
  split
  case isFalse => exact hnonneg
  case isTrue heligible =>
    unfold challengeCeiling
    split
    case isTrue hengine =>
      have hzero : challengeScore libm solves c = 0 := if_pos hengine
      rw [hzero]
      unfold solveContribution
      split
      · exact le_rfl
      · split <;> simp
    case isFalse =>
      rw [if_pos (hgetScore heligible)]
      apply solveContribution_le
      exact (bloodType_eq_normal_or s).imp_right hgetBlood

/-- A participation solves a challenge once. -/
theorem nodup_challenges {l : List EligibleSolve}
    (hnd : (l.map fun s => (s.participationId, s.challengeId)).Nodup) (participationId : ℤ) :
    ((Keyed.rows EligibleSolve.participationId participationId l).map
      EligibleSolve.challengeId).Nodup := by
  have hpairs : (Keyed.rows EligibleSolve.participationId participationId l).map
        (fun s => (s.participationId, s.challengeId)) =
      ((Keyed.rows EligibleSolve.participationId participationId l).map
        EligibleSolve.challengeId).map (participationId, ·) := by
    rw [List.map_map]
    apply List.map_congr_left
    intro s hs
    exact Prod.ext (Keyed.mem_rows.mp hs).2 rfl
  apply List.Nodup.of_map (participationId, ·)
  rw [← hpairs]
  exact hnd.sublist (List.filter_sublist.map _)

/-- No team earns more than its attainable total. -/
theorem score_le_jeopardyAttainablePoints {hash : HashOrder SolveRow} {cutoff : Option ℤ}
    (hrows : (subs.map SolveRow.key).Nodup)
    (hsolves : solves = solveList t hash cutoff roster.parts subs) {item : ScoreboardItem}
    (hitem : item ∈ (boardOf t libm roster subs solves updateTime frozen).items) :
    item.score ≤ jeopardyAttainablePoints item
      (boardOf t libm roster subs solves updateTime frozen) (loadDivisionAccess t) := by
  have hnd : (solves.map fun s => (s.participationId, s.challengeId)).Nodup := by
    rw [hsolves]
    exact nodup_solveList t hrows roster.partKey
  obtain ⟨p, hp, heq⟩ := List.mem_map.mp
    ((boardOf_items_perm t).mem_iff.mp (List.mem_map_of_mem hitem))
  have hdivision : item.divisionId = p.divisionId :=
    (congrArg ScoreboardItem.divisionId heq).symm
  have hassigned := assigned_assignSolves (boardLookup t libm roster subs solves) hnd
  have hscore : item.score = ((Keyed.rows EligibleSolve.participationId p.id
      (sortSolves solves)).map fun s =>
        ((boardLookup t libm roster subs solves).cell s (bloodType solves s)).score).sum := by
    have hitem : item.score = _ := (congrArg ScoreboardItem.score heq).symm
    rw [hitem, scoreboardItem, hassigned.items, List.map_map]
    rfl
  have hmem : ∀ s ∈ Keyed.rows EligibleSolve.participationId p.id (sortSolves solves),
      ∃ row, eligibleSolve t cutoff p row = some s ∧
        s.challengeId ∈ t.challenges.map Challenge.id := by
    intro s hs
    obtain ⟨hs, hpart⟩ := Keyed.mem_rows.mp hs
    rw [(sortSolves_perm_self solves).mem_iff, hsolves] at hs
    obtain ⟨p', hp', row, -, -, hsome⟩ := (mem_solveList t hrows).mp hs
    obtain ⟨-, hpart', -, -, hmeta⟩ := eligibleSolve_eq_some t hsome
    have hsame : p' = p := List.inj_on_of_nodup_map roster.partKey hp' hp (hpart'.symm.trans hpart)
    obtain ⟨c, hc⟩ := Option.isSome_iff_exists.mp hmeta
    obtain ⟨hc, hid⟩ := Keyed.mem_of_get hc
    exact ⟨row, hsame ▸ hsome, List.mem_map.mpr ⟨c, hc, hid⟩⟩
  rw [jeopardyAttainablePoints_eq, hdivision, hscore,
    ← Grouping.sum_rows _ t.challengeKey fun s hs => (hmem s hs).choose_spec.2, List.map_map]
  apply List.sum_le_sum
  intro c hc
  have hone : ((Keyed.rows EligibleSolve.participationId p.id (sortSolves solves)).map
      EligibleSolve.challengeId).Nodup :=
    nodup_challenges ((((sortSolves_perm_self solves).map _).nodup_iff).mpr hnd) p.id
  rcases Keyed.rows_eq_nil_or_singleton hone c.id with hnil | ⟨s, hs, hchallenge, hsingle⟩
  · rw [Function.comp_apply, hnil]
    exact challengeCeiling_nonneg t _ _ c
  · rw [Function.comp_apply, hsingle, List.map_singleton, List.sum_singleton]
    obtain ⟨row, hsome, -⟩ := hmem s hs
    exact cell_le_ceiling t hsome hc hchallenge

end Board

/-- The units of a score below its ceiling: a hundred points are shown once the
shortfall is at most a two-millionth of the ceiling. -/
theorem normalizedRatioUnits_eq_max_iff {earned attainable : ℤ} (h : earned ≤ attainable) :
    normalizedRatioUnits earned attainable = maxComponentUnits ↔
      0 < attainable ∧ 2 * maxComponentUnits * (attainable - earned) ≤ attainable := by
  unfold normalizedRatioUnits maxComponentUnits
  split
  case isTrue hzero => omega
  case isFalse hpos =>
    rw [not_or, not_le, not_le] at hpos
    rw [min_eq_left h, Int.ediv_eq_iff_of_pos hpos.1]
    omega

/-- A team earns at most its attainable total, so its ratio is not cut off; it is
shown at a hundred points exactly when it misses at most a two-millionth of a
positive total, that is when it earns all of a total below two million. -/
theorem attainable_ceiling (libm : Libm) (hash : HashOrder SolveRow) (roster : Roster)
    (tables : SolveTables) (now updateTime : ℤ) (isMonitor : Bool) :
    let board := buildScoreboard t libm hash roster tables now updateTime isMonitor
    ∀ item ∈ board.items,
      let attainable := jeopardyAttainablePoints item board (loadDivisionAccess t)
      item.score ≤ attainable ∧
      (normalizedRatioUnits item.score attainable = maxComponentUnits ↔
        0 < attainable ∧ 2 * maxComponentUnits * (attainable - item.score) ≤ attainable) ∧
      (attainable < 2 * maxComponentUnits →
        (normalizedRatioUnits item.score attainable = maxComponentUnits ↔
          0 < attainable ∧ item.score = attainable)) := by
  intro board item hitem attainable
  have hle : item.score ≤ attainable :=
    score_le_jeopardyAttainablePoints t (nodup_firstSolveRows t tables) rfl hitem
  have hmax := normalizedRatioUnits_eq_max_iff hle
  refine ⟨hle, hmax, ?_⟩
  intro hsmall
  rw [hmax]
  unfold maxComponentUnits at hsmall ⊢
  omega

section NearMiss

/-- A challenge without a blood bonus whose worth does not decay. -/
def plainChallenge (id worth : ℤ) : Challenge where
  id := id
  title := "plain"
  category := .misc
  challengeType := .staticAttachment
  originalScore := worth
  minScoreRate := .finite 1
  difficulty := .finite 5
  scoreCurve := .linear
  acceptedCount := 0
  deadline := none
  disableBloodBonus := true

/-- Two challenges, of two million points and of one. -/
def nearMissGame : GameTables where
  game := { id := 1, startTime := 0, endTime := 200, freezeTime := none, bloodBonusValue := 0 }
  challenges := [plainChallenge 1 2000000, plainChallenge 2 1]
  divisions := []
  configs := []
  teams := []
  users := []
  challengeKey := by simp [plainChallenge]
  divisionKey := List.nodup_nil
  configKey := List.nodup_nil

def nearMissRoster : Roster where
  parts := [{ id := 1, teamId := 1, divisionId := none }]
  partKey := List.nodup_singleton _
  teamKey := List.nodup_singleton _

/-- The team solves the first challenge only. -/
def nearMissSolves : SolveTables where
  firstSolves := [{ participationId := 1, challengeId := 1, submissionId := 1 }]
  submissions :=
    [{ id := 1, gameId := 1, participationId := 1, challengeId := 1, accepted := true
       submitTime := 50, userId := none }]
  firstSolveKey := List.nodup_singleton _
  submissionKey := List.nodup_singleton _

/-- The library functions are not asked: no challenge is solved twice. -/
def nearMissBoard : ScoreboardModel :=
  buildScoreboard nearMissGame ⟨fun _ => 0, fun _ => 1⟩ ⟨id, fun l => .refl l⟩ nearMissRoster
    nearMissSolves 100 100 false

theorem not_attainable_exact_nearMiss :
    ¬∀ item ∈ nearMissBoard.items,
      item.score ≤ jeopardyAttainablePoints item nearMissBoard (loadDivisionAccess nearMissGame) ∧
      (normalizedRatioUnits item.score
          (jeopardyAttainablePoints item nearMissBoard (loadDivisionAccess nearMissGame)) =
            maxComponentUnits ↔
        item.score =
          jeopardyAttainablePoints item nearMissBoard (loadDivisionAccess nearMissGame)) := by
  decide +kernel

/-- The row of the team, which is shown at a hundred points. -/
def nearMissItem : ScoreboardItem where
  id := 1
  name := ""
  bio := none
  divisionId := none
  avatar := none
  score := 2000000
  rank := 1
  divisionRank := none
  lastSubmissionTime := 50
  solvedChallenges :=
    [{ id := 1, score := 2000000, submissionType := .firstBlood, userName := none, time := 50 }]
  solvedCount := 1

theorem attainable_ceiling_nearMiss :
    let attainable :=
      jeopardyAttainablePoints nearMissItem nearMissBoard (loadDivisionAccess nearMissGame)
    nearMissItem.score ≤ attainable ∧
    (normalizedRatioUnits nearMissItem.score attainable = maxComponentUnits ↔
      0 < attainable ∧
        2 * maxComponentUnits * (attainable - nearMissItem.score) ≤ attainable) ∧
    (attainable < 2 * maxComponentUnits →
      (normalizedRatioUnits nearMissItem.score attainable = maxComponentUnits ↔
        0 < attainable ∧ nearMissItem.score = attainable)) :=
  attainable_ceiling nearMissGame _ _ _ _ 100 100 false nearMissItem (by decide +kernel)

end NearMiss

end Jeopardy

end Rsctf
