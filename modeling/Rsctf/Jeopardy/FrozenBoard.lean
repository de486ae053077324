import Rsctf.Jeopardy.SolveOrder

/-!
# Noninterference of the frozen board

From the freeze until the end of the game, the public board is a function of the
solves before the freeze: two histories that agree on those solves show the same
board, and it is the live board of those solves alone.
-/

namespace Rsctf

namespace Jeopardy

variable (t : GameTables)

/-- The solves that were submitted before a moment. -/
def SolveTables.before (s : SolveTables) (moment : ℤ) : SolveTables where
  firstSolves := s.firstSolves
  submissions := s.submissions.filter fun submission => submission.submitTime < moment
  firstSolveKey := s.firstSolveKey
  submissionKey := s.submissionKey.sublist (List.filter_sublist.map _)

/-- The rows that were submitted before a moment. -/
def rowsBefore (moment : ℤ) (subs : List SolveRow) : List SolveRow :=
  subs.filter fun row => row.submitTime < moment

theorem solveRow_time {solve : FirstSolve} {submission : Submission} {row : SolveRow}
    (h : solveRow t solve submission = some row) : row.submitTime = submission.submitTime := by
  unfold solveRow at h
  split at h
  case isTrue => exact congrArg SolveRow.submitTime (Option.some.inj h).symm
  case isFalse => exact absurd h (by simp)

theorem firstSolveRows_before (s : SolveTables) (moment : ℤ) :
    firstSolveRows t (s.before moment) = rowsBefore moment (firstSolveRows t s) := by
  rw [rowsBefore, firstSolveRows, firstSolveRows, List.filter_flatMap]
  apply List.flatMap_congr
  intro solve _
  rw [SolveTables.before, List.filterMap_filter, List.filter_filterMap]
  apply List.filterMap_congr
  intro submission _
  cases hrow : solveRow t solve submission with
  | none => simp
  | some row => simp [Option.filter, solveRow_time t hrow]

theorem nodup_rowsBefore {subs : List SolveRow} (hnd : (subs.map SolveRow.key).Nodup)
    (moment : ℤ) : ((rowsBefore moment subs).map SolveRow.key).Nodup :=
  hnd.sublist (List.filter_sublist.map _)

/-- A cutoff hides exactly the solves from it on. -/
theorem eligibleSolve_cutoff (p : Participation) (row : SolveRow) (moment : ℤ) :
    eligibleSolve t (some moment) p row =
      if row.submitTime < moment then eligibleSolve t none p row else none := by
  unfold eligibleSolve
  cases metaOf t row.challengeId with
  | none => simp
  | some challenge =>
      by_cases htime : row.submitTime < moment
      · have hvisible : ¬moment ≤ row.submitTime := not_le.mpr htime
        simp [htime, hvisible]
      · have hhidden : moment ≤ row.submitTime := not_lt.mp htime
        simp [htime, hhidden]

/-- What is visible behind a cutoff is what the solves before it show. -/
theorem solveList_cutoff {hash hash' : HashOrder SolveRow} (parts : List Participation)
    {subs : List SolveRow} (hnd : (subs.map SolveRow.key).Nodup) (moment : ℤ) :
    (solveList t hash (some moment) parts subs).Perm
      (solveList t hash' none parts (rowsBefore moment subs)) := by
  apply List.Perm.flatMap_left
  intro p _
  rw [solvedByParticipation_eq hnd, solvedByParticipation_eq (nodup_rowsBefore hnd moment)]
  have hrows : (Keyed.rows SolveRow.participationId p.id subs).filterMap
        (eligibleSolve t (some moment) p) =
      (Keyed.rows SolveRow.participationId p.id (rowsBefore moment subs)).filterMap
        (eligibleSolve t none p) := by
    symm
    rw [Keyed.rows, Keyed.rows, rowsBefore, List.filter_comm, List.filterMap_filter]
    apply List.filterMap_congr
    intro row _
    simp [eligibleSolve_cutoff]
  exact ((hash.perm _).filterMap _).trans
    ((List.Perm.of_eq hrows).trans ((hash'.perm _).filterMap _).symm)

theorem scoreboardCutoff_frozen {freeze now : ℤ} (hfreeze : t.game.freezeTime = some freeze)
    (hnow : freeze ≤ now ∧ now < t.game.endTime) : scoreboardCutoff t now false = some freeze := by
  simp [scoreboardCutoff, publicScoreboardFrozen, hfreeze, hnow]

theorem scoreboardCutoff_monitor (now : ℤ) : scoreboardCutoff t now true = none := by
  simp [scoreboardCutoff, publicScoreboardFrozen]

/-- The frozen board is the live board of the solves before the freeze. -/
theorem frozen_eq_live (libm : Libm) {hash hash' : HashOrder SolveRow} {roster : Roster}
    {subs : List SolveRow} (hnd : (subs.map SolveRow.key).Nodup) {freeze now : ℤ}
    (hfreeze : t.game.freezeTime = some freeze) (hnow : freeze ≤ now ∧ now < t.game.endTime)
    (live updateTime : ℤ) :
    scoreboardFromRows t libm hash roster subs now updateTime false =
      { scoreboardFromRows t libm hash' roster (rowsBefore freeze subs) live updateTime true with
        isFrozenView := true } := by
  have hperm : (solveList t hash (some freeze) roster.parts subs).Perm
      (solveList t hash' none roster.parts (rowsBefore freeze subs)) :=
    solveList_cutoff t roster.parts hnd freeze
  have hboard : boardOf t libm roster subs (solveList t hash (some freeze) roster.parts subs)
        updateTime true =
      boardOf t libm roster (rowsBefore freeze subs)
        (solveList t hash' none roster.parts (rowsBefore freeze subs)) updateTime true := by
    apply boardOf_eq t libm (List.Perm.refl _) hperm (nodup_solveList t hnd roster.partKey) hnd
      (nodup_rowsBefore hnd freeze)
    intro s hs
    have hlist := (mem_solveList t (nodup_rowsBefore hnd freeze)).mp (hperm.mem_iff.mp hs)
    obtain ⟨p, -, row, hrow, -, hsome⟩ := hlist
    exact ⟨row, List.mem_of_mem_filter hrow, hrow, (eligibleSolve_eq_some t hsome).2.2.2.1⟩
  rw [scoreboardFromRows, scoreboardCutoff_frozen t hfreeze hnow, scoreboardFromRows,
    scoreboardCutoff_monitor]
  exact hboard

/-- During the freeze, the public board of two histories which agree on the solves
before the freeze is the same, at whatever moments it is built, and it is the live
board of those solves. -/
theorem frozenBoard_noninterference (libm : Libm) (hash hash' : HashOrder SolveRow) (roster : Roster)
    (s s' : SolveTables) {freeze now now' : ℤ} (hfreeze : t.game.freezeTime = some freeze)
    (hnow : freeze ≤ now ∧ now < t.game.endTime) (hnow' : freeze ≤ now' ∧ now' < t.game.endTime)
    (hagree : (rowsBefore freeze (firstSolveRows t s)).Perm
      (rowsBefore freeze (firstSolveRows t s'))) (updateTime : ℤ) :
    buildScoreboard t libm hash roster s now updateTime false =
        buildScoreboard t libm hash' roster s' now' updateTime false ∧
      ∀ live, buildScoreboard t libm hash roster s now updateTime false =
        { buildScoreboard t libm hash' roster (s.before freeze) live updateTime true with
          isFrozenView := true } := by
  have hnd := nodup_firstSolveRows t s
  have hnd' := nodup_firstSolveRows t s'
  constructor
  · have hlive : scoreboardFromRows t libm hash roster (rowsBefore freeze (firstSolveRows t s))
          now updateTime true =
        scoreboardFromRows t libm hash' roster (rowsBefore freeze (firstSolveRows t s'))
          now updateTime true :=
      scoreboardFromRows_perm t libm (List.Perm.refl _) hagree (nodup_rowsBefore hnd freeze) _ _ _
    rw [buildScoreboard, frozen_eq_live t libm hnd hfreeze hnow now updateTime, hlive,
      buildScoreboard, frozen_eq_live t libm hnd' hfreeze hnow' now updateTime]
  · intro live
    rw [buildScoreboard, buildScoreboard, firstSolveRows_before]
    exact frozen_eq_live t libm hnd hfreeze hnow live updateTime

section LateSolve

theorem lateSolve_configKey : (([] : List DivisionChallengeConfig).map
    fun c => (c.divisionId, c.challengeId)).Nodup :=
  List.nodup_nil

/-- One challenge, frozen from 100 to 200. -/
def lateSolveGame : GameTables where
  game := { id := 1, startTime := 0, endTime := 200, freezeTime := some 100, bloodBonusValue := 0 }
  challenges :=
    [{ id := 1, title := "warmup", category := .misc, challengeType := .staticAttachment
       originalScore := 500, minScoreRate := .finite 1, difficulty := .finite 1
       scoreCurve := .linear, acceptedCount := 2, deadline := none, disableBloodBonus := false }]
  divisions := []
  configs := []
  teams := []
  users := []
  challengeKey := List.nodup_singleton _
  divisionKey := List.nodup_nil
  configKey := lateSolve_configKey

def lateSolveRoster : Roster where
  parts := [{ id := 1, teamId := 1, divisionId := none }, { id := 2, teamId := 2, divisionId := none }]
  partKey := by simp
  teamKey := by simp

/-- Both teams solve the challenge, the second one at the given moment. -/
def lateSolve (moment : ℤ) : SolveTables where
  firstSolves :=
    [{ participationId := 1, challengeId := 1, submissionId := 1 },
      { participationId := 2, challengeId := 1, submissionId := 2 }]
  submissions :=
    [{ id := 1, gameId := 1, participationId := 1, challengeId := 1, accepted := true
       submitTime := 50, userId := none },
      { id := 2, gameId := 1, participationId := 2, challengeId := 1, accepted := true
        submitTime := moment, userId := none }]
  firstSolveKey := by simp
  submissionKey := by simp

/-- The map hands out its entries as they were inserted. -/
def insertionOrder : HashOrder SolveRow := ⟨id, fun l => .refl l⟩

def flatLibm : Libm := ⟨fun _ => 0, fun _ => 1⟩

theorem frozenBoard_noninterference_lateSolve :
    buildScoreboard lateSolveGame flatLibm insertionOrder lateSolveRoster (lateSolve 120)
          130 150 false =
        buildScoreboard lateSolveGame flatLibm insertionOrder lateSolveRoster (lateSolve 250)
          140 150 false ∧
      ∀ live, buildScoreboard lateSolveGame flatLibm insertionOrder lateSolveRoster (lateSolve 120)
          130 150 false =
        { buildScoreboard lateSolveGame flatLibm insertionOrder lateSolveRoster
            ((lateSolve 120).before 100) live 150 true with
          isFrozenView := true } :=
  frozenBoard_noninterference lateSolveGame flatLibm insertionOrder insertionOrder lateSolveRoster
    (lateSolve 120) (lateSolve 250) rfl (by decide) (by decide) (.of_eq (by decide)) 150

end LateSolve

end Jeopardy

end Rsctf
