import Mathlib.Algebra.Order.Field.Basic
import Mathlib.Data.Rat.Lemmas
import Mathlib.Tactic.Linarith
import Mathlib.Tactic.NormNum
import Rsctf.Data.Keyed
import Rsctf.Data.Leaders

/-!
# The crown of a leaderboard wave

A wave may crown one team: the unique team that completed the wave with the greatest
positive objective ratio.  The rule is written twice, as a check on submitted rows and
as an update that derives the crown again after rows were removed; ratios are compared
by cross multiplication in both.
-/

namespace Rsctf

namespace Leaderboard

/-- The evidence of one participation in one wave. -/
structure EvidenceRow where
  participationId : ℤ
  activityEarned : ℤ
  activityPossible : ℤ
  objectiveEarned : ℤ
  objectivePossible : ℤ
  objectiveCount : ℤ
  isCrown : Bool
  deriving DecidableEq

/-- A completed wave with a positive objective. -/
def EvidenceRow.Completed (row : EvidenceRow) : Prop :=
  0 < row.activityPossible ∧ 0 < row.objectivePossible ∧
    row.activityEarned = row.activityPossible ∧ 0 < row.objectiveEarned

instance (row : EvidenceRow) : Decidable row.Completed :=
  inferInstanceAs (Decidable (_ ∧ _ ∧ _ ∧ _))

/-- The scan for the best row, which compares by cross multiplication and keeps the
later of two equal rows. -/
def bestByRatio : List EvidenceRow → Option EvidenceRow
  | [] => none
  | row :: rows =>
      some (rows.foldl (fun best row =>
        if row.objectiveEarned * best.objectivePossible <
            best.objectiveEarned * row.objectivePossible then best
        else row) row)

/-- The admission and materialization check of a wave. -/
def leaderboardCrownIsValid (rows : List EvidenceRow) : Bool :=
  let completed := rows.filter fun row => row.Completed
  let crowns := rows.filter EvidenceRow.isCrown
  match bestByRatio completed with
  | none => crowns.isEmpty
  | some best =>
      let leaders := (completed.filter fun row =>
        row.objectiveEarned * best.objectivePossible =
          best.objectiveEarned * row.objectivePossible).length
      if 1 < leaders then crowns.isEmpty
      else
        match crowns with
        | [crown] =>
            crown.activityEarned = crown.activityPossible ∧ 0 < crown.objectiveEarned ∧
              0 < crown.objectivePossible ∧
              crown.objectiveEarned * best.objectivePossible =
                best.objectiveEarned * crown.objectivePossible
        | _ => false

/-- The completed rows that no completed row beats. -/
def waveLeaders (rows : List EvidenceRow) : List EvidenceRow :=
  let completed := rows.filter fun row => row.Completed
  completed.filter fun candidate =>
    ¬∃ better ∈ completed, candidate.objectiveEarned * better.objectivePossible <
      better.objectiveEarned * candidate.objectivePossible

/-- The row that deserves the crown: the leader, unless there is none or a tie. -/
def uniqueLeader (rows : List EvidenceRow) : List EvidenceRow :=
  match waveLeaders rows with
  | [leader] => [leader]
  | _ => []

def EvidenceRow.demote (row : EvidenceRow) : EvidenceRow := { row with isCrown := false }

/-- Demote every row, then crown the unique leader of what is left. -/
def rederiveCrowns (rows : List EvidenceRow) : List EvidenceRow :=
  let demoted := rows.map EvidenceRow.demote
  match waveLeaders demoted with
  | [leader] =>
      demoted.map fun row =>
        if row.participationId = leader.participationId then { row with isCrown := true } else row
  | _ => demoted

/-- The objective ratio of a row. -/
def EvidenceRow.ratio (row : EvidenceRow) : ℚ := row.objectiveEarned / row.objectivePossible

theorem cross_lt_iff {a b : EvidenceRow} (ha : 0 < a.objectivePossible)
    (hb : 0 < b.objectivePossible) :
    a.objectiveEarned * b.objectivePossible < b.objectiveEarned * a.objectivePossible ↔
      a.ratio < b.ratio := by
  have ha : (0 : ℚ) < a.objectivePossible := by exact_mod_cast ha
  have hb : (0 : ℚ) < b.objectivePossible := by exact_mod_cast hb
  rw [EvidenceRow.ratio, EvidenceRow.ratio, div_lt_div_iff₀ ha hb]
  norm_cast

theorem cross_eq_iff {a b : EvidenceRow} (ha : 0 < a.objectivePossible)
    (hb : 0 < b.objectivePossible) :
    a.objectiveEarned * b.objectivePossible = b.objectiveEarned * a.objectivePossible ↔
      a.ratio = b.ratio := by
  have ha : (a.objectivePossible : ℚ) ≠ 0 := by exact_mod_cast ha.ne'
  have hb : (b.objectivePossible : ℚ) ≠ 0 := by exact_mod_cast hb.ne'
  rw [EvidenceRow.ratio, EvidenceRow.ratio, div_eq_div_iff ha hb]
  norm_cast

section Rows

variable {rows : List EvidenceRow}

theorem foldl_cross_eq (row : EvidenceRow) (hrow : 0 < row.objectivePossible)
    (h : ∀ other ∈ rows, 0 < other.objectivePossible) :
    rows.foldl (fun best row =>
        if row.objectiveEarned * best.objectivePossible <
            best.objectiveEarned * row.objectivePossible then best
        else row) row =
      rows.foldl (fun best row => if row.ratio < best.ratio then best else row) row := by
  induction rows generalizing row with
  | nil => rfl
  | cons other rows ih =>
      have hother := h other List.mem_cons_self
      have hrest : ∀ other ∈ rows, 0 < other.objectivePossible := fun other hmem =>
        h other (List.mem_cons_of_mem _ hmem)
      rw [List.foldl_cons, List.foldl_cons]
      simp only [cross_lt_iff hother hrow]
      split
      · exact ih row hrow hrest
      · exact ih other hother hrest

/-- The scan finds a row with the greatest ratio. -/
theorem bestByRatio_eq (h : ∀ row ∈ rows, 0 < row.objectivePossible) :
    bestByRatio rows = Leaders.lastMax EvidenceRow.ratio rows := by
  cases rows with
  | nil => rfl
  | cons row rows =>
      have hrow := h row List.mem_cons_self
      have hrest : ∀ other ∈ rows, 0 < other.objectivePossible := fun other hmem =>
        h other (List.mem_cons_of_mem _ hmem)
      exact congrArg some (foldl_cross_eq row hrow hrest)

theorem objectivePossible_pos_of_mem_completed {row : EvidenceRow}
    (h : row ∈ rows.filter fun row => row.Completed) : 0 < row.objectivePossible :=
  (of_decide_eq_true (List.mem_filter.mp h).2).2.1

/-- No completed row beats a leader of the completed rows. -/
theorem waveLeaders_eq (rows : List EvidenceRow) :
    waveLeaders rows =
      Leaders.leaders EvidenceRow.ratio (rows.filter fun row => row.Completed) := by
  apply List.filter_congr
  intro candidate hcandidate
  have hpos := objectivePossible_pos_of_mem_completed hcandidate
  rw [decide_eq_decide, not_exists]
  apply forall_congr'
  intro better
  rw [not_and]
  apply imp_congr_right
  intro hbetter
  rw [cross_lt_iff hpos (objectivePossible_pos_of_mem_completed hbetter), not_lt]

/-- The rows that tie with the best one are the leaders. -/
theorem filter_cross_eq {best : EvidenceRow}
    (hbest : bestByRatio (rows.filter fun row => row.Completed) = some best) :
    best ∈ waveLeaders rows ∧
      ((rows.filter fun row => row.Completed).filter fun row =>
        row.objectiveEarned * best.objectivePossible =
          best.objectiveEarned * row.objectivePossible) = waveLeaders rows := by
  have hpos : ∀ row ∈ rows.filter fun row => row.Completed, 0 < row.objectivePossible :=
    fun row => objectivePossible_pos_of_mem_completed
  rw [bestByRatio_eq hpos] at hbest
  have hleader := Leaders.mem_leaders_of_lastMax hbest
  rw [waveLeaders_eq, Leaders.leaders_eq_filter hleader]
  constructor
  · rw [← Leaders.leaders_eq_filter hleader]
    exact hleader
  · apply List.filter_congr
    intro row hrow
    rw [decide_eq_decide]
    exact cross_eq_iff (hpos row hrow) (hpos best (Leaders.mem_leaders.mp hleader).1)

/-- A single crown passes the check exactly when it is the one leader. -/
theorem crown_eq_leader_iff {best crown : EvidenceRow} (hleaders : waveLeaders rows = [best])
    (hcrown : crown ∈ rows) (hactivity : 0 < crown.activityPossible) :
    (crown.activityEarned = crown.activityPossible ∧ 0 < crown.objectiveEarned ∧
        0 < crown.objectivePossible ∧
        crown.objectiveEarned * best.objectivePossible =
          best.objectiveEarned * crown.objectivePossible) ↔ crown = best := by
  have hbest : best ∈ waveLeaders rows := by rw [hleaders]; exact List.mem_singleton_self best
  rw [waveLeaders_eq] at hbest hleaders
  obtain ⟨hmem, -⟩ := Leaders.mem_leaders.mp hbest
  have hcompleted := of_decide_eq_true (List.mem_filter.mp hmem).2
  constructor
  · rintro ⟨hearned, hobjective, hpossible, hcross⟩
    have hcompleted' : crown ∈ rows.filter fun row => row.Completed :=
      List.mem_filter.mpr ⟨hcrown, decide_eq_true ⟨hactivity, hpossible, hearned, hobjective⟩⟩
    have hratio : crown.ratio = best.ratio := (cross_eq_iff hpossible hcompleted.2.1).mp hcross
    have hlead : crown ∈ Leaders.leaders EvidenceRow.ratio
        (rows.filter fun row => row.Completed) := by
      rw [Leaders.leaders_eq_filter hbest]
      exact List.mem_filter.mpr ⟨hcompleted', decide_eq_true hratio⟩
    rw [hleaders] at hlead
    exact List.mem_singleton.mp hlead
  · rintro rfl
    exact ⟨hcompleted.2.2.1, hcompleted.2.2.2, hcompleted.2.1, rfl⟩

/-- On rows with positive budgets, the check accepts exactly the crown of the unique
leader. -/
theorem leaderboardCrownIsValid_iff (hactivity : ∀ row ∈ rows, 0 < row.activityPossible) :
    leaderboardCrownIsValid rows = true ↔ rows.filter EvidenceRow.isCrown = uniqueLeader rows := by
  cases hbest : bestByRatio (rows.filter fun row => row.Completed) with
  | none =>
      simp only [leaderboardCrownIsValid, hbest]
      rw [bestByRatio_eq fun row => objectivePossible_pos_of_mem_completed,
        Leaders.lastMax_eq_none_iff] at hbest
      have hleaders : waveLeaders rows = [] := by rw [waveLeaders_eq, hbest]; rfl
      rw [uniqueLeader, hleaders]
      exact List.isEmpty_iff
  | some best =>
      obtain ⟨hmem, hties⟩ := filter_cross_eq hbest
      simp only [leaderboardCrownIsValid, hbest, hties, uniqueLeader]
      cases hleaders : waveLeaders rows with
      | nil => rw [hleaders] at hmem; exact absurd hmem List.not_mem_nil
      | cons leader others =>
          cases others with
          | cons other others =>
              rw [if_pos (by simp)]
              exact List.isEmpty_iff
          | nil =>
              rw [hleaders] at hmem
              obtain rfl := List.mem_singleton.mp hmem
              rw [if_neg (by simp)]
              cases hcrowns : rows.filter EvidenceRow.isCrown with
              | nil => simp
              | cons crown crowns =>
                  cases crowns with
                  | cons other crowns => simp
                  | nil =>
                      have hcrown : crown ∈ rows.filter EvidenceRow.isCrown := by
                        rw [hcrowns]
                        exact List.mem_singleton_self crown
                      have hcrown := List.mem_of_mem_filter hcrown
                      simp only [decide_eq_true_eq, List.cons.injEq, and_true]
                      exact crown_eq_leader_iff hleaders hcrown (hactivity crown hcrown)

/-- The participations of the leaders. -/
def leaderIds (rows : List EvidenceRow) : List ℤ :=
  (waveLeaders rows).map EvidenceRow.participationId

/-- Who leads does not depend on who wears the crown. -/
theorem waveLeaders_map_demote (rows : List EvidenceRow) :
    waveLeaders (rows.map EvidenceRow.demote) = (waveLeaders rows).map EvidenceRow.demote := by
  have hcompleted : (rows.map EvidenceRow.demote).filter (fun row => row.Completed) =
      (rows.filter fun row => row.Completed).map EvidenceRow.demote := by
    rw [List.filter_map]
    rfl
  rw [waveLeaders_eq, waveLeaders_eq, hcompleted, Leaders.leaders, Leaders.leaders,
    List.filter_map]
  congr 1
  apply List.filter_congr
  intro row _
  rw [Function.comp_apply, decide_eq_decide, List.forall_mem_map]
  rfl

theorem leaderIds_map_demote (rows : List EvidenceRow) :
    leaderIds (rows.map EvidenceRow.demote) = leaderIds rows := by
  rw [leaderIds, waveLeaders_map_demote, List.map_map]
  rfl

theorem leaderIds_congr {rows rows' : List EvidenceRow}
    (h : rows.map EvidenceRow.demote = rows'.map EvidenceRow.demote) :
    leaderIds rows = leaderIds rows' := by
  rw [← leaderIds_map_demote rows, h, leaderIds_map_demote]

/-- The update crowns a row exactly when its participation is the only leader. -/
theorem rederiveCrowns_eq (rows : List EvidenceRow) :
    rederiveCrowns rows =
      rows.map fun row => { row with isCrown := leaderIds rows = [row.participationId] } := by
  have hleaders : waveLeaders (rows.map EvidenceRow.demote) = _ := waveLeaders_map_demote rows
  rw [leaderIds, rederiveCrowns, hleaders]
  cases hcases : waveLeaders rows with
  | nil => simp [EvidenceRow.demote]
  | cons leader others =>
      cases others with
      | nil =>
          simp only [List.map_cons, List.map_nil, List.map_map]
          apply List.map_congr_left
          intro row _
          by_cases h : row.participationId = leader.participationId
          · simp [EvidenceRow.demote, h]
          · simp [EvidenceRow.demote, h, Ne.symm h]
      | cons other others => simp [EvidenceRow.demote]

/-- The crown rows are the unique leader. -/
def Crowned (rows : List EvidenceRow) : Prop :=
  rows.filter EvidenceRow.isCrown = uniqueLeader rows

theorem crowned_iff (hnd : (rows.map EvidenceRow.participationId).Nodup) :
    Crowned rows ↔
      ∀ row ∈ rows, row.isCrown = decide (leaderIds rows = [row.participationId]) := by
  have hmem : ∀ row ∈ waveLeaders rows, row ∈ rows := fun row h =>
    List.mem_of_mem_filter (List.mem_of_mem_filter h)
  rw [Crowned, uniqueLeader, leaderIds]
  cases hleaders : waveLeaders rows with
  | nil =>
      simp [List.filter_eq_nil_iff]
  | cons leader others =>
      cases others with
      | cons other others => simp [List.filter_eq_nil_iff]
      | nil =>
          have hleader : leader ∈ rows := hmem leader (by simp [hleaders])
          have hrows : rows.filter (fun row => leader.participationId = row.participationId) =
              [leader] := by
            have h := Keyed.rows_eq_nil_or_singleton hnd leader.participationId
            rcases h with hnil | ⟨row, hrow, hid, hone⟩
            · exact absurd hnil (Keyed.rows_ne_nil hleader)
            · rw [List.inj_on_of_nodup_map hnd hrow hleader hid] at hone
              simpa [Keyed.rows, eq_comm] using hone
          simp only [List.map_cons, List.map_nil, List.cons.injEq, and_true]
          rw [← hrows]
          constructor
          · intro h row hrow
            have hiff : row ∈ rows.filter EvidenceRow.isCrown ↔
                row ∈ rows.filter fun row => leader.participationId = row.participationId := by
              rw [h]
            rw [List.mem_filter, List.mem_filter] at hiff
            rw [Bool.eq_iff_iff]
            exact (and_congr_right_iff.mp hiff) hrow
          · intro h
            apply List.filter_congr
            exact h

theorem map_participationId_rederiveCrowns (rows : List EvidenceRow) :
    (rederiveCrowns rows).map EvidenceRow.participationId =
      rows.map EvidenceRow.participationId := by
  rw [rederiveCrowns_eq, List.map_map]
  rfl

/-- The update touches nothing but the crowns. -/
theorem map_demote_rederiveCrowns (rows : List EvidenceRow) :
    (rederiveCrowns rows).map EvidenceRow.demote = rows.map EvidenceRow.demote := by
  rw [rederiveCrowns_eq, List.map_map]
  rfl

/-- After the update the crown rows are the unique leader. -/
theorem crowned_rederiveCrowns (hnd : (rows.map EvidenceRow.participationId).Nodup) :
    Crowned (rederiveCrowns rows) := by
  rw [crowned_iff (by rwa [map_participationId_rederiveCrowns]),
    leaderIds_congr (map_demote_rederiveCrowns rows), rederiveCrowns_eq]
  intro row hrow
  obtain ⟨row, -, rfl⟩ := List.mem_map.mp hrow
  rfl

/-- Rows that are crowned already are left as they are. -/
theorem rederiveCrowns_of_crowned (hnd : (rows.map EvidenceRow.participationId).Nodup)
    (h : Crowned rows) : rederiveCrowns rows = rows := by
  have hid : ∀ row ∈ rows,
      { row with isCrown := decide (leaderIds rows = [row.participationId]) } = id row := by
    intro row hrow
    rw [← (crowned_iff hnd).mp h row hrow]
    rfl
  rw [rederiveCrowns_eq, List.map_congr_left hid, List.map_id]

theorem rederiveCrowns_congr {rows rows' : List EvidenceRow}
    (h : rows.map EvidenceRow.demote = rows'.map EvidenceRow.demote) :
    rederiveCrowns rows = rederiveCrowns rows' := by
  rw [rederiveCrowns, rederiveCrowns, h]

end Rows

end Leaderboard

end Rsctf
