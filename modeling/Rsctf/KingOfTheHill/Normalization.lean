import Rsctf.AttackDefense.Normalization
import Rsctf.KingOfTheHill.SplitInvariance

/-!
# Field-best normalization of the hills

Every hill maps the best event average of the field onto 100 points, and the hills are
added up by their shares of the weight.  The shares sum to one, so a total is a weighted
mean of the normalized hill scores, and no clamp changes anything.
-/

open Fallible Guarded Keyed Numbering

namespace Rsctf

namespace KingOfTheHill

open AttackDefense (Horizon)
open Scoring

def KothCellAggregate.points (cell : KothCellAggregate) : Horizon → ℚ
  | .settled => cell.settledPoints
  | .projected => cell.projectedPoints

def KothCellAggregate.weight (cell : KothCellAggregate) : Horizon → ℚ
  | .settled => cell.settledWeight
  | .projected => cell.projectedWeight

def KothCellAggregate.normalizedPoints (cell : KothCellAggregate) : Horizon → ℚ
  | .settled => cell.settledNormalizedPoints
  | .projected => cell.projectedNormalizedPoints

def KothTeamAggregate.total (team : KothTeamAggregate) : Horizon → ℚ
  | .settled => team.settledTotal
  | .projected => team.projectedTotal

def KothHillNormalization.fieldBest (hill : KothHillNormalization) : Horizon → ℚ
  | .settled => hill.settledFieldBest
  | .projected => hill.projectedFieldBest

def KothHillNormalization.multiplier (hill : KothHillNormalization) : Horizon → ℚ
  | .settled => hill.settledMultiplier
  | .projected => hill.projectedMultiplier

def KothHillNormalization.share (hill : KothHillNormalization) : Horizon → ℚ
  | .settled => hill.settledShare
  | .projected => hill.projectedShare

def HillField.best (field : HillField) : Horizon → ℚ
  | .settled => field.settledBest
  | .projected => field.projectedBest

def HillField.weight (field : HillField) : Horizon → ℚ
  | .settled => field.settledWeight
  | .projected => field.projectedWeight

section Spec

variable (horizon : Horizon)

/-- The normalized score of a team on a hill. -/
def KothTeamAggregate.hillScore (team : KothTeamAggregate) (challengeId : ℤ) : ℚ :=
  ((get Prod.fst challengeId team.cells).map (·.2.normalizedPoints horizon)).getD 0

/-- A hill on which the field was played. -/
def HasWeight (teams : List (ℤ × KothTeamAggregate)) : Prop :=
  ∃ team ∈ teams, ∃ cell ∈ team.2.cells, 0 < cell.2.weight horizon ∧ 0 < cell.2.serviceWeight

/-- What the board shows after the normalization. -/
structure FieldBestNormalized (teams : List (ℤ × KothTeamAggregate))
    (hills : List (ℤ × KothHillNormalization)) : Prop where
  shares_sum : HasWeight horizon teams → (hills.map (·.2.share horizon)).sum = 1
  shares_zero : ¬HasWeight horizon teams → ∀ hill ∈ hills, hill.2.share horizon = 0
  total_eq : ∀ team ∈ teams, team.2.total horizon =
    (hills.map fun hill => hill.2.share horizon * team.2.hillScore horizon hill.1).sum
  total_mem : ∀ team ∈ teams, 0 ≤ team.2.total horizon ∧ team.2.total horizon ≤ 100
  normalized_eq : ∀ team ∈ teams, ∀ cell ∈ team.2.cells, ∃ hill ∈ hills, hill.1 = cell.1 ∧
    cell.2.normalizedPoints horizon = cell.2.points horizon * hill.2.multiplier horizon
  order : ∀ team ∈ teams, ∀ team' ∈ teams, ∀ cell ∈ team.2.cells, ∀ cell' ∈ team'.2.cells,
    cell.1 = cell'.1 → (cell.2.points horizon ≤ cell'.2.points horizon ↔
      cell.2.normalizedPoints horizon ≤ cell'.2.normalizedPoints horizon)
  best : ∀ team ∈ teams, ∀ cell ∈ team.2.cells,
    (∀ team' ∈ teams, ∀ cell' ∈ team'.2.cells, cell'.1 = cell.1 →
      cell'.2.points horizon ≤ cell.2.points horizon) →
    cell.2.normalizedPoints horizon = min 100 (4 * cell.2.points horizon)

/-- An average over the event, which is zero as long as it has no weight. -/
structure KothCellAggregate.Averaged (cell : KothCellAggregate) : Prop where
  points_mem : 0 ≤ cell.points horizon ∧ cell.points horizon ≤ 100
  points_of_weight : cell.weight horizon ≤ 0 → cell.points horizon = 0

end Spec

section Pass

variable {horizon : Horizon} {cells : List (ℤ × KothCellAggregate)}

/-- The field of one hill. -/
def fieldOf (cells : List (ℤ × KothCellAggregate)) (challengeId : ℤ) : HillField :=
  hillField ((rows Prod.fst challengeId cells).map Prod.snd)

def hillIds (cells : List (ℤ × KothCellAggregate)) : List ℤ := sortedKeys (cells.map Prod.fst)

/-- The normalization of one hill. -/
def hillOf (cells : List (ℤ × KothCellAggregate)) (challengeId : ℤ) : KothHillNormalization where
  settledFieldBest := (fieldOf cells challengeId).settledBest
  projectedFieldBest := (fieldOf cells challengeId).projectedBest
  settledMultiplier := fieldBestMultiplier (fieldOf cells challengeId).settledBest
  projectedMultiplier := fieldBestMultiplier (fieldOf cells challengeId).projectedBest
  settledShare := ratio (fieldOf cells challengeId).settledWeight
    ((hillIds cells).map fun id => (fieldOf cells id).settledWeight).sum
  projectedShare := ratio (fieldOf cells challengeId).projectedWeight
    ((hillIds cells).map fun id => (fieldOf cells id).projectedWeight).sum

theorem hillNormalizations_eq (cells : List (ℤ × KothCellAggregate)) :
    hillNormalizations cells = (hillIds cells).map fun id => (id, hillOf cells id) := by
  unfold hillNormalizations
  dsimp only
  rw [List.map_map, List.map_map, List.map_map]
  rfl

theorem hillOf_fieldBest (cells : List (ℤ × KothCellAggregate)) (challengeId : ℤ) :
    (hillOf cells challengeId).fieldBest horizon = (fieldOf cells challengeId).best horizon := by
  cases horizon <;> rfl

theorem hillOf_multiplier (cells : List (ℤ × KothCellAggregate)) (challengeId : ℤ) :
    (hillOf cells challengeId).multiplier horizon =
      fieldBestMultiplier ((fieldOf cells challengeId).best horizon) := by
  cases horizon <;> rfl

theorem hillOf_share (cells : List (ℤ × KothCellAggregate)) (challengeId : ℤ) :
    (hillOf cells challengeId).share horizon = ratio ((fieldOf cells challengeId).weight horizon)
      ((hillIds cells).map fun id => (fieldOf cells id).weight horizon).sum := by
  cases horizon <;> rfl

theorem mem_hillIds {cell : ℤ × KothCellAggregate} (hcell : cell ∈ cells) :
    cell.1 ∈ hillIds cells :=
  mem_sortedKeys.mpr (List.mem_map_of_mem hcell)

theorem get_hillNormalizations {cell : ℤ × KothCellAggregate} (hcell : cell ∈ cells) :
    get Prod.fst cell.1 (hillNormalizations cells) = some (cell.1, hillOf cells cell.1) := by
  rw [hillNormalizations_eq]
  exact get_graph _ (mem_hillIds hcell)

section Field

theorem fieldOf_best_eq (challengeId : ℤ) : (fieldOf cells challengeId).best horizon =
    ((((rows Prod.fst challengeId cells).map Prod.snd).filter fun cell =>
      0 < cell.weight horizon).map (·.points horizon)).foldl max 0 := by
  cases horizon <;> rfl

theorem fieldOf_weight_eq (challengeId : ℤ) : (fieldOf cells challengeId).weight horizon =
    ((((rows Prod.fst challengeId cells).map Prod.snd).filter fun cell =>
      0 < cell.weight horizon).map fun cell =>
        cell.serviceWeight * cell.weight horizon).foldl max 0 := by
  cases horizon <;> rfl

theorem fieldOf_weight_nonneg (challengeId : ℤ) :
    0 ≤ (fieldOf cells challengeId).weight horizon := by
  rw [fieldOf_weight_eq]
  exact start_le_foldl_max _ _

theorem fieldOf_best_nonneg (challengeId : ℤ) : 0 ≤ (fieldOf cells challengeId).best horizon := by
  rw [fieldOf_best_eq]
  exact start_le_foldl_max _ _

theorem fieldOf_best_le {bound : ℚ} (hbound : 0 ≤ bound) {challengeId : ℤ}
    (h : ∀ cell ∈ cells, cell.1 = challengeId → cell.2.points horizon ≤ bound) :
    (fieldOf cells challengeId).best horizon ≤ bound := by
  rw [fieldOf_best_eq]
  apply foldl_max_le hbound
  intro points hpoints
  obtain ⟨cell, hcell, rfl⟩ := List.mem_map.mp hpoints
  obtain ⟨pair, hpair, rfl⟩ := List.mem_map.mp (List.mem_of_mem_filter hcell)
  obtain ⟨hmem, hid⟩ := mem_rows.mp hpair
  exact h pair hmem hid

theorem points_le_best {cell : ℤ × KothCellAggregate} (hcell : cell ∈ cells)
    (havg : cell.2.Averaged horizon) :
    cell.2.points horizon ≤ (fieldOf cells cell.1).best horizon := by
  by_cases hweight : 0 < cell.2.weight horizon
  · rw [fieldOf_best_eq]
    apply le_foldl_max
    apply List.mem_map_of_mem (f := fun cell : KothCellAggregate => cell.points horizon)
    refine List.mem_filter.mpr ⟨?_, decide_eq_true hweight⟩
    exact List.mem_map_of_mem (mem_rows.mpr ⟨hcell, rfl⟩)
  · rw [havg.points_of_weight (not_lt.mp hweight)]
    exact fieldOf_best_nonneg _

theorem exists_weight_of_pos {challengeId : ℤ}
    (h : 0 < (fieldOf cells challengeId).weight horizon) :
    ∃ cell ∈ cells, 0 < cell.2.weight horizon ∧ 0 < cell.2.serviceWeight := by
  by_contra hnone
  push Not at hnone
  rw [fieldOf_weight_eq] at h
  refine h.not_ge (foldl_max_le (le_refl 0) fun weight hweight => ?_)
  obtain ⟨cell, hcell, rfl⟩ := List.mem_map.mp hweight
  obtain ⟨hrow, hpos⟩ := List.mem_filter.mp hcell
  obtain ⟨pair, hpair, rfl⟩ := List.mem_map.mp hrow
  have hpos := of_decide_eq_true hpos
  exact mul_nonpos_of_nonpos_of_nonneg (hnone pair (mem_rows.mp hpair).1 hpos) hpos.le

theorem weight_pos_of_mem {cell : ℤ × KothCellAggregate} (hcell : cell ∈ cells)
    (hweight : 0 < cell.2.weight horizon) (hservice : 0 < cell.2.serviceWeight) :
    0 < (fieldOf cells cell.1).weight horizon := by
  refine (mul_pos hservice hweight).trans_le ?_
  rw [fieldOf_weight_eq]
  apply le_foldl_max
  apply List.mem_map_of_mem
    (f := fun cell : KothCellAggregate => cell.serviceWeight * cell.weight horizon)
  refine List.mem_filter.mpr ⟨?_, decide_eq_true hweight⟩
  exact List.mem_map_of_mem (mem_rows.mpr ⟨hcell, rfl⟩)

end Field

section Share

theorem totalWeight_nonneg :
    0 ≤ ((hillIds cells).map fun id => (fieldOf cells id).weight horizon).sum := by
  refine List.sum_nonneg fun weight hweight => ?_
  obtain ⟨id, -, rfl⟩ := List.mem_map.mp hweight
  exact fieldOf_weight_nonneg id

theorem totalWeight_pos_iff :
    0 < ((hillIds cells).map fun id => (fieldOf cells id).weight horizon).sum ↔
      ∃ cell ∈ cells, 0 < cell.2.weight horizon ∧ 0 < cell.2.serviceWeight := by
  constructor
  · intro hpos
    by_contra hnone
    refine hpos.ne' (List.sum_eq_zero fun weight hweight => ?_)
    obtain ⟨id, -, rfl⟩ := List.mem_map.mp hweight
    refine le_antisymm ?_ (fieldOf_weight_nonneg id)
    exact not_lt.mp fun hfield => hnone (exists_weight_of_pos hfield)
  · rintro ⟨cell, hcell, hweight, hservice⟩
    have hfield := weight_pos_of_mem hcell hweight hservice
    refine hfield.trans_le (List.single_le_sum ?_ _ (List.mem_map_of_mem (mem_hillIds hcell)))
    intro weight hmem
    obtain ⟨id, -, rfl⟩ := List.mem_map.mp hmem
    exact fieldOf_weight_nonneg id

theorem share_nonneg (challengeId : ℤ) : 0 ≤ (hillOf cells challengeId).share horizon := by
  rw [hillOf_share]
  exact ratio_nonneg (fieldOf_weight_nonneg challengeId)

variable (horizon cells) in
theorem sum_share : ((hillIds cells).map fun id => (hillOf cells id).share horizon).sum =
    if 0 < ((hillIds cells).map fun id => (fieldOf cells id).weight horizon).sum then 1
    else 0 := by
  simp only [hillOf_share]
  exact sum_ratio (fun id => (fieldOf cells id).weight horizon) (hillIds cells)

variable (horizon cells) in
theorem sum_share_le : ((hillIds cells).map fun id => (hillOf cells id).share horizon).sum ≤ 1 := by
  rw [sum_share]
  split
  · exact le_refl 1
  · exact zero_le_one

end Share

section Cell

variable {cell : ℤ × KothCellAggregate}

variable (cells) in
/-- A cell after the normalization of its hill. -/
def normalizedCell (cell : ℤ × KothCellAggregate) : ℤ × KothCellAggregate :=
  normalizeCell (hillNormalizations cells) cell

theorem normalizedCell_fst (cell : ℤ × KothCellAggregate) :
    (normalizedCell cells cell).1 = cell.1 := by
  unfold normalizedCell normalizeCell
  split <;> rfl

theorem normalizedCell_kept (cell : ℤ × KothCellAggregate) :
    (normalizedCell cells cell).2.points horizon = cell.2.points horizon ∧
      (normalizedCell cells cell).2.weight horizon = cell.2.weight horizon := by
  unfold normalizedCell normalizeCell
  split <;> cases horizon <;> exact ⟨rfl, rfl⟩

theorem normalizedCell_serviceWeight (cell : ℤ × KothCellAggregate) :
    (normalizedCell cells cell).2.serviceWeight = cell.2.serviceWeight := by
  unfold normalizedCell normalizeCell
  split <;> rfl

/-- The normalization never clamps an average. -/
theorem normalizedCell_points (hcell : cell ∈ cells)
    (havg : ∀ cell ∈ cells, cell.2.Averaged horizon) :
    (normalizedCell cells cell).2.normalizedPoints horizon =
      cell.2.points horizon * (hillOf cells cell.1).multiplier horizon := by
  have hbest : (fieldOf cells cell.1).best horizon ≤ 100 :=
    fieldOf_best_le (by norm_num) fun other hother _ => (havg other hother).points_mem.2
  have hunclamped := normalizeToFieldBest_eq (havg cell hcell).points_mem.1
    (points_le_best hcell (havg cell hcell)) hbest
  rw [hillOf_multiplier, ← hunclamped, ← hillOf_fieldBest]
  unfold normalizedCell normalizeCell
  rw [get_hillNormalizations hcell]
  cases horizon <;> rfl

theorem normalizedCell_points_mem (hcell : cell ∈ cells) :
    0 ≤ (normalizedCell cells cell).2.normalizedPoints horizon ∧
      (normalizedCell cells cell).2.normalizedPoints horizon ≤ 100 := by
  unfold normalizedCell normalizeCell
  rw [get_hillNormalizations hcell]
  cases horizon
  · exact normalizeToFieldBest_mem _ _
  · exact normalizeToFieldBest_mem _ _

/-- The best team on a hill receives four times its average, at most 100. -/
theorem normalizedCell_best (hcell : cell ∈ cells)
    (havg : ∀ cell ∈ cells, cell.2.Averaged horizon)
    (hbest : ∀ other ∈ cells, other.1 = cell.1 →
      other.2.points horizon ≤ cell.2.points horizon) :
    (normalizedCell cells cell).2.normalizedPoints horizon =
      min 100 (4 * cell.2.points horizon) := by
  obtain ⟨hnonneg, hle⟩ := (havg cell hcell).points_mem
  have hfield : (fieldOf cells cell.1).best horizon = cell.2.points horizon :=
    le_antisymm (fieldOf_best_le hnonneg hbest) (points_le_best hcell (havg cell hcell))
  rw [normalizedCell_points hcell havg, hillOf_multiplier, hfield]
  exact fieldBest_mul_multiplier hnonneg hle

end Cell

section Team

variable {team : KothTeamAggregate}

variable (cells) in
/-- A team after the normalization of the hills. -/
def normalizedTeam (team : KothTeamAggregate) : KothTeamAggregate :=
  normalizeTeam (hillNormalizations cells) team

theorem normalizedTeam_cells : (normalizedTeam cells team).cells =
    team.cells.map (normalizedCell cells) := rfl

/-- The points which the hills of a team add to its total. -/
theorem sum_normalizedShare (hteam : ∀ cell ∈ team.cells, cell ∈ cells)
    (hnd : (team.cells.map Prod.fst).Nodup) (share : KothHillNormalization → ℚ)
    (points : KothCellAggregate → ℚ) :
    ((normalizedTeam cells team).cells.map
        (normalizedShare (hillNormalizations cells) share points)).sum =
      ((hillIds cells).map fun id => share (hillOf cells id) *
        ((get Prod.fst id (normalizedTeam cells team).cells).map fun cell =>
          points cell.2).getD 0).sum := by
  set normalized := (normalizedTeam cells team).cells with hnormalized
  have hfst : normalized.map Prod.fst = team.cells.map Prod.fst := by
    rw [hnormalized, normalizedTeam_cells, List.map_map]
    exact List.map_congr_left fun cell _ => normalizedCell_fst cell
  have hcover : ∀ cell ∈ normalized, cell.1 ∈ hillIds cells := by
    intro cell hcell
    have hid : cell.1 ∈ team.cells.map Prod.fst := hfst ▸ List.mem_map_of_mem hcell
    obtain ⟨original, horiginal, heq⟩ := List.mem_map.mp hid
    rw [← heq]
    exact mem_hillIds (hteam original horiginal)
  have hshare : ∀ cell ∈ normalized,
      normalizedShare (hillNormalizations cells) share points cell =
        share (hillOf cells cell.1) * points cell.2 := by
    intro cell hcell
    rw [normalizedShare, hillNormalizations_eq, get_graph _ (hcover cell hcell)]
    rfl
  rw [List.map_congr_left hshare, ← Grouping.sum_rows
    (fun cell : ℤ × KothCellAggregate => share (hillOf cells cell.1) * points cell.2)
    (nodup_sortedKeys (cells.map Prod.fst)) hcover]
  refine congrArg List.sum (List.map_congr_left fun id _ => ?_)
  rcases rows_eq_nil_or_singleton (hfst ▸ hnd) id with hnil | ⟨cell, hcell, hid, hone⟩
  · have hget : get Prod.fst id normalized = none := by
      apply get_eq_none_iff.mpr
      intro cell hcell hid
      have hrow : cell ∈ rows Prod.fst id normalized := mem_rows.mpr ⟨hcell, hid⟩
      rw [hnil] at hrow
      simp at hrow
    rw [hnil, hget]
    simp
  · have hget : get Prod.fst id normalized = some cell :=
      (get_eq_some_iff (hfst ▸ hnd)).mpr ⟨hcell, hid⟩
    rw [hone, hget, ← hid]
    simp

theorem hillScore_mem (hteam : ∀ cell ∈ team.cells, cell ∈ cells) (challengeId : ℤ) :
    0 ≤ (normalizedTeam cells team).hillScore horizon challengeId ∧
      (normalizedTeam cells team).hillScore horizon challengeId ≤ 100 := by
  unfold KothTeamAggregate.hillScore
  cases hget : get Prod.fst challengeId (normalizedTeam cells team).cells with
  | none => norm_num
  | some cell =>
      obtain ⟨original, horiginal, rfl⟩ := List.mem_map.mp (mem_of_get hget).1
      exact normalizedCell_points_mem (hteam original horiginal)

variable (horizon) in
theorem sum_hillScore_mem (hteam : ∀ cell ∈ team.cells, cell ∈ cells) :
    0 ≤ ((hillIds cells).map fun id => (hillOf cells id).share horizon *
        (normalizedTeam cells team).hillScore horizon id).sum ∧
      ((hillIds cells).map fun id => (hillOf cells id).share horizon *
        (normalizedTeam cells team).hillScore horizon id).sum ≤ 100 := by
  constructor
  · refine List.sum_nonneg fun points hpoints => ?_
    obtain ⟨id, -, rfl⟩ := List.mem_map.mp hpoints
    exact mul_nonneg (share_nonneg id) (hillScore_mem hteam id).1
  · calc ((hillIds cells).map fun id => (hillOf cells id).share horizon *
          (normalizedTeam cells team).hillScore horizon id).sum
        ≤ ((hillIds cells).map fun id => (hillOf cells id).share horizon * 100).sum :=
          List.sum_le_sum fun id _ =>
            mul_le_mul_of_nonneg_left (hillScore_mem hteam id).2 (share_nonneg id)
      _ = ((hillIds cells).map fun id => (hillOf cells id).share horizon).sum * 100 :=
          List.sum_map_mul_right ..
      _ ≤ 100 := by
          have hle := sum_share_le horizon cells
          linarith

/-- The total of a team is the sum over the hills, and its clamp changes nothing. -/
theorem normalizedTeam_total (hteam : ∀ cell ∈ team.cells, cell ∈ cells)
    (hnd : (team.cells.map Prod.fst).Nodup) :
    (normalizedTeam cells team).total horizon =
      ((hillIds cells).map fun id => (hillOf cells id).share horizon *
        (normalizedTeam cells team).hillScore horizon id).sum := by
  have hmem := sum_hillScore_mem horizon hteam
  have hclamp : (normalizedTeam cells team).total horizon = clamp 0 100
      ((normalizedTeam cells team).cells.map (normalizedShare (hillNormalizations cells)
        (·.share horizon) (·.normalizedPoints horizon))).sum := by
    cases horizon <;> rfl
  rw [hclamp, sum_normalizedShare hteam hnd]
  exact clamp_eq_self hmem.1 hmem.2

end Team

end Pass

/-- A board of averages over the event is normalized as intended. -/
theorem fieldBestNormalized_of_averaged (horizon : Horizon) (teams : List (ℤ × KothTeamAggregate))
    (hnd : ∀ team ∈ teams, (team.2.cells.map Prod.fst).Nodup)
    (havg : ∀ team ∈ teams, ∀ cell ∈ team.2.cells, cell.2.Averaged horizon) :
    FieldBestNormalized horizon (applyFieldBestNormalization teams).1
      (applyFieldBestNormalization teams).2 := by
  set cells := teams.flatMap fun team => team.2.cells with hcells
  have hteams : (applyFieldBestNormalization teams).1 =
      teams.map fun team => (team.1, normalizedTeam cells team.2) := rfl
  have hhills : (applyFieldBestNormalization teams).2 =
      (hillIds cells).map fun id => (id, hillOf cells id) := hillNormalizations_eq cells
  have horigin : ∀ team ∈ (applyFieldBestNormalization teams).1, ∃ original ∈ teams,
      team = (original.1, normalizedTeam cells original.2) := by
    intro team hteam
    obtain ⟨original, horiginal, heq⟩ := List.mem_map.mp hteam
    exact ⟨original, horiginal, heq.symm⟩
  have horiginCell : ∀ original ∈ teams, ∀ cell ∈ (normalizedTeam cells original.2).cells,
      ∃ cell' ∈ cells, (cell' ∈ original.2.cells) ∧ cell = normalizedCell cells cell' := by
    intro original horiginal cell hcell
    obtain ⟨cell', hcell', heq⟩ := List.mem_map.mp hcell
    exact ⟨cell', List.mem_flatMap.mpr ⟨original, horiginal, hcell'⟩, hcell', heq.symm⟩
  have hshown : ∀ cell ∈ cells, ∃ team ∈ (applyFieldBestNormalization teams).1,
      normalizedCell cells cell ∈ team.2.cells := by
    intro cell hcell
    obtain ⟨original, horiginal, hcell⟩ := List.mem_flatMap.mp hcell
    exact ⟨(original.1, normalizedTeam cells original.2), List.mem_map_of_mem horiginal,
      List.mem_map_of_mem hcell⟩
  have hmem : ∀ team ∈ teams, ∀ cell ∈ team.2.cells, cell ∈ cells := fun team hteam cell hcell =>
    List.mem_flatMap.mpr ⟨team, hteam, hcell⟩
  have havgCells : ∀ cell ∈ cells, cell.2.Averaged horizon := by
    intro cell hcell
    obtain ⟨team, hteam, hcell⟩ := List.mem_flatMap.mp hcell
    exact havg team hteam cell hcell
  have hweight : HasWeight horizon (applyFieldBestNormalization teams).1 ↔
      0 < ((hillIds cells).map fun id => (fieldOf cells id).weight horizon).sum := by
    rw [totalWeight_pos_iff]
    constructor
    · intro ⟨team, hteam, cell, hcell, hpos⟩
      obtain ⟨original, horiginal, rfl⟩ := horigin team hteam
      obtain ⟨cell', hcell', -, rfl⟩ := horiginCell original horiginal cell hcell
      rw [(normalizedCell_kept cell').2, normalizedCell_serviceWeight] at hpos
      exact ⟨cell', hcell', hpos⟩
    · intro ⟨cell, hcell, hpos⟩
      obtain ⟨team, hteam, hcell⟩ := hshown cell hcell
      refine ⟨team, hteam, normalizedCell cells cell, hcell, ?_⟩
      rw [(normalizedCell_kept cell).2, normalizedCell_serviceWeight]
      exact hpos
  constructor
  · intro hhas
    rw [hhills, List.map_map]
    exact (sum_share horizon cells).trans (if_pos (hweight.mp hhas))
  · intro hnone hill hhill
    rw [hhills] at hhill
    obtain ⟨id, -, rfl⟩ := List.mem_map.mp hhill
    rw [hillOf_share]
    exact if_neg fun hpos => hnone (hweight.mpr hpos)
  · intro team hteam
    obtain ⟨original, horiginal, rfl⟩ := horigin team hteam
    rw [hhills, List.map_map]
    exact normalizedTeam_total (hmem original horiginal) (hnd original horiginal)
  · intro team hteam
    obtain ⟨original, horiginal, rfl⟩ := horigin team hteam
    dsimp only
    rw [normalizedTeam_total (hmem original horiginal) (hnd original horiginal)]
    exact sum_hillScore_mem horizon (hmem original horiginal)
  · intro team hteam cell hcell
    obtain ⟨original, horiginal, rfl⟩ := horigin team hteam
    obtain ⟨cell', hcell', -, rfl⟩ := horiginCell original horiginal cell hcell
    refine ⟨(cell'.1, hillOf cells cell'.1), ?_, (normalizedCell_fst cell').symm, ?_⟩
    · rw [hhills]
      exact List.mem_map_of_mem (mem_hillIds hcell')
    · rw [normalizedCell_points hcell' havgCells, (normalizedCell_kept cell').1]
  · intro team₁ hteam₁ team₂ hteam₂ cell₁ hcell₁ cell₂ hcell₂ hid
    obtain ⟨original₁, horiginal₁, rfl⟩ := horigin team₁ hteam₁
    obtain ⟨original₂, horiginal₂, rfl⟩ := horigin team₂ hteam₂
    obtain ⟨cell₁, hmem₁, -, rfl⟩ := horiginCell original₁ horiginal₁ cell₁ hcell₁
    obtain ⟨cell₂, hmem₂, -, rfl⟩ := horiginCell original₂ horiginal₂ cell₂ hcell₂
    rw [normalizedCell_fst, normalizedCell_fst] at hid
    have hpos : 0 < (hillOf cells cell₂.1).multiplier horizon := by
      rw [hillOf_multiplier]
      exact zero_lt_one.trans_le (one_le_fieldBestMultiplier _)
    rw [normalizedCell_points hmem₁ havgCells, normalizedCell_points hmem₂ havgCells,
      (normalizedCell_kept cell₁).1, (normalizedCell_kept cell₂).1, hid]
    exact (mul_le_mul_iff_of_pos_right hpos).symm
  · intro team hteam cell hcell hbest
    obtain ⟨original, horiginal, rfl⟩ := horigin team hteam
    obtain ⟨cell', hcell', -, rfl⟩ := horiginCell original horiginal cell hcell
    rw [(normalizedCell_kept cell').1] at hbest ⊢
    apply normalizedCell_best hcell' havgCells
    intro other hother hid
    obtain ⟨team', hteam', hother⟩ := hshown other hother
    have hle := hbest team' hteam' (normalizedCell cells other) hother
      (by rw [normalizedCell_fst, normalizedCell_fst, hid])
    rwa [(normalizedCell_kept other).1] at hle

section Evidence

variable {sqrt : ℚ → ℚ} {config : OfficialConfig} {eventEnded : Bool}
  {epochs : List EpochEvidence} {participationId challengeId : ℤ}

theorem cellTotals_pointsNumerator_mem {cells : List ScoredCellEpoch}
    (h : ∀ cell ∈ cells, (0 ≤ cell.score.localPoints ∧ cell.score.localPoints ≤ 100) ∧
      0 ≤ cell.weight) :
    0 ≤ (cellTotals cells).pointsNumerator ∧
      (cellTotals cells).pointsNumerator ≤ 100 * (cellTotals cells).weight := by
  rw [column_cellTotals (·.pointsNumerator) rfl fun _ _ => rfl,
    column_cellTotals (·.weight) rfl fun _ _ => rfl]
  constructor
  · refine List.sum_nonneg fun points hpoints => ?_
    obtain ⟨cell, hcell, rfl⟩ := List.mem_map.mp hpoints
    exact mul_nonneg (h cell hcell).1.1 (h cell hcell).2
  · rw [← List.sum_map_mul_left]
    exact List.sum_le_sum fun cell hcell =>
      mul_le_mul_of_nonneg_right (h cell hcell).1.2 (h cell hcell).2

theorem hillCells_mem (hvalid : ∀ e ∈ epochs, e.Valid config)
    (hmember : participationId ∈ config.rosterIds) {cell : ScoredCellEpoch}
    (hcell : cell ∈ hillCells sqrt config eventEnded participationId challengeId epochs) :
    (0 ≤ cell.score.localPoints ∧ cell.score.localPoints ≤ 100) ∧ 0 ≤ cell.weight := by
  refine ⟨?_, hillCells_weight_nonneg hcell⟩
  obtain ⟨e, he, hcell, -⟩ := mem_hillCells.mp hcell
  obtain ⟨row, hrow, rfl⟩ := List.mem_map.mp hcell
  exact (hillScore_valid sqrt (hvalid e he participationId hmember row hrow)).localPoints_mem

/-- The cells of a scored team are averages over the event. -/
theorem averaged_teamCells (horizon : Horizon) (hvalid : ∀ e ∈ epochs, e.Valid config)
    (hmember : participationId ∈ config.rosterIds) {cell : ℤ × KothCellAggregate}
    (hcell : cell ∈ teamCells sqrt config eventEnded participationId epochs) :
    cell.2.Averaged horizon := by
  obtain ⟨hill, -, rfl⟩ := List.mem_map.mp hcell
  have haverage : ∀ cells ⊆ hillCells sqrt config eventEnded participationId hill epochs,
      (0 ≤ ratio (cellTotals cells).pointsNumerator (cellTotals cells).weight ∧
        ratio (cellTotals cells).pointsNumerator (cellTotals cells).weight ≤ 100) ∧
      ((cellTotals cells).weight ≤ 0 →
        ratio (cellTotals cells).pointsNumerator (cellTotals cells).weight = 0) := by
    intro cells hsub
    have hmem := cellTotals_pointsNumerator_mem fun cell hcell =>
      hillCells_mem hvalid hmember (hsub hcell)
    exact ⟨⟨ratio_nonneg hmem.1, ratio_le (by norm_num) hmem.2⟩,
      fun hweight => if_neg hweight.not_gt⟩
  cases horizon with
  | settled =>
      obtain ⟨hpoints, hweight⟩ := haverage _ (List.filter_subset_self _)
      exact ⟨hpoints, hweight⟩
  | projected =>
      obtain ⟨hpoints, hweight⟩ := haverage _ (List.Subset.refl _)
      exact ⟨hpoints, hweight⟩

/-- The board of the merged teams is normalized, whatever epochs its timelines leave out. -/
theorem fieldBestNormalized_mergedTeams (horizon : Horizon) (skipped : ℕ)
    (hvalid : ∀ e ∈ epochs, e.Valid config) :
    FieldBestNormalized horizon
      (skipEpochs skipped
        (applyFieldBestNormalization (mergedTeams sqrt config eventEnded epochs)).1)
      (applyFieldBestNormalization (mergedTeams sqrt config eventEnded epochs)).2 := by
  have hskip := applyFieldBestNormalization_skipEpochs skipped
    (mergedTeams sqrt config eventEnded epochs)
  have hteam : ∀ team ∈ skipEpochs skipped (mergedTeams sqrt config eventEnded epochs),
      ∃ participationId ∈ config.rosterIds,
        team.2.cells = teamCells sqrt config eventEnded participationId epochs := by
    intro team hteam
    obtain ⟨merged, hmerged, rfl⟩ := List.mem_map.mp hteam
    obtain ⟨participationId, hmember, rfl⟩ := List.mem_map.mp hmerged
    exact ⟨participationId, hmember, rfl⟩
  have hnormalized := fieldBestNormalized_of_averaged horizon
    (skipEpochs skipped (mergedTeams sqrt config eventEnded epochs)) ?_ ?_
  · rw [hskip] at hnormalized
    exact hnormalized
  · intro team hmem
    obtain ⟨participationId, -, hcells⟩ := hteam team hmem
    have hids : team.2.cells.map Prod.fst = config.hillOrder := by
      rw [hcells, teamCells, cellsOfTotals, List.map_map]
      exact List.map_id _
    rw [hids]
    exact nodup_sortedKeys _
  · intro team hmem cell hcell
    obtain ⟨participationId, hmember, hcells⟩ := hteam team hmem
    rw [hcells] at hcell
    exact averaged_teamCells horizon hvalid hmember hcell

/-- **Field-best normalization of the King of the Hill board.**  For a frozen configuration
and any sequence of complete epochs, with any immutable prefix of it sealed: the shares of
the hills add up to one, every total is the sum of the shares of the normalized hill scores
and lies in `[0, 100]` without a clamp, the normalized scores keep order and ties of the
averages, and the best team on a hill receives four times its average, at most 100. -/
theorem fieldBestNormalized_loadKothScoring (sqrt : ℚ → ℚ) (config : OfficialConfig)
    (eventEnded : Bool) (currentEpoch : ℤ) (sequence : EpochSequence config)
    (finalizedRound : EpochEvidence → ℤ) (k : ℕ)
    (himmutable : ∀ e ∈ sequence.epochs.take k,
      e.immutable config.epochTicks eventEnded = true)
    (store : RollupStore)
    (hstore : foldRollups sqrt config eventEnded finalizedRound (sequence.epochs.take k) =
      .ok store)
    (scored : KothScoringSnapshot)
    (hscored : loadKothScoring sqrt config eventEnded currentEpoch
      (loadRollupSnapshot store none none) sequence.epochs = .ok scored) (horizon : Horizon) :
    FieldBestNormalized horizon scored.teams scored.hills := by
  set epochs := sequence.epochs
  have hnum : Numbered (epochs.map (·.epoch)) := sequence.numbered
  have hcomplete : ∀ e ∈ epochs, e.Complete config := sequence.complete
  have hsplit : epochs.take k ++ epochs.drop k = epochs := List.take_append_drop k epochs
  have htake : ∀ e ∈ epochs.take k, e ∈ epochs := fun e he => List.mem_of_mem_take he
  have hdrop : ∀ e ∈ epochs.drop k, e ∈ epochs := fun e he => List.mem_of_mem_drop he
  have hnumTake : Numbered ((epochs.take k).map (·.epoch)) := by
    rw [← hsplit] at hnum
    exact hnum.of_map_append
  by_cases hmetas : ∀ e ∈ epochs, e.hillMetas = []
  · -- nothing was played, so no team has a cell
    rw [foldRollups_of_hillMetas_nil fun e he => hmetas e (htake e he)] at hstore
    obtain rfl := Except.ok.inj hstore
    have hraw : ((epochs.filter fun e => (loadRollupSnapshot RollupStore.empty none
        none).firstRawEpoch ≤ e.epoch).flatMap (·.hillMetas)) = [] :=
      List.flatMap_eq_nil_iff.mpr fun e he => hmetas e (List.mem_of_mem_filter he)
    rw [loadKothScoring, hraw] at hscored
    obtain rfl := Except.ok.inj hscored
    apply fieldBestNormalized_of_averaged
    · intro team hteam
      obtain ⟨participationId, -, rfl⟩ := List.mem_map.mp hteam
      exact List.nodup_nil
    · intro team hteam cell hcell
      obtain ⟨participationId, -, rfl⟩ := List.mem_map.mp hteam
      have hnone : (mergeTeam (loadRollupSnapshot RollupStore.empty none none)
          KothScoringSnapshot.empty participationId).cells = [] := rfl
      rw [hnone] at hcell
      simp at hcell
  · push Not at hmetas
    obtain ⟨e, he, hne⟩ := hmetas
    have hhills : config.hills ≠ [] := by
      intro hnil
      have hgrid := (hcomplete e he).grid
      rw [hnil, List.perm_nil, List.map_eq_nil_iff] at hgrid
      exact hne hgrid
    have hvalidTake := valid_of_foldRollups (fun e he => hcomplete e (htake e he)) hhills hstore
    rw [foldRollups_eq hnumTake (fun e he => hcomplete e (htake e he)) hvalidTake hhills
      himmutable] at hstore
    obtain rfl := Except.ok.inj hstore
    have hraw : (epochs.filter fun e => (loadRollupSnapshot (sealedStore sqrt config eventEnded
        finalizedRound (epochs.take k)) none none).firstRawEpoch ≤ e.epoch) = epochs.drop k := by
      rw [← hsplit] at hnum
      have hfilter :=
        filter_firstRawEpoch_sealedStore sqrt config eventEnded finalizedRound hnum
      rwa [hsplit] at hfilter
    have hvalidDrop := valid_of_loadKothScoring hraw
      (hnum.pairwise.sublist ((List.drop_sublist k epochs).map _))
      (fun e he => hcomplete e (hdrop e he)) hhills hscored
    have hvalid : ∀ e ∈ epochs, e.Valid config := by
      intro e he
      rw [← hsplit, List.mem_append] at he
      exact he.elim (hvalidTake e) (hvalidDrop e)
    obtain ⟨board, hboard, hteams, hhillRows⟩ := loadKothScoring_eq currentEpoch hraw
      (fun participationId hmember => remembers_sealedStore hnumTake
        (fun e he => hcomplete e (htake e he)) hvalidTake himmutable hmember)
      himmutable (by rw [hsplit]; exact hnum.pairwise)
      (fun e he => hcomplete e (hdrop e he)) hvalidDrop hhills
      (by rw [hsplit]; exact List.ne_nil_of_mem he)
    obtain rfl : board = scored := Except.ok.inj (hboard.symm.trans hscored)
    rw [hteams, hhillRows, hsplit]
    exact fieldBestNormalized_mergedTeams horizon _ hvalid

/-- The board of one team which held its hill in the sealed one of two epochs. -/
theorem fieldBestNormalized_solo :
    FieldBestNormalized .projected
      [(1, ⟨100, 100, 1, 1 / 2, 1,
        [(10, ⟨100, 125 / 2, 100, 100, 1, 1 / 2, 1, 2, 1, 2, 2, 2, 1, 1⟩)],
        [⟨1, 100, 1, true, 100, 1⟩, ⟨2, 25, 1, false, 125, 2⟩]⟩)]
      [(10, ⟨100, 125 / 2, 1, 8 / 5, 1, 1⟩)] := by
  have hstore : foldRollups id soloConfig false (fun e => e.epoch) (soloSequence.epochs.take 1) =
      .ok (sealedStore id soloConfig false (fun e => e.epoch) (soloSequence.epochs.take 1)) := by
    decide +kernel
  exact fieldBestNormalized_loadKothScoring id soloConfig false 2 soloSequence (fun e => e.epoch)
    1 (by decide +kernel) _ hstore ⟨_, _, false⟩ (by decide +kernel) .projected

end Evidence

end KingOfTheHill

end Rsctf
