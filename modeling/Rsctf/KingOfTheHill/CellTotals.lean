import Rsctf.Data.Ledger
import Rsctf.KingOfTheHill.Rollup

/-!
# Averages and their totals

A cell of a team shows averages, a rollup row keeps numerators and weights.  A cell
is determined by the totals of its epochs, merging two cells adds their totals, and
the totals are recovered from the averages.
-/

open Guarded Ledger

namespace Rsctf

namespace KingOfTheHill

namespace PreviousTotals

/-- Totals whose numerators vanish together with their weight. -/
structure Balanced (totals : PreviousTotals) : Prop where
  rateWeight_eq : totals.rateWeight = totals.weight
  weight_nonneg : 0 ≤ totals.weight
  points : totals.weight = 0 → totals.pointsNumerator = 0
  acquisition : totals.weight = 0 → totals.acquisitionNumerator = 0
  control : totals.weight = 0 → totals.controlNumerator = 0
  sla : totals.weight = 0 → totals.slaNumerator = 0

theorem balanced_zero : (0 : PreviousTotals).Balanced := by
  constructor <;> simp [zero_def]

theorem Balanced.add {a b : PreviousTotals} (ha : a.Balanced) (hb : b.Balanced) :
    (a + b).Balanced := by
  have hsplit : (a + b).weight = 0 → a.weight = 0 ∧ b.weight = 0 := fun h =>
    (add_eq_zero_iff_of_nonneg ha.weight_nonneg hb.weight_nonneg).mp h
  constructor
  · simp [add_def, ha.rateWeight_eq, hb.rateWeight_eq]
  · exact add_nonneg ha.weight_nonneg hb.weight_nonneg
  · intro h
    simp [add_def, ha.points (hsplit h).1, hb.points (hsplit h).2]
  · intro h
    simp [add_def, ha.acquisition (hsplit h).1, hb.acquisition (hsplit h).2]
  · intro h
    simp [add_def, ha.control (hsplit h).1, hb.control (hsplit h).2]
  · intro h
    simp [add_def, ha.sla (hsplit h).1, hb.sla (hsplit h).2]

theorem balanced_sum {l : List PreviousTotals} (h : ∀ totals ∈ l, totals.Balanced) :
    l.sum.Balanced := by
  induction l with
  | nil => exact balanced_zero
  | cons a l ih =>
      rw [List.sum_cons]
      exact (h a (by simp)).add (ih fun b hb => h b (by simp [hb]))

/-- What the totals of one hill add to the totals of the team. -/
def weighted (serviceWeight : ℚ) (totals : PreviousTotals) : PreviousTotals :=
  { totals with
    pointsNumerator := 0
    weight := 0
    acquisitionNumerator := totals.acquisitionNumerator * serviceWeight
    controlNumerator := totals.controlNumerator * serviceWeight
    slaNumerator := totals.slaNumerator * serviceWeight
    rateWeight := totals.weight * serviceWeight }

theorem weighted_add (serviceWeight : ℚ) (a b : PreviousTotals) :
    (a + b).weighted serviceWeight = a.weighted serviceWeight + b.weighted serviceWeight := by
  simp [weighted, add_def, add_mul]

theorem weighted_zero (serviceWeight : ℚ) :
    (0 : PreviousTotals).weighted serviceWeight = 0 := by
  simp [weighted, zero_def]

end PreviousTotals

open PreviousTotals

/-- What one scored cell adds to the totals of its hill. -/
def ScoredCellEpoch.totals (cell : ScoredCellEpoch) : PreviousTotals where
  pointsNumerator := cell.score.localPoints * cell.weight
  weight := cell.weight
  acquisitionNumerator := cell.score.acquisitionRate * cell.weight
  controlNumerator := cell.score.controlRate * cell.weight
  slaNumerator := cell.score.reliabilityRate * cell.weight
  rateWeight := cell.weight
  acquisitionWindows := cell.acquisitionWindows
  controlledTicks := cell.controlledTicks
  responsibleTicks := cell.responsibleTicks
  healthyResponsibleTicks := cell.healthyResponsibleTicks

theorem ScoredCellEpoch.balanced_totals {cell : ScoredCellEpoch} (h : 0 ≤ cell.weight) :
    cell.totals.Balanced where
  rateWeight_eq := rfl
  weight_nonneg := h
  points hzero := mul_eq_zero_of_right _ hzero
  acquisition hzero := mul_eq_zero_of_right _ hzero
  control hzero := mul_eq_zero_of_right _ hzero
  sla hzero := mul_eq_zero_of_right _ hzero

def cellTotals (cells : List ScoredCellEpoch) : PreviousTotals :=
  (cells.map (·.totals)).sum

theorem cellTotals_append (cells₁ cells₂ : List ScoredCellEpoch) :
    cellTotals (cells₁ ++ cells₂) = cellTotals cells₁ + cellTotals cells₂ := by
  simp [cellTotals]

theorem balanced_cellTotals {cells : List ScoredCellEpoch} (h : ∀ cell ∈ cells, 0 ≤ cell.weight) :
    (cellTotals cells).Balanced := by
  refine balanced_sum fun totals htotals => ?_
  obtain ⟨cell, hcell, rfl⟩ := List.mem_map.mp htotals
  exact cell.balanced_totals (h cell hcell)

/-- The cell which shows the given totals of its settled and of all its epochs. -/
def cellOfTotals (settled projected : PreviousTotals) (serviceWeight : ℚ) :
    KothCellAggregate where
  settledPoints := ratio settled.pointsNumerator settled.weight
  projectedPoints := ratio projected.pointsNumerator projected.weight
  settledNormalizedPoints := 0
  projectedNormalizedPoints := 0
  acquisitionRate := ratio projected.acquisitionNumerator projected.weight
  controlRate := ratio projected.controlNumerator projected.weight
  reliabilityRate := ratio projected.slaNumerator projected.weight
  acquisitionWindows := projected.acquisitionWindows
  controlledTicks := projected.controlledTicks
  responsibleTicks := projected.responsibleTicks
  healthyResponsibleTicks := projected.healthyResponsibleTicks
  projectedWeight := projected.weight
  settledWeight := settled.weight
  serviceWeight := serviceWeight

/-- A column of the totals of some cells is the sum of the column. -/
theorem column_cellTotals {N : Type*} [AddMonoid N] (column : PreviousTotals → N)
    (hzero : column 0 = 0) (hadd : ∀ a b, column (a + b) = column a + column b)
    (cells : List ScoredCellEpoch) :
    column (cellTotals cells) = (cells.map fun cell => column cell.totals).sum := by
  rw [cellTotals, column_sum column hzero hadd, List.map_map]
  rfl

theorem cellAggregate_eq {cells : List ScoredCellEpoch} {serviceWeight : ℚ} (hne : cells ≠ [])
    (h : ∀ cell ∈ cells, cell.score.serviceWeight = serviceWeight) :
    cellAggregate cells =
      cellOfTotals (cellTotals (cells.filter (·.finalized))) (cellTotals cells)
        serviceWeight := by
  have hlast : (cells.getLast?.map (·.score.serviceWeight)).getD 0 = serviceWeight := by
    rw [List.getLast?_eq_some_getLast hne]
    exact h _ (List.getLast_mem hne)
  simp only [cellAggregate, cellOfTotals, hlast]
  simp only [column_cellTotals (·.pointsNumerator) rfl fun _ _ => rfl,
    column_cellTotals (·.weight) rfl fun _ _ => rfl,
    column_cellTotals (·.acquisitionNumerator) rfl fun _ _ => rfl,
    column_cellTotals (·.controlNumerator) rfl fun _ _ => rfl,
    column_cellTotals (·.slaNumerator) rfl fun _ _ => rfl,
    column_cellTotals (·.acquisitionWindows) rfl fun _ _ => rfl,
    column_cellTotals (·.controlledTicks) rfl fun _ _ => rfl,
    column_cellTotals (·.responsibleTicks) rfl fun _ _ => rfl,
    column_cellTotals (·.healthyResponsibleTicks) rfl fun _ _ => rfl]
  rfl

theorem rollupCell_eq {row : KothEpochHillRollup} (h : row.totals.Balanced) :
    rollupCell row = cellOfTotals row.totals row.totals row.serviceWeight := by
  simp only [rollupCell, cellOfTotals, h.rateWeight_eq]

/-- Merging a cell with a raw one adds their totals. -/
theorem mergeCell_cellOfTotals {settled projected rawSettled rawProjected : PreviousTotals}
    (hsettled : settled.Balanced) (hprojected : projected.Balanced)
    (hrawSettled : rawSettled.Balanced) (hrawProjected : rawProjected.Balanced)
    (serviceWeight rawServiceWeight : ℚ) :
    mergeCell (cellOfTotals settled projected serviceWeight)
        (cellOfTotals rawSettled rawProjected rawServiceWeight) =
      cellOfTotals (settled + rawSettled) (projected + rawProjected) rawServiceWeight := by
  simp only [mergeCell, cellOfTotals, add_def,
    ratio_mul_cancel hsettled.weight_nonneg hsettled.points,
    ratio_mul_cancel hrawSettled.weight_nonneg hrawSettled.points,
    ratio_mul_cancel hprojected.weight_nonneg hprojected.points,
    ratio_mul_cancel hrawProjected.weight_nonneg hrawProjected.points,
    ratio_mul_cancel hprojected.weight_nonneg hprojected.acquisition,
    ratio_mul_cancel hrawProjected.weight_nonneg hrawProjected.acquisition,
    ratio_mul_cancel hprojected.weight_nonneg hprojected.control,
    ratio_mul_cancel hrawProjected.weight_nonneg hrawProjected.control,
    ratio_mul_cancel hprojected.weight_nonneg hprojected.sla,
    ratio_mul_cancel hrawProjected.weight_nonneg hrawProjected.sla]

/-- The rollup writer recovers the totals of a cell from its averages. -/
theorem hillContribution_cellOfTotals (settled : PreviousTotals) {projected : PreviousTotals}
    (h : projected.Balanced) (serviceWeight : ℚ) :
    hillContribution (cellOfTotals settled projected serviceWeight) = projected := by
  simp only [hillContribution, cellOfTotals, ratio_mul_cancel h.weight_nonneg h.points,
    ratio_mul_cancel h.weight_nonneg h.acquisition, ratio_mul_cancel h.weight_nonneg h.control,
    ratio_mul_cancel h.weight_nonneg h.sla]
  ext <;> simp [h.rateWeight_eq]

section Team

variable {hills : List ℤ} {settled projected : ℤ → PreviousTotals} {serviceWeight : ℤ → ℚ}

/-- The cells of a team over the given hills. -/
def cellsOfTotals (settled projected : ℤ → PreviousTotals) (serviceWeight : ℤ → ℚ)
    (hills : List ℤ) : List (ℤ × KothCellAggregate) :=
  hills.map fun hill => (hill, cellOfTotals (settled hill) (projected hill) (serviceWeight hill))

/-- A numerator of a team is recovered from the rate of the team. -/
theorem teamRate_mul_rateWeight {rate : KothCellAggregate → ℚ} {numerator : PreviousTotals → ℚ}
    (hrate : ∀ settled projected weight,
      rate (cellOfTotals settled projected weight) = ratio (numerator projected) projected.weight)
    (hprojected : ∀ hill ∈ hills, 0 ≤ (projected hill).weight ∧
      ((projected hill).weight = 0 → numerator (projected hill) = 0))
    (hweight : ∀ hill ∈ hills, 0 ≤ serviceWeight hill) :
    teamRate rate (cellsOfTotals settled projected serviceWeight hills)
        * ((cellsOfTotals settled projected serviceWeight hills).map (·.2.rateWeight)).sum =
      (hills.map fun hill => numerator (projected hill) * serviceWeight hill).sum := by
  have hterm : ∀ hill ∈ hills,
      rate (cellOfTotals (settled hill) (projected hill) (serviceWeight hill))
          * ((projected hill).weight * serviceWeight hill) =
        numerator (projected hill) * serviceWeight hill := by
    intro hill hhill
    obtain ⟨hnonneg, hzero⟩ := hprojected hill hhill
    rw [hrate, ← mul_assoc, ratio_mul_cancel hnonneg hzero]
  have hcancel := ratio_sum_mul_cancel
    (fun hill hhill => mul_nonneg (hprojected hill hhill).1 (hweight hill hhill))
    (n := fun hill => numerator (projected hill) * serviceWeight hill) fun hill hhill hzero => by
      rcases mul_eq_zero.mp hzero with hprojectedZero | hserviceZero
      · rw [(hprojected hill hhill).2 hprojectedZero, zero_mul]
      · rw [hserviceZero, mul_zero]
  rw [← hcancel, ← List.map_congr_left hterm]
  simp only [teamRate, cellsOfTotals, List.map_map]
  rfl

/-- What the hills of a team add to its totals. -/
def hillsTotals (projected : ℤ → PreviousTotals) (serviceWeight : ℤ → ℚ) (hills : List ℤ) :
    PreviousTotals :=
  (hills.map fun hill => (projected hill).weighted (serviceWeight hill)).sum

theorem hillsTotals_add (projected projected' : ℤ → PreviousTotals) (serviceWeight : ℤ → ℚ)
    (hills : List ℤ) :
    hillsTotals (fun hill => projected hill + projected' hill) serviceWeight hills =
      hillsTotals projected serviceWeight hills + hillsTotals projected' serviceWeight hills := by
  simp only [hillsTotals, weighted_add, List.sum_map_add]

theorem hillsTotals_zero (serviceWeight : ℤ → ℚ) (hills : List ℤ) :
    hillsTotals (fun _ => 0) serviceWeight hills = 0 := by
  simp [hillsTotals, weighted_zero]

theorem hillsTotals_eq (projected : ℤ → PreviousTotals) (serviceWeight : ℤ → ℚ)
    (hills : List ℤ) :
    hillsTotals projected serviceWeight hills =
      { pointsNumerator := 0
        weight := 0
        acquisitionNumerator := (hills.map fun hill =>
          (projected hill).acquisitionNumerator * serviceWeight hill).sum
        controlNumerator := (hills.map fun hill =>
          (projected hill).controlNumerator * serviceWeight hill).sum
        slaNumerator := (hills.map fun hill =>
          (projected hill).slaNumerator * serviceWeight hill).sum
        rateWeight := (hills.map fun hill =>
          (projected hill).weight * serviceWeight hill).sum
        acquisitionWindows := (hills.map fun hill => (projected hill).acquisitionWindows).sum
        controlledTicks := (hills.map fun hill => (projected hill).controlledTicks).sum
        responsibleTicks := (hills.map fun hill => (projected hill).responsibleTicks).sum
        healthyResponsibleTicks :=
          (hills.map fun hill => (projected hill).healthyResponsibleTicks).sum } := by
  induction hills with
  | nil => rfl
  | cons hill hills ih =>
      rw [hillsTotals] at ih
      rw [hillsTotals, List.map_cons, List.sum_cons, ih]
      simp [add_def, weighted]

/-- A team aggregate whose cells show the given totals and whose rates are their means. -/
structure KothTeamAggregate.Shows (aggregate : KothTeamAggregate)
    (settled projected : ℤ → PreviousTotals) (serviceWeight : ℤ → ℚ) (hills : List ℤ) :
    Prop where
  cells : aggregate.cells = cellsOfTotals settled projected serviceWeight hills
  acquisitionRate : aggregate.acquisitionRate = teamRate (·.acquisitionRate) aggregate.cells
  controlRate : aggregate.controlRate = teamRate (·.controlRate) aggregate.cells
  reliabilityRate : aggregate.reliabilityRate = teamRate (·.reliabilityRate) aggregate.cells
  balanced : ∀ hill ∈ hills, (projected hill).Balanced
  serviceWeight_nonneg : ∀ hill ∈ hills, 0 ≤ serviceWeight hill

namespace KothTeamAggregate.Shows

variable {aggregate : KothTeamAggregate}

theorem rateWeight (h : aggregate.Shows settled projected serviceWeight hills) :
    (aggregate.cells.map (·.2.rateWeight)).sum =
      (hillsTotals projected serviceWeight hills).rateWeight := by
  rw [h.cells, hillsTotals_eq, cellsOfTotals, List.map_map]
  rfl

theorem acquisitionNumerator (h : aggregate.Shows settled projected serviceWeight hills) :
    aggregate.acquisitionRate * (aggregate.cells.map (·.2.rateWeight)).sum =
      (hillsTotals projected serviceWeight hills).acquisitionNumerator := by
  rw [h.acquisitionRate, h.cells, hillsTotals_eq]
  exact teamRate_mul_rateWeight (fun _ _ _ => rfl)
    (fun hill hhill => ⟨(h.balanced hill hhill).weight_nonneg, (h.balanced hill hhill).acquisition⟩)
    h.serviceWeight_nonneg

theorem controlNumerator (h : aggregate.Shows settled projected serviceWeight hills) :
    aggregate.controlRate * (aggregate.cells.map (·.2.rateWeight)).sum =
      (hillsTotals projected serviceWeight hills).controlNumerator := by
  rw [h.controlRate, h.cells, hillsTotals_eq]
  exact teamRate_mul_rateWeight (fun _ _ _ => rfl)
    (fun hill hhill => ⟨(h.balanced hill hhill).weight_nonneg, (h.balanced hill hhill).control⟩)
    h.serviceWeight_nonneg

theorem slaNumerator (h : aggregate.Shows settled projected serviceWeight hills) :
    aggregate.reliabilityRate * (aggregate.cells.map (·.2.rateWeight)).sum =
      (hillsTotals projected serviceWeight hills).slaNumerator := by
  rw [h.reliabilityRate, h.cells, hillsTotals_eq]
  exact teamRate_mul_rateWeight (fun _ _ _ => rfl)
    (fun hill hhill => ⟨(h.balanced hill hhill).weight_nonneg, (h.balanced hill hhill).sla⟩)
    h.serviceWeight_nonneg

end KothTeamAggregate.Shows

/-- What one epoch adds to the points of a team. -/
def KothEpochAggregate.totals (summary : KothEpochAggregate) : PreviousTotals :=
  { (0 : PreviousTotals) with
    pointsNumerator := summary.points * summary.epochWeight
    weight := summary.epochWeight }

theorem sum_epochTotals (epochs : List KothEpochAggregate) :
    (epochs.map (·.totals)).sum =
      { (0 : PreviousTotals) with
        pointsNumerator := (epochs.map fun epoch => epoch.points * epoch.epochWeight).sum
        weight := (epochs.map (·.epochWeight)).sum } := by
  induction epochs with
  | nil => rfl
  | cons epoch epochs ih =>
      rw [List.map_cons, List.sum_cons, ih]
      simp [add_def, zero_def, KothEpochAggregate.totals]

/-- The rollup writer recovers the totals of a team from its rates. -/
theorem teamContribution_eq {aggregate : KothTeamAggregate}
    (h : aggregate.Shows settled projected serviceWeight hills) (summary : KothEpochAggregate) :
    teamContribution aggregate summary =
      summary.totals + hillsTotals projected serviceWeight hills := by
  have hrateWeight : ((aggregate.cells.map Prod.snd).map (·.rateWeight)).sum =
      (aggregate.cells.map (·.2.rateWeight)).sum := by
    rw [List.map_map]
    rfl
  simp only [teamContribution, hrateWeight, h.acquisitionNumerator, h.controlNumerator,
    h.slaNumerator]
  simp only [h.cells, hillsTotals_eq, cellsOfTotals, List.map_map, add_def,
    KothEpochAggregate.totals, zero_def, zero_add, add_zero]
  rfl

end Team

end KingOfTheHill

end Rsctf
