import Mathlib.Algebra.BigOperators.Group.List.Basic
import Rsctf.KingOfTheHill.Scoring

/-!
# King of the Hill epoch rollups

An epoch is sealed by writing a header, one row per team and one row per team and
hill, each with the running totals of the epochs before it.  A reader merges the
rows of the last sealed epoch with the raw aggregates of the epochs after it.
-/

open Fallible Guarded Keyed

namespace Rsctf

namespace KingOfTheHill

/-- The running totals of one team, whose weight is the epoch weight, or of one team
on one hill, whose weight is the score weight. -/
@[ext] structure PreviousTotals where
  pointsNumerator : ℚ
  weight : ℚ
  acquisitionNumerator : ℚ
  controlNumerator : ℚ
  slaNumerator : ℚ
  rateWeight : ℚ
  acquisitionWindows : ℤ
  controlledTicks : ℤ
  responsibleTicks : ℤ
  healthyResponsibleTicks : ℤ
deriving DecidableEq, Repr

namespace PreviousTotals

instance : Zero PreviousTotals := ⟨⟨0, 0, 0, 0, 0, 0, 0, 0, 0, 0⟩⟩

instance : Add PreviousTotals :=
  ⟨fun a b => ⟨a.pointsNumerator + b.pointsNumerator, a.weight + b.weight,
    a.acquisitionNumerator + b.acquisitionNumerator, a.controlNumerator + b.controlNumerator,
    a.slaNumerator + b.slaNumerator, a.rateWeight + b.rateWeight,
    a.acquisitionWindows + b.acquisitionWindows, a.controlledTicks + b.controlledTicks,
    a.responsibleTicks + b.responsibleTicks,
    a.healthyResponsibleTicks + b.healthyResponsibleTicks⟩⟩

theorem zero_def : (0 : PreviousTotals) = ⟨0, 0, 0, 0, 0, 0, 0, 0, 0, 0⟩ := rfl

theorem add_def (a b : PreviousTotals) :
    a + b = ⟨a.pointsNumerator + b.pointsNumerator, a.weight + b.weight,
      a.acquisitionNumerator + b.acquisitionNumerator, a.controlNumerator + b.controlNumerator,
      a.slaNumerator + b.slaNumerator, a.rateWeight + b.rateWeight,
      a.acquisitionWindows + b.acquisitionWindows, a.controlledTicks + b.controlledTicks,
      a.responsibleTicks + b.responsibleTicks,
      a.healthyResponsibleTicks + b.healthyResponsibleTicks⟩ := rfl

instance : AddCommMonoid PreviousTotals where
  add_assoc a b c := by simp [add_def, add_assoc]
  zero_add a := by simp [add_def, zero_def]
  add_zero a := by simp [add_def, zero_def]
  add_comm a b := by simp [add_def, add_comm]
  nsmul := nsmulRec

end PreviousTotals

/-- A header row: a sealed epoch. -/
structure KothEpochRollup where
  epoch : ℤ
  startRound : ℤ
  endRound : ℤ
  roundCount : ℤ
  epochWeight : ℚ
  finalizedRound : ℤ
  evidenceFinalizedAt : ℤ
  scorableTicks : ℤ
  eligibleWindows : ℤ
  cumulativeScorableTicks : ℤ
  cumulativeEligibleWindows : ℤ
deriving DecidableEq, Repr

/-- A team row.  A computed row is stored as it is. -/
structure KothEpochTeamRollup where
  epoch : ℤ
  participationId : ℤ
  points : ℚ
  epochWeight : ℚ
  acquisitionRate : ℚ
  controlRate : ℚ
  slaRate : ℚ
  acquisitionWindows : ℤ
  controlledTicks : ℤ
  responsibleTicks : ℤ
  healthyResponsibleTicks : ℤ
  totals : PreviousTotals
deriving DecidableEq, Repr

structure KothEpochHillRollup where
  epoch : ℤ
  participationId : ℤ
  challengeId : ℤ
  serviceWeight : ℚ
  evidenceFraction : ℚ
  epochFraction : ℚ
  localPoints : ℚ
  acquisitionRate : ℚ
  controlRate : ℚ
  slaRate : ℚ
  acquisitionWindows : ℤ
  controlledTicks : ℤ
  responsibleTicks : ℤ
  healthyResponsibleTicks : ℤ
  totals : PreviousTotals
deriving DecidableEq, Repr

def KothEpochTeamRollup.key (row : KothEpochTeamRollup) : ℤ × ℤ :=
  (row.epoch, row.participationId)

def KothEpochHillRollup.hillKey (row : KothEpochHillRollup) : ℤ × ℤ :=
  (row.participationId, row.challengeId)

def KothEpochHillRollup.key (row : KothEpochHillRollup) : ℤ × ℤ × ℤ :=
  (row.epoch, row.hillKey)

/-- The King of the Hill rollup tables of one game. -/
structure RollupStore where
  headers : List KothEpochRollup
  teams : List KothEpochTeamRollup
  hills : List KothEpochHillRollup
deriving DecidableEq, Repr

def RollupStore.empty : RollupStore := ⟨[], [], []⟩

/-- The most recent header among those which satisfy a condition. -/
def RollupStore.latestHeader (store : RollupStore) (p : KothEpochRollup → Bool) :
    Option KothEpochRollup :=
  latest (·.epoch) (store.headers.filter p)

def RollupStore.loadTeams (store : RollupStore) (epoch : ℤ) : List KothEpochTeamRollup :=
  rows (·.epoch) epoch store.teams

def RollupStore.loadHills (store : RollupStore) (epoch : ℤ) : List KothEpochHillRollup :=
  rows (·.epoch) epoch store.hills

/-- What one epoch adds to the totals of a team. -/
def teamContribution (aggregate : KothTeamAggregate) (summary : KothEpochAggregate) :
    PreviousTotals :=
  let cells := aggregate.cells.map Prod.snd
  let rateWeight := (cells.map (·.rateWeight)).sum
  { pointsNumerator := summary.points * summary.epochWeight
    weight := summary.epochWeight
    acquisitionNumerator := aggregate.acquisitionRate * rateWeight
    controlNumerator := aggregate.controlRate * rateWeight
    slaNumerator := aggregate.reliabilityRate * rateWeight
    rateWeight
    acquisitionWindows := (cells.map (·.acquisitionWindows)).sum
    controlledTicks := (cells.map (·.controlledTicks)).sum
    responsibleTicks := (cells.map (·.responsibleTicks)).sum
    healthyResponsibleTicks := (cells.map (·.healthyResponsibleTicks)).sum }

/-- What one epoch adds to the totals of a team on a hill. -/
def hillContribution (cell : KothCellAggregate) : PreviousTotals where
  pointsNumerator := cell.projectedPoints * cell.projectedWeight
  weight := cell.projectedWeight
  acquisitionNumerator := cell.acquisitionRate * cell.projectedWeight
  controlNumerator := cell.controlRate * cell.projectedWeight
  slaNumerator := cell.reliabilityRate * cell.projectedWeight
  rateWeight := cell.projectedWeight
  acquisitionWindows := cell.acquisitionWindows
  controlledTicks := cell.controlledTicks
  responsibleTicks := cell.responsibleTicks
  healthyResponsibleTicks := cell.healthyResponsibleTicks

def computedTeamRow (epoch : ℤ) (aggregate : KothTeamAggregate) (summary : KothEpochAggregate)
    (prior : PreviousTotals) (participationId : ℤ) : KothEpochTeamRollup :=
  let contribution := teamContribution aggregate summary
  { epoch
    participationId
    points := summary.points
    epochWeight := summary.epochWeight
    acquisitionRate := aggregate.acquisitionRate
    controlRate := aggregate.controlRate
    slaRate := aggregate.reliabilityRate
    acquisitionWindows := contribution.acquisitionWindows
    controlledTicks := contribution.controlledTicks
    responsibleTicks := contribution.responsibleTicks
    healthyResponsibleTicks := contribution.healthyResponsibleTicks
    totals := prior + contribution }

def computedHillRow (epochTicks epoch : ℤ) (row : HillEpochMetaRow) (cell : KothCellAggregate)
    (prior : PreviousTotals) (participationId : ℤ) : KothEpochHillRollup where
  epoch := epoch
  participationId := participationId
  challengeId := row.challengeId
  serviceWeight := cell.serviceWeight
  evidenceFraction := hillEvidenceFraction (count row.scorableTicks)
  epochFraction :=
    if row.roundCount = epochTicks then 1
    else KingOfTheHill.evidenceFraction (count row.scorableTicks) (max epochTicks 1).toNat
  localPoints := cell.projectedPoints
  acquisitionRate := cell.acquisitionRate
  controlRate := cell.controlRate
  slaRate := cell.reliabilityRate
  acquisitionWindows := cell.acquisitionWindows
  controlledTicks := cell.controlledTicks
  responsibleTicks := cell.responsibleTicks
  healthyResponsibleTicks := cell.healthyResponsibleTicks
  totals := prior + hillContribution cell

/-- The row of one team and hill in an epoch. -/
def computeHill (epochTicks epoch : ℤ) (cells : List (ℤ × KothCellAggregate))
    (previousHills : List KothEpochHillRollup) (participationId : ℤ) (row : HillEpochMetaRow) :
    Except AppError KothEpochHillRollup :=
  match get Prod.fst row.challengeId cells with
  | none => throw (.internal "KotH rollup is missing a team-hill score")
  | some (_, cell) =>
    let prior := ((get KothEpochHillRollup.hillKey (participationId, row.challengeId)
      previousHills).map (·.totals)).getD 0
    return computedHillRow epochTicks epoch row cell prior participationId

/-- The rows of one team in an epoch. -/
def computeTeam (hillMetas : List HillEpochMetaRow) (scored : KothScoringSnapshot)
    (epochTicks : ℤ) (previousTeams : List KothEpochTeamRollup)
    (previousHills : List KothEpochHillRollup) (participationId : ℤ) :
    Except AppError (KothEpochTeamRollup × List KothEpochHillRollup) := do
  let epoch := (hillMetas.head?.map (·.epoch)).getD 0
  let aggregate := ((get Prod.fst participationId scored.teams).map Prod.snd).getD .empty
  match aggregate.epochs.find? (·.epoch = epoch) with
  | none => throw (.internal "KotH rollup is missing a team epoch score")
  | some summary =>
    let prior := ((get (·.participationId) participationId previousTeams).map (·.totals)).getD 0
    let hills ← hillMetas.mapM
      (computeHill epochTicks epoch aggregate.cells previousHills participationId)
    return (computedTeamRow epoch aggregate summary prior participationId, hills)

/-- The team and hill rows of an epoch, from its scored evidence and the rows of the
epoch before it. -/
def computeRows (hillMetas : List HillEpochMetaRow) (rosterIds : List ℤ)
    (scored : KothScoringSnapshot) (epochTicks : ℤ) (previousTeams : List KothEpochTeamRollup)
    (previousHills : List KothEpochHillRollup) :
    Except AppError (List KothEpochTeamRollup × List KothEpochHillRollup) := do
  let computed ← rosterIds.mapM
    (computeTeam hillMetas scored epochTicks previousTeams previousHills)
  return (computed.map Prod.fst, (computed.map Prod.snd).flatten)

/-- Seal one epoch.  Team and hill totals continue the rows of the previous epoch
number, header totals the latest earlier header.  An epoch which is already sealed
leaves the store unchanged. -/
def materializeEpoch (epochTicks : ℤ) (store : RollupStore) (epoch finalizedRound : ℤ)
    (hillMetas : List HillEpochMetaRow) (rosterIds : List ℤ) (scored : KothScoringSnapshot) :
    Except AppError RollupStore :=
  if ∃ header ∈ store.headers, header.epoch = epoch then
    return store
  else match hillMetas with
  | [] => return store
  | first :: _ => do
    let previousHeader := store.latestHeader (·.epoch < epoch)
    let (teams, hills) ← computeRows hillMetas rosterIds scored epochTicks
      (store.loadTeams (epoch - 1)) (store.loadHills (epoch - 1))
    let scorableTicks := (hillMetas.map fun row => max row.scorableTicks 0).sum
    let eligibleWindows := (hillMetas.map fun row => max row.eligibleWindows 0).sum
    match (hillMetas.filterMap (·.maxCheckedAt)).max? with
    | none => throw (.internal "immutable KotH epoch has no checker timestamp")
    | some evidenceFinalizedAt =>
      let header : KothEpochRollup :=
        { epoch
          startRound := first.startRound
          endRound := first.endRound
          roundCount := first.roundCount
          epochWeight := epochWeightFraction hillMetas epochTicks
          finalizedRound
          evidenceFinalizedAt
          scorableTicks
          eligibleWindows
          cumulativeScorableTicks :=
            (previousHeader.map (·.cumulativeScorableTicks)).getD 0 + scorableTicks
          cumulativeEligibleWindows :=
            (previousHeader.map (·.cumulativeEligibleWindows)).getD 0 + eligibleWindows }
      return {
        headers := insertNew (·.epoch) store.headers [header]
        teams := insertNew KothEpochTeamRollup.key store.teams teams
        hills := insertNew KothEpochHillRollup.key store.hills hills }

/-- A store changes when an epoch is sealed by the rows of the epoch alone. -/
theorem materializeEpoch_cases {epochTicks : ℤ} {store store' : RollupStore}
    {epoch finalizedRound : ℤ} {hillMetas : List HillEpochMetaRow} {rosterIds : List ℤ}
    {scored : KothScoringSnapshot}
    (h : materializeEpoch epochTicks store epoch finalizedRound hillMetas rosterIds scored =
      .ok store') :
    (store' = store ∧ ((∃ header ∈ store.headers, header.epoch = epoch) ∨ hillMetas = [])) ∨
    ((¬∃ header ∈ store.headers, header.epoch = epoch) ∧ ∃ first rest teams hills finalizedAt,
      hillMetas = first :: rest ∧
      computeRows hillMetas rosterIds scored epochTicks (store.loadTeams (epoch - 1))
        (store.loadHills (epoch - 1)) = .ok (teams, hills) ∧
      (hillMetas.filterMap (·.maxCheckedAt)).max? = some finalizedAt ∧
      store' = {
        headers := insertNew (·.epoch) store.headers [{
          epoch
          startRound := first.startRound
          endRound := first.endRound
          roundCount := first.roundCount
          epochWeight := epochWeightFraction hillMetas epochTicks
          finalizedRound
          evidenceFinalizedAt := finalizedAt
          scorableTicks := (hillMetas.map fun row => max row.scorableTicks 0).sum
          eligibleWindows := (hillMetas.map fun row => max row.eligibleWindows 0).sum
          cumulativeScorableTicks :=
            ((store.latestHeader (·.epoch < epoch)).map (·.cumulativeScorableTicks)).getD 0
              + (hillMetas.map fun row => max row.scorableTicks 0).sum
          cumulativeEligibleWindows :=
            ((store.latestHeader (·.epoch < epoch)).map (·.cumulativeEligibleWindows)).getD 0
              + (hillMetas.map fun row => max row.eligibleWindows 0).sum }]
        teams := insertNew KothEpochTeamRollup.key store.teams teams
        hills := insertNew KothEpochHillRollup.key store.hills hills }) := by
  unfold materializeEpoch at h
  by_cases hsealed : ∃ header ∈ store.headers, header.epoch = epoch
  · rw [if_pos hsealed] at h
    exact .inl ⟨(pure_eq_ok_iff.mp h).symm, .inl hsealed⟩
  · rw [if_neg hsealed] at h
    cases hillMetas with
    | nil => exact .inl ⟨(pure_eq_ok_iff.mp h).symm, .inr rfl⟩
    | cons first rest =>
        obtain ⟨⟨teams, hills⟩, hrows, h⟩ := bind_eq_ok_iff.mp h
        dsimp only at h
        split at h
        · simp at h
        · rename_i finalizedAt hfinalizedAt
          exact .inr ⟨hsealed, first, rest, teams, hills, finalizedAt, rfl, hrows, hfinalizedAt,
            (pure_eq_ok_iff.mp h).symm⟩

/-- The hills of an epoch were played over the same rounds. -/
def consistentRanges (first : HillEpochMetaRow) (hillMetas : List HillEpochMetaRow) : Bool :=
  hillMetas.all fun row =>
    row.startRound = first.startRound && row.endRound = first.endRound &&
      row.roundCount = first.roundCount

/-- Every round of the epoch has a final result on every hill. -/
def completeResults (hillMetas : List HillEpochMetaRow) : Bool :=
  hillMetas.all fun row =>
    row.resultCount = row.roundCount && row.allFinalized && row.maxCheckedAt.isSome

/-- An epoch is sealed when its results are complete and it is either full or the partial
tail of an ended event. -/
def sealable (epochTicks : ℤ) (ended : Bool) (first : HillEpochMetaRow)
    (hillMetas : List HillEpochMetaRow) : Bool :=
  completeResults hillMetas &&
    (first.roundCount = epochTicks || (ended && first.roundCount < epochTicks))

/-- The part of the store which a reader merges: the latest visible header, the rows of
its epoch, and the team rows of the last three epochs up to it. -/
structure RollupSnapshot where
  header : Option KothEpochRollup
  teams : List KothEpochTeamRollup
  hills : List KothEpochHillRollup
  recent : List KothEpochTeamRollup
deriving DecidableEq, Repr

def RollupSnapshot.none : RollupSnapshot := ⟨.none, [], [], []⟩

def recentEpochLimit : ℕ := 3

def RollupStore.recentEpochs (store : RollupStore) (epoch : ℤ) : List ℤ :=
  (((store.headers.map (·.epoch)).filter (· ≤ epoch)).insertionSort (· ≥ ·)).take recentEpochLimit

/-- The rows a reader gets together with a header. -/
def RollupStore.snapshotAt (store : RollupStore) (header : KothEpochRollup) :
    RollupSnapshot where
  header := some header
  teams := store.loadTeams header.epoch
  hills := store.loadHills header.epoch
  recent := (store.teams.filter fun row =>
    row.epoch ∈ store.recentEpochs header.epoch).insertionSort fun left right =>
      left.participationId < right.participationId ∨
        (left.participationId = right.participationId ∧ left.epoch ≤ right.epoch)

/-- A header is visible at a cutoff when its epoch was final by the last round which had
started, and the evidence of no epoch up to it was completed later. -/
def RollupStore.visible (store : RollupStore) (lastRound checkerCutoff : Option ℤ)
    (header : KothEpochRollup) : Bool :=
  lastRound.all (header.finalizedRound ≤ ·) &&
    checkerCutoff.all fun cutoff =>
      header.evidenceFinalizedAt ≤ cutoff &&
        !store.headers.any fun prior =>
          prior.epoch ≤ header.epoch && cutoff < prior.evidenceFinalizedAt

def loadRollupSnapshot (store : RollupStore) (lastRound checkerCutoff : Option ℤ) :
    RollupSnapshot :=
  match store.latestHeader (store.visible lastRound checkerCutoff) with
  | .none => RollupSnapshot.none
  | some header => store.snapshotAt header

section Merge

/-- The cell which a hill row remembers. -/
def rollupCell (row : KothEpochHillRollup) : KothCellAggregate where
  settledPoints := ratio row.totals.pointsNumerator row.totals.weight
  projectedPoints := ratio row.totals.pointsNumerator row.totals.weight
  settledNormalizedPoints := 0
  projectedNormalizedPoints := 0
  acquisitionRate := ratio row.totals.acquisitionNumerator row.totals.rateWeight
  controlRate := ratio row.totals.controlNumerator row.totals.rateWeight
  reliabilityRate := ratio row.totals.slaNumerator row.totals.rateWeight
  acquisitionWindows := row.totals.acquisitionWindows
  controlledTicks := row.totals.controlledTicks
  responsibleTicks := row.totals.responsibleTicks
  healthyResponsibleTicks := row.totals.healthyResponsibleTicks
  projectedWeight := row.totals.weight
  settledWeight := row.totals.weight
  serviceWeight := row.serviceWeight

/-- Merge a remembered cell with the raw cell of the same hill. -/
def mergeCell (cell raw : KothCellAggregate) : KothCellAggregate :=
  let projectedWeight := cell.projectedWeight + raw.projectedWeight
  let settledWeight := cell.settledWeight + raw.settledWeight
  { cell with
    projectedWeight
    settledWeight
    projectedPoints := ratio (cell.projectedPoints * cell.projectedWeight
      + raw.projectedPoints * raw.projectedWeight) projectedWeight
    settledPoints := ratio (cell.settledPoints * cell.settledWeight
      + raw.settledPoints * raw.settledWeight) settledWeight
    acquisitionRate := ratio (cell.acquisitionRate * cell.projectedWeight
      + raw.acquisitionRate * raw.projectedWeight) projectedWeight
    controlRate := ratio (cell.controlRate * cell.projectedWeight
      + raw.controlRate * raw.projectedWeight) projectedWeight
    reliabilityRate := ratio (cell.reliabilityRate * cell.projectedWeight
      + raw.reliabilityRate * raw.projectedWeight) projectedWeight
    acquisitionWindows := cell.acquisitionWindows + raw.acquisitionWindows
    controlledTicks := cell.controlledTicks + raw.controlledTicks
    responsibleTicks := cell.responsibleTicks + raw.responsibleTicks
    healthyResponsibleTicks := cell.healthyResponsibleTicks + raw.healthyResponsibleTicks
    serviceWeight := raw.serviceWeight }

/-- The remembered and the raw cells of one team, hill by hill. -/
def mergeCells (hillRows : List KothEpochHillRollup) (raw : List (ℤ × KothCellAggregate)) :
    List (ℤ × KothCellAggregate) :=
  (sortedKeys (hillRows.map (·.challengeId) ++ raw.map Prod.fst)).map fun challengeId =>
    let cell := ((get (·.challengeId) challengeId hillRows).map rollupCell).getD .empty
    (challengeId,
      match get Prod.fst challengeId raw with
      | none => cell
      | some (_, rawCell) => mergeCell cell rawCell)

def recentEpoch (row : KothEpochTeamRollup) : KothEpochAggregate where
  epoch := row.epoch
  points := row.points
  epochWeight := row.epochWeight
  finalized := true
  cumulativePointsNumerator := row.totals.pointsNumerator
  cumulativeEpochWeight := row.totals.weight

/-- Merge the remembered rows of one team with its raw aggregate, before the hills are
normalized. -/
def mergeTeam (snapshot : RollupSnapshot) (raw : KothScoringSnapshot) (participationId : ℤ) :
    KothTeamAggregate :=
  let previous :=
    ((get (·.participationId) participationId snapshot.teams).map (·.totals)).getD 0
  let rawTeam := ((get Prod.fst participationId raw.teams).map Prod.snd).getD .empty
  let rawRateWeight := (rawTeam.cells.map fun cell => cell.2.rateWeight).sum
  let rateWeight := previous.rateWeight + rawRateWeight
  { settledTotal := 0
    projectedTotal := 0
    acquisitionRate :=
      ratio (previous.acquisitionNumerator + rawTeam.acquisitionRate * rawRateWeight) rateWeight
    controlRate :=
      ratio (previous.controlNumerator + rawTeam.controlRate * rawRateWeight) rateWeight
    reliabilityRate :=
      ratio (previous.slaNumerator + rawTeam.reliabilityRate * rawRateWeight) rateWeight
    cells := mergeCells (rows (·.participationId) participationId snapshot.hills) rawTeam.cells
    epochs := ((rows (·.participationId) participationId snapshot.recent).map recentEpoch
      ++ cumulate previous.pointsNumerator previous.weight rawTeam.epochs).insertionSort
        fun left right => left.epoch ≤ right.epoch }

/-- Merge the remembered epochs with the raw ones and normalize every hill. -/
def mergeRollupPrefix (rosterIds : List ℤ) (snapshot : RollupSnapshot)
    (raw : KothScoringSnapshot) (eventEnded : Bool) (currentEpoch : ℤ) : KothScoringSnapshot :=
  let (teams, hills) := applyFieldBestNormalization
    (rosterIds.map fun participationId => (participationId, mergeTeam snapshot raw participationId))
  { teams
    hills
    fullySettled := eventEnded && 0 < currentEpoch &&
      snapshot.header.any (currentEpoch ≤ ·.epoch) }

end Merge

end KingOfTheHill

end Rsctf
