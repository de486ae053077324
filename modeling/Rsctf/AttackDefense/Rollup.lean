import Rsctf.AttackDefense.Totals
import Rsctf.Data.Keyed

/-!
# Epoch rollups

An epoch is sealed by writing a header, one row per service and one row per
team, each with the running totals of the epochs before it.  The store is the
content of the three rollup tables of one game.
-/

open Fallible

namespace Rsctf

namespace AttackDefense

/-- A header row: the sealed epoch with its own and its cumulative counts. -/
structure AdEpochRollup where
  epoch : ℤ
  startRound : ℤ
  endRound : ℤ
  roundCount : ℤ
  epochWeight : ℚ
  finalizedRound : ℤ
  status : AdEvidenceStatus
  cumulative : AdEvidenceStatus
deriving DecidableEq, Repr

structure AdEpochTeamRollup where
  epoch : ℤ
  participationId : ℤ
  points : ℚ
  epochWeight : ℚ
  totals : PreviousTeamTotals
deriving DecidableEq, Repr

structure AdEpochServiceRollup where
  epoch : ℤ
  participationId : ℤ
  challengeId : ℤ
  serviceWeight : ℚ
  opportunityCount : ℤ
  captureCount : ℤ
  raritySum : ℚ
  defenseOpportunityCount : ℤ
  protectedOpportunityCount : ℤ
  slaCreditSum : ℚ
  slaTickCount : ℤ
  closingSlaStatus : Option AdCheckStatus
  closingSlaCredit : Option ℚ
  localPoints : ℚ
  offenseRate : ℚ
  defenseRate : ℚ
  slaRate : ℚ
  totals : PreviousServiceTotals
deriving DecidableEq, Repr

def AdEpochTeamRollup.key (row : AdEpochTeamRollup) : ℤ × ℤ :=
  (row.epoch, row.participationId)

def AdEpochServiceRollup.serviceKey (row : AdEpochServiceRollup) : ℤ × ℤ :=
  (row.participationId, row.challengeId)

def AdEpochServiceRollup.key (row : AdEpochServiceRollup) : ℤ × ℤ × ℤ :=
  (row.epoch, row.serviceKey)

/-- The rollup tables of one game. -/
structure RollupStore where
  headers : List AdEpochRollup
  teams : List AdEpochTeamRollup
  services : List AdEpochServiceRollup
deriving DecidableEq, Repr

def RollupStore.empty : RollupStore := ⟨[], [], []⟩

/-- The rates and totals of one team in one epoch before they are stored. -/
structure ComputedTeamRollup where
  participationId : ℤ
  points : ℚ
  epochWeight : ℚ
  totals : PreviousTeamTotals
deriving DecidableEq, Repr

structure ComputedServiceValues where
  localPoints : ℚ
  offenseRate : ℚ
  defenseRate : ℚ
  slaRate : ℚ
  totals : PreviousServiceTotals
deriving DecidableEq, Repr

/-- Weighted mean of the local points of the services of one team. -/
def weightedPoints (scores : List EpochServiceScore) : ℚ :=
  (scores.map fun score => score.localPoints * score.serviceWeight).sum
    / (scores.map fun score => score.serviceWeight).sum

/-- What the services of one team contribute to its totals in one epoch. -/
def teamContribution (epochWeight : ℚ) (scores : List EpochServiceScore) :
    PreviousTeamTotals where
  pointsNumerator := weightedPoints scores * epochWeight
  epochWeight := epochWeight
  offenseNumerator :=
    (scores.map fun score => score.offenseRate * score.serviceWeight * epochWeight).sum
  defenseNumerator :=
    (scores.map fun score => score.defenseRate * score.serviceWeight * epochWeight).sum
  slaNumerator :=
    (scores.map fun score => score.slaRate * score.serviceWeight * epochWeight).sum
  rateWeight := (scores.map fun score => score.serviceWeight).sum * epochWeight

/-- The row of one team in an epoch, which continues its row in the epoch before.
A team without service weight gets no row. -/
def computeTeamRollup (epochWeight : ℚ) (previous : List AdEpochTeamRollup)
    (scored : List (ℤ × EpochServiceScore)) (participationId : ℤ) :
    Option ComputedTeamRollup :=
  let services : List EpochServiceScore :=
    (Keyed.rows Prod.fst participationId scored).map Prod.snd
  let serviceWeight : ℚ := (services.map fun score => score.serviceWeight).sum
  let prior := ((Keyed.get (·.participationId) participationId previous).map
    (·.totals)).getD 0
  if serviceWeight ≤ 0 then none
  else some
    { participationId
      points := weightedPoints services
      epochWeight
      totals := prior + teamContribution epochWeight services }

/-- The team rows of an epoch, from its evidence and the rows of the epoch
before it, in the order of the participations. -/
def computeTeamRollups (sqrt : ℚ → ℚ) (rows : List EvidenceAggregateRow)
    (epochWeight : ℚ) (previous : List AdEpochTeamRollup) :
    Except AppError (List ComputedTeamRollup) := do
  let scored ← rows.mapM fun row => do
    let score ← scoreRow sqrt row
    return (row.participationId, score)
  return (Keyed.sortedKeys (scored.map Prod.fst)).filterMap
    (computeTeamRollup epochWeight previous scored)

/-- What one service contributes to its totals in one epoch. -/
def serviceContribution (epochWeight teamWeight : ℚ) (score : EpochServiceScore)
    (captureCount : ℤ) : PreviousServiceTotals where
  pointsNumerator := score.localPoints * score.serviceWeight / teamWeight * epochWeight
  epochWeight := epochWeight
  offenseNumerator := score.offenseRate * epochWeight
  defenseNumerator := score.defenseRate * epochWeight
  slaNumerator := score.slaRate * epochWeight
  captureCount := count captureCount

/-- Sum of the service weights of one participation in the evidence of an epoch. -/
def teamWeight (rows : List EvidenceAggregateRow) (participationId : ℤ) : ℚ :=
  ((Keyed.rows (·.participationId) participationId rows).map (·.serviceWeight)).sum

/-- The service values of an epoch, in the order of its evidence rows. -/
def computeServiceValues (sqrt : ℚ → ℚ) (rows : List EvidenceAggregateRow)
    (epochWeight : ℚ) (previous : List AdEpochServiceRollup) :
    Except AppError (List ComputedServiceValues) :=
  rows.mapM fun row => do
    let score ← scoreRow sqrt row
    let prior := ((Keyed.get AdEpochServiceRollup.serviceKey row.key previous).map
      (·.totals)).getD 0
    let teamWeight := teamWeight rows row.participationId
    if teamWeight ≤ 0 then
      throw (.internal "A&D team has no service score weight")
    return {
      localPoints := score.localPoints
      offenseRate := score.offenseRate
      defenseRate := score.defenseRate
      slaRate := score.slaRate
      totals := prior + serviceContribution epochWeight teamWeight score row.captureCount }

def serviceRollupRow (epoch : ℤ) (row : EvidenceAggregateRow)
    (values : ComputedServiceValues) : AdEpochServiceRollup where
  epoch := epoch
  participationId := row.participationId
  challengeId := row.challengeId
  serviceWeight := row.serviceWeight
  opportunityCount := count row.opportunityCount
  captureCount := count row.captureCount
  raritySum := row.raritySum
  defenseOpportunityCount := count row.defenseOpportunityCount
  protectedOpportunityCount := count row.protectedOpportunityCount
  slaCreditSum := row.slaCreditSum
  slaTickCount := count row.slaTickCount
  closingSlaStatus := row.closingSlaStatus
  closingSlaCredit := row.closingSlaCredit
  localPoints := values.localPoints
  offenseRate := values.offenseRate
  defenseRate := values.defenseRate
  slaRate := values.slaRate
  totals := values.totals

def teamRollupRow (epoch : ℤ) (row : ComputedTeamRollup) : AdEpochTeamRollup where
  epoch := epoch
  participationId := row.participationId
  points := row.points
  epochWeight := row.epochWeight
  totals := row.totals

/-- The counts of an evidence range, which every one of its rows repeats. -/
def EvidenceAggregateRow.status (row : EvidenceAggregateRow) : AdEvidenceStatus where
  eligibleFlags := count row.eligibleFlagsTotal
  capturedFlags := count row.capturedFlagsTotal
  acceptedCaptures := count row.acceptedCapturesTotal
  defenseOpportunities := count row.defenseOpportunitiesTotal
  protectedOpportunities := count row.protectedOpportunitiesTotal

/-- The most recent header among those which satisfy a condition. -/
def RollupStore.latestHeader (store : RollupStore) (p : AdEpochRollup → Bool) :
    Option AdEpochRollup :=
  Keyed.latest (·.epoch) (store.headers.filter p)

def RollupStore.loadServiceRollups (store : RollupStore) (epoch : ℤ) :
    List AdEpochServiceRollup :=
  Keyed.rows (·.epoch) epoch store.services

def RollupStore.loadTeamRollups (store : RollupStore) (epoch : ℤ) :
    List AdEpochTeamRollup :=
  Keyed.rows (·.epoch) epoch store.teams

/-- Seal one epoch.  Team totals continue the rows of the previous epoch number;
header and service totals continue the latest earlier header.  An epoch which is
already sealed, or whose roster is empty, leaves the store unchanged. -/
def materializeEpoch (sqrt : ℚ → ℚ) (epochTicks : ℤ) (store : RollupStore)
    (finalizedRound : ℤ) (epochMeta : EpochMetaRow) (rows : List EvidenceAggregateRow) :
    Except AppError RollupStore :=
  if ∃ header ∈ store.headers, header.epoch = epochMeta.epoch then
    return store
  else match rows with
  | [] => return store
  | first :: _ => do
    let epochWeight : ℚ := epochMeta.roundCount / epochTicks
    let previousHeader := store.latestHeader (·.epoch < epochMeta.epoch)
    let computed ← computeTeamRollups sqrt rows epochWeight
      (store.loadTeamRollups (epochMeta.epoch - 1))
    let header : AdEpochRollup :=
      { epoch := epochMeta.epoch
        startRound := epochMeta.startRound
        endRound := epochMeta.endRound
        roundCount := epochMeta.roundCount
        epochWeight
        finalizedRound
        status := first.status
        cumulative := (previousHeader.map (·.cumulative)).getD 0 + first.status }
    let previousServices :=
      (previousHeader.map fun header => store.loadServiceRollups header.epoch).getD []
    let values ← computeServiceValues sqrt rows epochWeight previousServices
    return {
      headers := Keyed.insertNew (·.epoch) store.headers [header]
      teams := Keyed.insertNew AdEpochTeamRollup.key store.teams
        (computed.map (teamRollupRow epochMeta.epoch))
      services := Keyed.insertNew AdEpochServiceRollup.key store.services
        (List.zipWith (serviceRollupRow epochMeta.epoch) rows values) }

/-- The part of the store which the board reads: the latest header within the
cutoff, the team and service rows of its epoch, and the team rows of the last
three epochs up to it. -/
structure RollupSnapshot where
  header : Option AdEpochRollup
  teams : List AdEpochTeamRollup
  services : List AdEpochServiceRollup
  recent : List AdEpochTeamRollup
deriving DecidableEq, Repr

def RollupSnapshot.none : RollupSnapshot := ⟨.none, [], [], []⟩

def RollupStore.recentEpochs (store : RollupStore) (epoch : ℤ) : List ℤ :=
  (((store.headers.map (·.epoch)).filter (· ≤ epoch)).insertionSort (· ≥ ·)).take 3

/-- The rows a reader gets together with a header. -/
def RollupStore.snapshotAt (store : RollupStore) (header : AdEpochRollup) :
    RollupSnapshot where
  header := some header
  teams := store.loadTeamRollups header.epoch
  services := store.loadServiceRollups header.epoch
  recent := (store.teams.filter fun row =>
    row.epoch ∈ store.recentEpochs header.epoch).insertionSort fun left right =>
      left.participationId < right.participationId ∨
        (left.participationId = right.participationId ∧ left.epoch ≤ right.epoch)

def loadRollupSnapshot (store : RollupStore) (cutoffRound : Option ℤ) : RollupSnapshot :=
  match store.latestHeader fun header =>
      cutoffRound.all fun cutoff => header.finalizedRound ≤ cutoff with
  | .none => RollupSnapshot.none
  | some header => store.snapshotAt header

end AttackDefense

end Rsctf
