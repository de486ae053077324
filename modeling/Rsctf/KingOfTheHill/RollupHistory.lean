import Mathlib.Logic.Relation
import Rsctf.AttackDefense.BoardQuery
import Rsctf.KingOfTheHill.RollupInvalidation

/-!
# Sealing epochs while an event runs

The evidence of the hills is grouped by epoch, and every epoch which is full and over is sealed;
the last one is sealed when the event is over.  The clock of the event decides which rounds are
recorded and finalised.
-/

open Fallible Keyed Numbering

namespace Rsctf

namespace KingOfTheHill

open AttackDefense (withinCutoff)

structure KothRound where
  number : ℤ
  startTimeUtc : ℤ
  finalized : Bool
deriving DecidableEq, Repr

/-- A result as it is joined with the round and the hill which it is about. -/
structure ControlResult where
  cycleId : Option ℤ
  tokenWindowAttempt : ℤ
  isScorable : Bool
  checkedAt : ℤ
deriving DecidableEq, Repr

/-- What is recorded of a hill in a round.  The joins give at least one row. -/
structure ControlEvidence where
  observations : ℤ → ℤ → List (Option ControlResult)
  claimSource : ℤ → ℤ → String
  observations_ne_nil : ∀ number challengeId, observations number challengeId ≠ []

section Evidence

variable (config : OfficialConfig) (evidence : ControlEvidence) (checkerCutoff : Option ℤ)
  (eventEnded : Bool)

/-- A result which was checked after the cutoff is void. -/
def ControlResult.scorable (result : ControlResult) : Bool :=
  withinCutoff eventEnded checkerCutoff result.checkedAt && result.isScorable

def ControlResult.checked (result : ControlResult) : ℤ :=
  if withinCutoff eventEnded checkerCutoff result.checkedAt then result.checkedAt
  else checkerCutoff.getD result.checkedAt

/-- The metadata of a hill in an epoch, from the rounds of the epoch. -/
def hillMeta (epoch : ℤ) (rounds : List KothRound) (challengeId : ℤ) : HillEpochMetaRow :=
  let observed := rounds.flatMap fun round => evidence.observations round.number challengeId
  let results := observed.filterMap id
  let scorable := results.filter (·.scorable checkerCutoff eventEnded)
  let claimSource :=
    ((rounds.map fun round => evidence.claimSource round.number challengeId).max?).getD ""
  { challengeId
    claimSource
    epoch
    startRound := ((rounds.map (·.number)).min?).getD 0
    endRound := ((rounds.map (·.number)).max?).getD 0
    serviceWeight := config.serviceWeight challengeId
    roundCount := observed.length
    resultCount := results.length
    scorableTicks := scorable.length
    eligibleWindows :=
      if claimSource = "Api" then scorable.length
      else ((scorable.map fun result => (result.cycleId, result.tokenWindowAttempt)).dedup).length
    allFinalized := rounds.all (·.finalized)
    maxCheckedAt := (results.map (·.checked checkerCutoff eventEnded)).max? }

def epochOf (startRound epochTicks number : ℤ) : ℤ := (number - startRound).tdiv epochTicks + 1

/-- The rounds which a query takes into account. -/
def scoringRounds (rounds : List KothRound) (startRound rangeStart : ℤ)
    (roundCutoff : Option ℤ) : List KothRound :=
  rounds.filter fun round =>
    decide (startRound ≤ round.number) && decide (rangeStart ≤ round.number) &&
      withinCutoff eventEnded roundCutoff round.startTimeUtc

/-- The metadata of the hills, by epoch and hill. -/
def loadHillMetas (rounds : List KothRound) (startRound rangeStart epochTicks : ℤ)
    (roundCutoff : Option ℤ) : List HillEpochMetaRow :=
  let key := fun round : KothRound => epochOf startRound epochTicks round.number
  let scoring := scoringRounds eventEnded rounds startRound rangeStart roundCutoff
  if config.epochTicks = epochTicks then
    (sortedKeys (scoring.map key)).flatMap fun epoch => config.hillOrder.map
      (hillMeta config evidence checkerCutoff eventEnded epoch (rows key epoch scoring))
  else []

end Evidence

def OfficialConfig.clampedEpochTicks (config : OfficialConfig) : ℤ :=
  max 1 (min config.epochTicks 64)

/-- An event with its rollup tables. -/
structure KothEvent where
  clock : ℤ
  endTimeUtc : ℤ
  scoringStartRound : Option ℤ
  rounds : List KothRound
  evidence : ControlEvidence
  store : RollupStore

section Sealing

variable (sqrt : ℚ → ℚ) (config : OfficialConfig)

def inconsistentRanges (epoch : ℤ) : AppError :=
  .internal ("KotH epoch " ++ toString epoch ++ " has inconsistent hill round ranges")

/-- Seal the epochs of a list up to the first one which can still change.  The last epoch to be
seen is marked by its own last round. -/
def sealEpochs (epochTicks : ℤ) (ended : Bool) (hillMetas : List HillEpochMetaRow)
    (teamEvidence : List TeamEvidenceRow) (latestVisibleRound : ℤ) :
    List ℤ → RollupStore → Except AppError RollupStore
  | [], store => .ok store
  | epoch :: epochs, store =>
    match rows (·.epoch) epoch hillMetas with
    | [] => sealEpochs epochTicks ended hillMetas teamEvidence latestVisibleRound epochs store
    | first :: rest =>
      if !consistentRanges first (first :: rest) then .error (inconsistentRanges epoch)
      else if !sealable epochTicks ended first (first :: rest) then .ok store
      else do
        let scored ← scoreEvidenceRows sqrt (first :: rest) (rows (·.epoch) epoch teamEvidence)
          config.rosterIds epochTicks ended
        let store ← materializeEpoch epochTicks store epoch
          (if first.endRound < latestVisibleRound then first.endRound + 1 else first.endRound)
          (first :: rest) config.rosterIds scored
        sealEpochs epochTicks ended hillMetas teamEvidence latestVisibleRound epochs store

/-- Seal every epoch which became immutable, with the evidence of the teams which was read. -/
def ensureEpochRollups (event : KothEvent) (teamEvidence : List TeamEvidenceRow) (now : ℤ) :
    Except AppError RollupStore :=
  match event.scoringStartRound with
  | none => .ok event.store
  | some officialStartRound =>
    let epochTicks := config.clampedEpochTicks
    let ended : Bool := event.endTimeUtc ≤ now
    let previousEpoch := ((event.store.headers.map (·.epoch)).max?).getD 0
    let rangeStart := officialStartRound + previousEpoch * epochTicks
    let cutoff := if ended then some event.endTimeUtc else none
    let hillMetas := loadHillMetas config event.evidence cutoff ended event.rounds
      officialStartRound rangeStart epochTicks cutoff
    let latestVisibleRound := ((hillMetas.map (·.endRound)).max?).getD 0
    sealEpochs sqrt config epochTicks ended hillMetas teamEvidence latestVisibleRound
      (sortedKeys (hillMetas.map (·.epoch))) event.store

end Sealing

namespace KothEvent

variable (sqrt : ℚ → ℚ) (config : OfficialConfig)

/-- Mark the round with a number. -/
def setFinalized (number : ℤ) (finalized : Bool) (rounds : List KothRound) : List KothRound :=
  rounds.map fun round => if round.number = number then { round with finalized } else round

/-- The event after its end was moved.  When an event which is over goes on, its last round is
played again. -/
def endChange (event : KothEvent) (nextEnd : ℤ) : KothEvent :=
  { event with
    endTimeUtc := nextEnd
    rounds :=
      if event.endTimeUtc ≤ event.clock ∧ event.clock < nextEnd then
        setFinalized event.rounds.length false event.rounds
      else event.rounds
    store := invalidateRollupsForEndChange config event.store event.endTimeUtc nextEnd }

/-- What may happen to an event.  A round is prepared while the event runs, and finalises the one
before it; the closeout finalises the others when the event is over.  An event which has rounds
is not shortened to an instant of the past. -/
inductive Step : KothEvent → KothEvent → Prop
  | tick {event : KothEvent} {clock : ℤ} (hclock : event.clock ≤ clock) :
      Step event { event with clock := clock }
  | record {event : KothEvent} (evidence : ControlEvidence) :
      Step event { event with evidence := evidence }
  | start {event : KothEvent} {startRound : ℤ} (hnone : event.scoringStartRound = none)
      (hpos : 1 ≤ startRound) :
      Step event { event with scoringStartRound := some startRound }
  | advance {event : KothEvent} {startTimeUtc : ℤ} (hopen : event.clock < event.endTimeUtc)
      (hstart : startTimeUtc ≤ event.clock) :
      Step event { event with
        rounds := setFinalized event.rounds.length true event.rounds ++
          [⟨event.rounds.length + 1, startTimeUtc, false⟩] }
  | closeout {event : KothEvent} (closed : KothRound → Bool)
      (hended : event.endTimeUtc ≤ event.clock) :
      Step event { event with
        rounds := event.rounds.map fun round =>
          { round with finalized := round.finalized || closed round } }
  | ensure {event : KothEvent} {store : RollupStore} (teamEvidence : List TeamEvidenceRow) (now : ℤ)
      (hensure : ensureEpochRollups sqrt config event teamEvidence now = .ok store) :
      Step event { event with store := store }
  | endChange {event : KothEvent} (nextEnd : ℤ)
      (hfuture : nextEnd < event.endTimeUtc → event.rounds ≠ [] → event.clock < nextEnd) :
      Step event (event.endChange config nextEnd)

/-- An event starts without rounds, and with nothing sealed. -/
def Reachable (event : KothEvent) : Prop :=
  ∃ event₀ : KothEvent, event₀.rounds = [] ∧ event₀.scoringStartRound = none ∧
    event₀.store = .empty ∧ Relation.ReflTransGen (Step sqrt config) event₀ event

end KothEvent

end KingOfTheHill

end Rsctf
