import Rsctf.Data.Locks
import Rsctf.Data.ReadCommitted
import Rsctf.Engine.Rounds

/-!
# The round pipeline

After a round is prepared, one replica at a time finishes it: it claims the round under a
lease, records the verdicts of the checkers, and completes the round or gives it up.  The
scheduler finalizes a round when it opens the next one, and the closeout finalizes the
last rounds of an ended game.

Every call is a transaction of a few statements under read committed.  A transaction takes
part in a run with its number; between two of its statements the others take theirs.  What
a statement reads from tables of other parts of the platform comes with the step.
-/

open Keyed

namespace Rsctf

namespace Engine

open AttackDefense (AdCheckStatus)

def roundFinishLeaseSeconds : ℤ := 300

/-- The token of a lease: the process which drew it, and what makes it unique. -/
structure LeaseToken where
  owner : String
  nonce : String
deriving DecidableEq, Repr

/-- What the pipeline keeps of a round. -/
structure PipelineRound where
  gameId : ℤ
  number : ℤ
  startTimeUtc : ℤ
  endTimeUtc : ℤ
  finalized : Bool
  pipelineCompletedAt : Option ℤ
  pipelineLeaseToken : Option LeaseToken
  pipelineLeaseUntil : Option ℤ
deriving DecidableEq, Repr

/-- A verdict, pending until it has a credit. -/
structure CheckResult where
  status : AdCheckStatus
  message : Option String
  checkedAt : ℤ
  slaCredit : Option ℚ
  flagVerified : Bool
deriving DecidableEq, Repr

section Leases

namespace PipelineRound

/-- The round may still be finished by somebody. -/
def Open (row : PipelineRound) : Prop := row.pipelineCompletedAt = none ∧ row.finalized = false

instance (row : PipelineRound) : Decidable row.Open := inferInstanceAs (Decidable (_ ∧ _))

def leaseFree (row : PipelineRound) (now : ℤ) : Bool := row.pipelineLeaseUntil.all (· ≤ now)

/-- The lease of a token, whether or not it has run out. -/
def ownedBy (row : PipelineRound) (token : LeaseToken) : Bool :=
  row.pipelineCompletedAt.isNone && row.pipelineLeaseToken = some token

def unlease (row : PipelineRound) : PipelineRound :=
  { row with pipelineLeaseToken := none, pipelineLeaseUntil := none }

end PipelineRound

/-- What a claim reads of its round before it updates it. -/
structure ClaimTarget where
  pipelineCompletedAt : Option ℤ
  endTimeUtc : ℤ
deriving DecidableEq, Repr

def claimTarget (gameId : ℤ) (row : PipelineRound) : Option ClaimTarget :=
  if row.gameId = gameId ∧ row.finalized = false then
    some ⟨row.pipelineCompletedAt, row.endTimeUtc⟩
  else none

def leaseUntil (target : ClaimTarget) (now : ℤ) : ℤ :=
  min (now + seconds roundFinishLeaseSeconds)
    (max (target.endTimeUtc + seconds 1) (now + seconds 5))

/-- The statements which lock rounds, most of them to update them. -/
inductive RoundStatement
  | claim (roundId : ℤ) (token : LeaseToken) (target : ClaimTarget)
  | complete (gameId roundId : ℤ) (token : LeaseToken)
  | abandon (gameId roundId : ℤ) (token : LeaseToken)
  | abandonProcess (owner : String)
  | lockOwned (gameId roundId : ℤ) (token : LeaseToken)
  | lockUnfinalized (gameId roundId : ℤ)
  | expire (gameId roundId : ℤ) (token : LeaseToken)
  | lockLatest (gameId : ℤ)
  | lockEnded (gameId graceSeconds : ℤ)
  | finalize (roundIds : List ℤ)
deriving DecidableEq

namespace RoundStatement

/-- What a statement asks of a row.  A claim tests the completion in what it has read
before, and only the lease in the row which it updates. -/
def test (statement : RoundStatement) (id : ℤ) (row : PipelineRound) (now : ℤ) : Bool :=
  match statement with
  | .claim roundId _ target =>
      id = roundId && target.pipelineCompletedAt.isNone && row.leaseFree now
  | .complete gameId roundId token =>
      id = roundId && row.gameId = gameId && !row.finalized && row.ownedBy token
  | .abandon gameId roundId token =>
      id = roundId && row.gameId = gameId && row.ownedBy token
  | .abandonProcess owner =>
      row.pipelineCompletedAt.isNone && row.pipelineLeaseToken.any (·.owner = owner)
  | .lockOwned gameId roundId token =>
      id = roundId && row.gameId = gameId && !row.finalized && row.ownedBy token &&
        row.pipelineLeaseUntil.any (now < ·)
  | .lockUnfinalized gameId roundId =>
      id = roundId && row.gameId = gameId && !row.finalized
  | .expire gameId roundId token =>
      id = roundId && row.gameId = gameId && !row.finalized && row.ownedBy token &&
        row.endTimeUtc ≤ now
  | .lockLatest gameId => row.gameId = gameId
  | .lockEnded gameId _ => row.gameId = gameId && !row.finalized
  | .finalize roundIds => id ∈ roundIds

/-- The round which a statement looks up by its primary key. -/
def primaryKey : RoundStatement → Option ℤ
  | .claim roundId _ _ => some roundId
  | .complete _ roundId _ => some roundId
  | .abandon _ roundId _ => some roundId
  | .lockOwned _ roundId _ => some roundId
  | .lockUnfinalized _ roundId => some roundId
  | .expire _ roundId _ => some roundId
  | .abandonProcess _ => none
  | .lockLatest _ => none
  | .lockEnded _ _ => none
  | .finalize _ => none

/-- The lock of a row may be held by several transactions. -/
def sharesLock : RoundStatement → Bool
  | .lockOwned _ _ _ => true
  | _ => false

/-- The version which a statement leaves of a row that it has locked alone. -/
def apply (statement : RoundStatement) (now : ℤ) (row : PipelineRound) : PipelineRound :=
  match statement with
  | .claim _ token target =>
      { row with
        pipelineLeaseToken := some token
        pipelineLeaseUntil := some (leaseUntil target now) }
  | .complete _ _ _ => { row.unlease with pipelineCompletedAt := some now }
  | .abandon _ _ _ => row.unlease
  | .abandonProcess _ => row.unlease
  | .expire _ _ _ =>
      { row.unlease with pipelineCompletedAt := some (row.pipelineCompletedAt.getD now) }
  | .finalize _ => { row with finalized := true }
  | .lockOwned _ _ _ => row
  | .lockUnfinalized _ _ => row
  | .lockLatest _ => row
  | .lockEnded _ _ => row

end RoundStatement

end Leases

section Verdicts

/-- A probe as it comes back from a checker. -/
structure AdProbeResult where
  serviceId : ℤ
  participationId : ℤ
  challengeId : ℤ
  host : String
  port : ℤ
  containerId : Option String
  status : AdCheckStatus
  message : Option String
  flagVerified : Bool
  observedAt : ℤ
deriving DecidableEq, Repr

/-- A service of the roster; it is authorized while its team is accepted and its challenge
is an enabled Attack & Defense one. -/
structure RosterRow where
  serviceId : ℤ
  participationId : ℤ
  challengeId : ℤ
  host : String
  port : ℤ
  containerId : Option String
  authorized : Bool
deriving DecidableEq, Repr

def endpointChanged : String :=
  "service endpoint changed after flag publication; participant sample offline"

/-- The probe of a service which has moved counts as offline; one of another identity does
not count. -/
def bindToAuthoritativeIdentity (service : RosterRow) (result : AdProbeResult) :
    Option AdProbeResult :=
  if service.participationId ≠ result.participationId ∨
      service.challengeId ≠ result.challengeId then none
  else if service.host ≠ result.host ∨ service.port ≠ result.port ∨
      service.containerId ≠ result.containerId then
    some { result with
      host := service.host
      port := service.port
      containerId := service.containerId
      status := .offline
      message := some endpointChanged
      flagVerified := false }
  else some result

def tickCredit (current : AdCheckStatus) (previous : Option AdCheckStatus) : ℚ :=
  match current, previous with
  | .ok, some .offline => 1 / 2
  | .ok, some .mumble => 1 / 2
  | .ok, _ => 1
  | _, _ => 0

def checkerResultTimeIsValid (gameStart gameEnd roundStart roundEnd observedAt : ℤ) : Bool :=
  gameStart ≤ observedAt && roundStart ≤ observedAt && observedAt < roundEnd &&
    observedAt < gameEnd

def CheckResult.resolved (result : CheckResult) : Bool := result.slaCredit.isSome

/-- A verdict with its credit. -/
structure Verdict where
  status : AdCheckStatus
  message : Option String
  checkedAt : ℤ
  slaCredit : ℚ
  flagVerified : Bool
deriving DecidableEq, Repr

def Verdict.result (verdict : Verdict) : CheckResult :=
  ⟨verdict.status, verdict.message, verdict.checkedAt, some verdict.slaCredit,
    verdict.flagVerified⟩

/-- A zero which the engine records for a verdict that did not come. -/
def zeroVerdict (status : AdCheckStatus) (message : String) (checkedAt : ℤ) : Verdict :=
  ⟨status, some message, checkedAt, 0, false⟩

def pendingResult (now : ℤ) : CheckResult :=
  ⟨.internalError, some "checker not yet executed (pending k8s/docker runner)", now, none,
    false⟩

/-- Only a pending verdict is replaced. -/
def resolve (verdict : Verdict) (old : CheckResult) : Option CheckResult :=
  if old.resolved then none else some verdict.result

end Verdicts

section Transactions

/-- What a checker writes under the fence of its lease. -/
inductive FencedWrite
  | recordCheckResults (results : List AdProbeResult)
  | completeUnresolvedCheckResults
  | kothResults

/-- The calls which hold the lock of a game. -/
inductive GameCall
  | fencedWrite (roundId : ℤ) (token : LeaseToken) (write : FencedWrite)
  | expireOverdueRoundFinish (roundId : ℤ) (token : LeaseToken)
  | prepareRound (expectedLatest : Option RoundCursor) (requiredNetworkBound : Option Bool)
  | finalizeEndedRoundChecks (graceSeconds : ℤ)

inductive Call
  | claimRoundFinish (gameId roundId : ℤ) (token : LeaseToken)
  | completeRoundFinish (gameId roundId : ℤ) (token : LeaseToken)
  | abandonRoundFinish (gameId roundId : ℤ) (token : LeaseToken)
  | abandonProcessRoundFinishes (owner : String)
  | underGameLock (gameId : ℤ) (call : GameCall)

/-- A verdict which the publication of flags has settled for a service. -/
structure ClosedDelivery where
  serviceId : ℤ
  status : AdCheckStatus
  reason : String
  completedAt : ℤ
deriving DecidableEq, Repr

/-- What a step reads outside the tables of the pipeline. -/
structure Reading where
  defaults : AdScoringConfig
  settings : GameSettings
  challenges : List EngineChallenge
  roster : List RosterRow
  services : List ℤ
  closedDeliveries : List ClosedDelivery
  kothComplete : Bool
  boundedDiagnostic : String → String
  newRoundId : ℤ
  rewritten : Bool

def Reading.game (reading : Reading) : EngineGame Unit :=
  ⟨reading.settings, reading.challenges, [], [], 0, [], [], ()⟩

/-- The statements which write verdicts. -/
inductive ResultStatement
  | upsert (roundId serviceId : ℤ) (verdict : Verdict)
  | settleDeliveries (roundId : ℤ)
  | closeCancelled (roundId roundEnd : ℤ)
  | closeOpened (roundId now : ℤ)
  | closeEnded (roundIds : List ℤ)
  | insertPending (roundId serviceId now : ℤ)

/-- What follows on a statement which locks rounds. -/
inductive Next
  | commit
  | fenced (write : FencedWrite)
  | publish (token : LeaseToken)
  | classify (expectedLatest : Option RoundCursor) (opening : Reading) (now : ℤ)
  | openRound (gameId number : ℤ) (window : ℤ × ℤ) (now : ℤ)
  | closeout

/-- Where a transaction stands.  A statement which locks rounds found them at some moment
and locks them one after another. -/
inductive Phase
  | idle
  | begun (gameId : ℤ) (call : GameCall)
  | selecting (statement : RoundStatement) (readAt : ℤ) (found : List (ℤ × PipelineRound))
      (locked : List ℤ) (next : Next)
  | writing (fence : Option (ℤ × LeaseToken)) (script : List ResultStatement)
      (next : Option (RoundStatement × Next))

def Phase.done : Phase := .writing none [] none

inductive RoundFinishDisposition
  | complete
  | claimed (lease : LeaseToken)
  | inFlight
deriving DecidableEq, Repr

namespace Phase

/-- Nothing is left but to commit. -/
def finished : Phase → Bool
  | .selecting _ _ [] _ .commit => true
  | .writing _ [] none => true
  | _ => false

/-- The answer of a claim whose statement is through. -/
def disposition : Phase → Option (ℤ × RoundFinishDisposition)
  | .selecting (.claim roundId token target) _ [] locked .commit =>
      if target.pipelineCompletedAt.isSome then some (roundId, .complete)
      else if roundId ∈ locked then some (roundId, .claimed token)
      else some (roundId, .inFlight)
  | _ => none

/-- The lease under whose fence a transaction writes. -/
def fence : Phase → Option (ℤ × LeaseToken)
  | .writing fence _ _ => fence
  | _ => none

end Phase

/-- The tables of the pipeline, and the transactions which are under way. -/
structure Pipeline where
  now : ℤ
  rounds : RowTable ℤ PipelineRound
  results : RowTable (ℤ × ℤ) CheckResult
  gameLocks : Locks ℤ
  phases : ℕ → Phase

namespace Pipeline

def empty (now : ℤ) : Pipeline := ⟨now, .empty, .empty, .none, fun _ => .idle⟩

variable (s : Pipeline) (t : ℕ) (reading : Reading)

def setPhase (phase : Phase) : Pipeline := { s with phases := Function.update s.phases t phase }

def latestRound (gameId : ℤ) : Option (ℤ × PipelineRound) :=
  latest (·.2.number) ((s.rounds.rows t).filter (·.2.gameId = gameId))

section Select

/-- An ended game waits for its last verdicts for some grace. -/
def closable (graceSeconds roundId : ℤ) : Bool :=
  let settled := (s.results.rows t).all fun r => r.1.1 ≠ roundId || r.2.resolved
  reading.settings.endTimeUtc ≤ s.now &&
    (settled && reading.kothComplete ||
      reading.settings.endTimeUtc ≤ s.now - seconds (max graceSeconds 0))

/-- The rows which a statement finds. -/
def candidates (statement : RoundStatement) : List (ℤ × PipelineRound) :=
  let visible := match statement.primaryKey with
    | some id => ((s.rounds.read t id).map fun row => (id, row)).toList
    | none => s.rounds.rows t
  let rows := visible.filter fun r => statement.test r.1 r.2 s.now
  match statement with
  | .lockLatest _ => (latest (·.2.number) rows).toList
  | .lockEnded _ graceSeconds => rows.filter fun r => s.closable t reading graceSeconds r.1
  | _ => rows

def select (statement : RoundStatement) (next : Next) : Pipeline :=
  s.setPhase t (.selecting statement s.now (s.candidates t reading statement) [] next)

/-- Lock the next row which a statement has found, unless its predicate has become false. -/
def lockRound (statement : RoundStatement) (readAt id : ℤ) (found : PipelineRound) :
    Option (RowTable ℤ PipelineRound × Bool) := do
  let current ← s.rounds.read t id
  let lock := s.rounds.lock id
  if statement.sharesLock then
    guard (lock.sharable t)
    match RowTable.recheck (statement.test id) readAt s.now reading.rewritten found
        current with
    | some _ => return (s.rounds.share t id, true)
    | none => return (s.rounds, false)
  else
    guard (lock.available t)
    match RowTable.recheck (statement.test id) readAt s.now reading.rewritten found
        current with
    | some at' => return (s.rounds.write t id (statement.apply at' current), true)
    | none => return (s.rounds, false)

end Select

section Verdicts

def previousStatus (roundId serviceId : ℤ) : Option AdCheckStatus :=
  (latest (·.1.1) ((s.results.rows t).filter fun r =>
    r.1.2 = serviceId ∧ r.1.1 < roundId)).map (·.2.status)

/-- The verdicts which `recordCheckResults` stores. -/
def recordedResults (roundId : ℤ) (round : PipelineRound) (results : List AdProbeResult) :
    List ResultStatement :=
  let valid := results.filter fun result =>
    checkerResultTimeIsValid reading.settings.startTimeUtc reading.settings.endTimeUtc
      round.startTimeUtc round.endTimeUtc result.observedAt
  let bound := valid.filterMap fun result =>
    (reading.roster.find? fun service =>
      service.serviceId = result.serviceId && service.authorized).bind
        (bindToAuthoritativeIdentity · result)
  bound.map fun result => .upsert roundId result.serviceId
    ⟨result.status, result.message.map reading.boundedDiagnostic, result.observedAt,
      tickCredit result.status (s.previousStatus t roundId result.serviceId),
      result.flagVerified⟩

def fencedScript (gameId roundId : ℤ) (write : FencedWrite) : Option (List ResultStatement) :=
  match write with
  | .kothResults => some []
  | .completeUnresolvedCheckResults =>
      (s.rounds.read t roundId).map fun round => [.closeCancelled roundId round.endTimeUtc]
  | .recordCheckResults results =>
      match s.latestRound t gameId with
      | none => none
      | some (id, round) =>
        if id = roundId ∧ round.finalized = false then
          some (s.recordedResults t reading roundId round results)
        else none

/-- The new versions which a statement writes of the verdicts that it finds. -/
def closeResult (statement : ResultStatement) (key : ℤ × ℤ) (old : CheckResult) :
    Option CheckResult :=
  match statement with
  | .settleDeliveries roundId =>
      if key.1 = roundId then
        (reading.closedDeliveries.find? (·.serviceId = key.2)).bind fun delivery =>
          resolve (zeroVerdict delivery.status delivery.reason delivery.completedAt) old
      else none
  | .closeCancelled roundId roundEnd =>
      if key.1 = roundId then
        resolve (zeroVerdict .internalError "checker pass cancelled before completion"
          (min s.now (min reading.settings.endTimeUtc roundEnd))) old
      else none
  | .closeOpened roundId now =>
      if key.1 = roundId then
        resolve (zeroVerdict .internalError
          "checker pass incomplete when the next round opened" now) old
      else none
  | .closeEnded roundIds =>
      if key.1 ∈ roundIds then
        resolve (zeroVerdict .internalError
          "checker pass did not complete before event-close grace expired"
          reading.settings.endTimeUtc) old
      else none
  | .upsert _ _ _ => none
  | .insertPending _ _ _ => none

def writeResults (statement : ResultStatement) : Option (RowTable (ℤ × ℤ) CheckResult) :=
  match statement with
  | .upsert roundId serviceId verdict => do
    guard ((s.results.lock (roundId, serviceId)).available t)
    match s.results.read t (roundId, serviceId) with
    | some old =>
        return s.results.write t (roundId, serviceId) ((resolve verdict old).getD old)
    | none => return s.results.insert t (roundId, serviceId) verdict.result
  | .insertPending roundId serviceId now => do
    guard ((s.results.lock (roundId, serviceId)).available t)
    match s.results.read t (roundId, serviceId) with
    | some _ => return s.results
    | none => return s.results.insert t (roundId, serviceId) (pendingResult now)
  | statement => do
    guard (s.results.writable t (s.closeResult reading statement))
    return s.results.update t (s.closeResult reading statement)

end Verdicts

section Prepare

/-- The target, the window and the statements which close the round before. -/
def classifyRound (latest : Option (ℤ × PipelineRound)) (gameId : ℤ)
    (expectedLatest : Option RoundCursor) (opening : Reading) (now : ℤ) : Option Phase := do
  let expectedIdentity := expectedLatest.map fun round => (round.id, round.number)
  let latestIdentity := latest.map fun r => (r.1, r.2.number)
  guard (classifyRoundTarget latestIdentity expectedIdentity ≠ .stale)
  guard (expectedLatest.all fun expected =>
    (s.rounds.read t expected.id).any fun row =>
      row.gameId = gameId && row.pipelineCompletedAt.isSome)
  let window ← (roundWindow opening.defaults opening.settings opening.game.hasApiHill
    (latest.map (·.2.endTimeUtc)) now).toOption
  let closed := expectedLatest.toList.map (·.id)
  return .writing none (closed.map fun id => .closeOpened id now)
    (some (.finalize closed, .openRound gameId (targetNumber expectedIdentity) window now))

/-- Insert the round, or lock the one which is already there. -/
def openRound (gameId number : ℤ) (window : ℤ × ℤ) :
    Option (RowTable ℤ PipelineRound × ℤ) :=
  match (s.rounds.rows t).find? fun r => r.2.gameId = gameId ∧ r.2.number = number with
  | some (id, row) => do
    guard ((s.rounds.lock id).available t)
    let current ← s.rounds.read t id
    guard (current = row)
    return (s.rounds.write t id row, id)
  | none => do
    let id := reading.newRoundId
    guard ((s.rounds.lock id).available t)
    guard ((s.rounds.read t id).isNone)
    return (s.rounds.insert t id
      ⟨gameId, number, window.1, window.2, false, none, none, none⟩, id)

end Prepare

section Steps

/-- The round which the lease of a token holds up past its end. -/
def ownedOverdue (gameId roundId : ℤ) (token : LeaseToken) : Bool :=
  (s.latestRound t gameId).any fun r =>
    (RoundStatement.expire gameId roundId token).test r.1 r.2 s.now

def start (call : Call) : Option Pipeline :=
  match s.phases t with
  | .idle =>
    match call with
    | .claimRoundFinish gameId roundId token => do
      let row ← s.rounds.read t roundId
      let target ← claimTarget gameId row
      return s.select t reading (.claim roundId token target) .commit
    | .completeRoundFinish gameId roundId token =>
        some (s.select t reading (.complete gameId roundId token) .commit)
    | .abandonRoundFinish gameId roundId token =>
        some (s.select t reading (.abandon gameId roundId token) .commit)
    | .abandonProcessRoundFinishes owner =>
        some (s.select t reading (.abandonProcess owner) .commit)
    | .underGameLock gameId call => do
      guard (s.gameLocks.available t gameId)
      return { s.setPhase t (.begun gameId call) with
        gameLocks := s.gameLocks.acquire t [gameId] }
  | _ => none

/-- The first statement under the lock of a game. -/
def enter (gameId : ℤ) (call : GameCall) : Option Pipeline :=
  match call with
  | .fencedWrite roundId token write =>
      some (s.select t reading (.lockOwned gameId roundId token) (.fenced write))
  | .expireOverdueRoundFinish roundId token =>
      if s.ownedOverdue t gameId roundId token then
        some (s.select t reading (.lockUnfinalized gameId roundId) (.publish token))
      else some (s.setPhase t .done)
  | .prepareRound expectedLatest requiredNetworkBound =>
      match checkAdvancement reading.game requiredNetworkBound s.now with
      | .error _ => none
      | .ok () =>
          some (s.select t reading (.lockLatest gameId) (.classify expectedLatest reading s.now))
  | .finalizeEndedRoundChecks graceSeconds =>
      some (s.select t reading (.lockEnded gameId graceSeconds) .closeout)

/-- What comes after a statement has locked its rows. -/
def proceed (statement : RoundStatement) (locked : List ℤ) (next : Next) : Option Pipeline :=
  match statement, next with
  | .lockOwned gameId roundId token, .fenced write => do
    guard (locked ≠ [])
    let script ← s.fencedScript t reading gameId roundId write
    return s.setPhase t (.writing (some (roundId, token)) script none)
  | .lockUnfinalized gameId roundId, .publish token => do
    let round ← s.rounds.read t roundId
    let settlement := if locked = [] then [] else [.settleDeliveries roundId]
    return s.setPhase t (.writing none
      (settlement ++ [.closeCancelled roundId round.endTimeUtc])
      (some (.expire gameId roundId token, .commit)))
  | .lockLatest gameId, .classify expectedLatest opening now => do
    let latest := locked.head?.bind fun id => (s.rounds.read t id).map fun row => (id, row)
    let phase ← s.classifyRound t latest gameId expectedLatest opening now
    return s.setPhase t phase
  | .finalize _, .openRound gameId number window now => do
    let (rounds, roundId) ← s.openRound t reading gameId number window
    return { s.setPhase t (.writing none (reading.services.map fun serviceId =>
      .insertPending roundId serviceId now) none) with rounds }
  | .lockEnded _ _, .closeout =>
      if locked = [] then some (s.setPhase t .done)
      else some (s.setPhase t (.writing none
        (locked.map (fun id => .settleDeliveries id) ++ [.closeEnded locked])
        (some (.finalize locked, .commit))))
  | _, _ => none

/-- The next step of an open transaction. -/
def advance : Option Pipeline :=
  match s.phases t with
  | .idle => none
  | .begun gameId call => s.enter t reading gameId call
  | .selecting statement readAt ((id, found) :: rest) locked next => do
    let (rounds, kept) ← s.lockRound t reading statement readAt id found
    return { s.setPhase t (.selecting statement readAt rest
      (if kept then locked ++ [id] else locked) next) with rounds }
  | .selecting statement _ [] locked next => s.proceed t reading statement locked next
  | .writing fence (statement :: script) next => do
    let results ← s.writeResults t reading statement
    return { s.setPhase t (.writing fence script next) with results }
  | .writing _ [] (some (statement, next)) => some (s.select t reading statement next)
  | .writing _ [] none => none

def commit : Pipeline where
  now := s.now
  rounds := s.rounds.commit t
  results := s.results.commit t
  gameLocks := s.gameLocks.release t
  phases := Function.update s.phases t .idle

/-- An error or a lost connection. -/
def abort : Pipeline where
  now := s.now
  rounds := s.rounds.rollback t
  results := s.results.rollback t
  gameLocks := s.gameLocks.release t
  phases := Function.update s.phases t .idle

end Steps

/-- What happens to the pipeline. -/
inductive Action
  | tick (later : ℤ)
  | start (t : ℕ) (reading : Reading) (call : Call)
  | advance (t : ℕ) (reading : Reading)
  | commit (t : ℕ)
  | abort (t : ℕ)

def step : Action → Option Pipeline
  | .tick later => if s.now ≤ later then some { s with now := later } else none
  | .start t reading call => s.start t reading call
  | .advance t reading => s.advance t reading
  | .commit t => if (s.phases t).finished then some (s.commit t) else none
  | .abort t => some (s.abort t)

end Pipeline

end Transactions

end Engine

end Rsctf
