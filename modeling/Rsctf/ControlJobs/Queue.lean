import Mathlib.Algebra.Order.Ring.Int
import Mathlib.Algebra.Ring.Nat
import Mathlib.Data.Prod.Lex
import Mathlib.Logic.Relation
import Rsctf.Data.Keyed

/-!
# The queue of control jobs

A slow mutation of an operator is admitted as a durable job.  A request which finds an active
job for its scope joins it; a worker claims a job under a lease and a fresh token, and every
later statement about the job is fenced with that token.  An input which grows while a pass is
running raises the revision of the job, and the pass then ends by queueing the job again.
-/

open Keyed

namespace Rsctf

namespace ControlJobs

abbrev Uuid := ℕ

inductive AppError
  | badRequest (message : String)
  | notFound (message : String)
  | conflict (message : String)
  | overloaded (title : String) (retryAfter : ℕ)
  | internal (message : String)
deriving DecidableEq, Repr

inductive ControlJobKind
  | challengeBuild
  | buildBatch
  | variantGeneration
  | securityDerivation
  | workloadRollout
  | adReconcile
  | adReset
  | imagePreflight
  | competitionResume
deriving DecidableEq, Repr

inductive ControlJobStatus
  | queued
  | running
  | succeeded
  | failed
  | cancelled
deriving DecidableEq, Repr

/-- The input of a job: the keys which the queue looks at, and the others by their text. -/
structure JobInput where
  participationId : Option ℤ
  ensureVpn : Option Bool
  ensureKoth : Option Bool
  reconciliationGeneration : Option ℤ
  rest : List (String × String)
deriving DecidableEq, Repr

structure JobResult where
  reconciliationGeneration : Option ℤ
  rest : String
deriving DecidableEq, Repr

/-- The lease of a running job: the columns are set together. -/
structure JobLease where
  token : Uuid
  expiresAtUtc : ℤ
deriving DecidableEq, Repr

structure Job where
  id : Uuid
  kind : ControlJobKind
  scopeKey : String
  gameId : ℤ
  challengeId : Option ℤ
  operationId : Uuid
  fingerprint : String
  input : JobInput
  inputRevision : ℤ
  status : ControlJobStatus
  progressCurrent : ℤ
  progressTotal : ℤ
  result : Option JobResult
  error : Option String
  lease : Option JobLease
  cancelRequestedAtUtc : Option ℤ
  createdAtUtc : ℤ
  finishedAtUtc : Option ℤ
deriving DecidableEq, Repr

/-- What a worker holds after it claimed a job, with the checkpoints which it wrote since. -/
structure ClaimedControlJob where
  jobId : Uuid
  leaseToken : Uuid
  input : JobInput
  inputRevision : ℤ
  checkpoints : List (List (String × String))
deriving DecidableEq, Repr

/-- The tables, the clock, the claims which were handed out, and the identifiers in use. -/
structure Queue where
  clock : ℤ
  jobs : List Job
  operations : List (Uuid × Uuid)
  claims : List ClaimedControlJob
  issued : List Uuid

def Queue.empty (clock : ℤ) : Queue := ⟨clock, [], [], [], []⟩

def maxActiveJobs : ℕ := 256
def maxActiveResetsPerGame : ℕ := 32
def maxActiveResetsPerParticipation : ℕ := 2
def maxOperationAliasesPerJob : ℕ := 64
def maxScopeBytes : ℕ := 256
def maxInputBytes : ℕ := 16 * 1024
def maxResultBytes : ℕ := 64 * 1024
def maxErrorBytes : ℕ := 4 * 1024
def maxInputRevision : ℤ := 1000000
def secondUs : ℤ := 1000000
def terminalRetentionUs : ℤ := 7 * 24 * 60 * 60 * secondUs

/-- The lengths and the digest of encoded values. -/
structure Encoding where
  inputBytes : JobInput → ℕ
  checkpointBytes : List (String × String) → ℕ
  resultBytes : JobResult → ℕ
  sha256 : JobInput → String

namespace Job

/-- The index of active jobs covers the queued and the running ones. -/
def active (job : Job) : Bool :=
  match job.status with
  | .queued | .running => true
  | .succeeded | .failed | .cancelled => false

def scope (job : Job) : ControlJobKind × String := (job.kind, job.scopeKey)

/-- An active reset of the services of a game. -/
def resetOf (gameId : ℤ) (job : Job) : Bool :=
  decide (job.kind = .adReset) && decide (job.gameId = gameId) && job.active

/-- An active reset of the services of a team. -/
def resetFor (participationId : ℤ) (job : Job) : Bool :=
  decide (job.kind = .adReset) && job.active &&
    decide (job.input.participationId = some participationId)

theorem resetOf_iff {gameId : ℤ} {job : Job} :
    job.resetOf gameId = true ↔ job.kind = .adReset ∧ job.gameId = gameId ∧ job.active = true := by
  simp [resetOf, and_assoc]

theorem resetFor_iff {participationId : ℤ} {job : Job} :
    job.resetFor participationId = true ↔
      job.kind = .adReset ∧ job.active = true ∧
        job.input.participationId = some participationId := by
  simp [resetFor, and_assoc]

/-- The lease has not run out. -/
def leasedAt (now : ℤ) (job : Job) : Bool := job.lease.any fun lease => now < lease.expiresAtUtc

/-- The job runs under the token. -/
def heldBy (claim : ClaimedControlJob) (job : Job) : Bool :=
  decide (job.id = claim.jobId) && decide (job.status = .running) &&
    decide (job.lease.map (·.token) = some claim.leaseToken)

end Job

section Enqueue

structure EnqueueRequest where
  kind : ControlJobKind
  scopeKey : String
  gameId : ℤ
  challengeId : Option ℤ
  operationId : Uuid
  fingerprint : String
  input : JobInput

/-- The anti-cheat queue of a game, as a request finds it. -/
structure GenerationState where
  desired : ℤ
  clean : Bool
deriving DecidableEq, Repr

variable (encoding : Encoding)

def isAsciiHexdigit (c : Char) : Bool :=
  c.isDigit || (decide ('a' ≤ c) && decide (c ≤ 'f')) || (decide ('A' ≤ c) && decide (c ≤ 'F'))

def validateEnqueue (request : EnqueueRequest) : Except AppError Unit :=
  if request.scopeKey.utf8ByteSize = 0 ∨ maxScopeBytes < request.scopeKey.utf8ByteSize then
    .error (.badRequest "control-job scope must contain 1 to 256 bytes")
  else if ¬(request.fingerprint.utf8ByteSize = 64 ∧
      request.fingerprint.toList.all isAsciiHexdigit) then
    .error (.badRequest "control-job fingerprint must be a SHA-256 hex value")
  else if maxInputBytes < encoding.inputBytes request.input then
    .error (.badRequest "control-job input is too large")
  else .ok ()

def canCoalesceActive (kind : ControlJobKind) (activeFingerprint requestedFingerprint : String) :
    Bool :=
  decide (activeFingerprint = requestedFingerprint) ||
    match kind with
    | .securityDerivation | .adReconcile | .adReset => true
    | _ => false

/-- The row of the job which an operation is an alias of. -/
def Queue.byOperation (queue : Queue) (operationId : Uuid) : Option Job :=
  (get Prod.fst operationId queue.operations).bind fun operation =>
    get Job.id operation.2 queue.jobs

def EnqueueRequest.same (request : EnqueueRequest) (row : Job) : Bool :=
  decide (row.kind = request.kind) && decide (row.scopeKey = request.scopeKey) &&
    (decide (row.fingerprint = request.fingerprint) || decide (request.kind = .securityDerivation))

/-- The request with the generation which it asks for, and the fingerprint of that input. -/
def bindCurrentGeneration (generations : ℤ → Option GenerationState) (request : EnqueueRequest) :
    Except AppError (JobInput × String × Option GenerationState) :=
  if request.kind = .securityDerivation then
    match generations request.gameId with
    | none => .error (.notFound "anti-cheat reconciliation queue not found")
    | some generation =>
      let input := { request.input with reconciliationGeneration := some generation.desired }
      .ok (input, encoding.sha256 input, some generation)
  else .ok (request.input, request.fingerprint, none)

def Queue.activeJob (queue : Queue) (kind : ControlJobKind) (scopeKey : String) : Option Job :=
  queue.jobs.find? fun job => job.active && decide (job.scope = (kind, scopeKey))

/-- An active derivation which was admitted for an older generation is raised to the new one. -/
def mergeActiveGeneration (queue : Queue) (row : Job) (desired : ℤ) (input : JobInput)
    (fingerprint : String) : Except AppError (Job × Queue) :=
  if row.input.reconciliationGeneration.any fun current => desired ≤ current then .ok (row, queue)
  else if row.inputRevision < maxInputRevision then
    let merged := { row with input, fingerprint, inputRevision := row.inputRevision + 1 }
    .ok (merged, { queue with jobs := queue.jobs.map fun job =>
      if job.id = row.id then merged else job })
  else .error (.overloaded "Security derivation reached its coalesced-generation bound" 2)

def attachOperationAlias (queue : Queue) (jobId operationId : Uuid) : Except AppError Queue :=
  if maxOperationAliasesPerJob ≤ queue.operations.countP (·.2 = jobId) then
    .error (.overloaded "This control-plane job has reached its retry-alias bound" 2)
  else .ok { queue with operations := queue.operations ++ [(operationId, jobId)] }

/-- The last derivation which succeeded for a generation. -/
def Queue.reusableCompletedGeneration (queue : Queue) (gameId : ℤ) (scopeKey : String)
    (desired : ℤ) : Option Job :=
  latest (fun job => toLex ((job.finishedAtUtc.getD 0, job.id) : ℤ × Uuid))
    (queue.jobs.filter fun job =>
      decide (job.kind = .securityDerivation) && decide (job.gameId = gameId) &&
        decide (job.scopeKey = scopeKey) && decide (job.status = .succeeded) &&
        decide (job.result.bind (·.reconciliationGeneration) = some desired))

def toI32 (value : ℤ) : Option ℤ := if -2 ^ 31 ≤ value ∧ value < 2 ^ 31 then some value else none

/-- The bounds on the active jobs. -/
def checkCapacity (queue : Queue) (request : EnqueueRequest) (input : JobInput) :
    Except AppError Unit :=
  if maxActiveJobs ≤ queue.jobs.countP Job.active then
    .error (.overloaded "Control-plane job capacity is full; retry later" 2)
  else if request.kind ≠ .adReset then .ok ()
  else if maxActiveResetsPerGame ≤ queue.jobs.countP (Job.resetOf request.gameId) then
    .error (.overloaded "Event reset capacity is full; retry later" 2)
  else match input.participationId.bind toI32 with
    | none => .ok ()
    | some participationId =>
      if maxActiveResetsPerParticipation ≤ queue.jobs.countP (Job.resetFor participationId) then
        .error (.overloaded "Team reset capacity is full; retry later" 2)
      else .ok ()

/-- The row which is inserted for a request. -/
def insertedJob (id : Uuid) (now : ℤ) (request : EnqueueRequest) (input : JobInput)
    (fingerprint : String) : Job where
  id := id
  kind := request.kind
  scopeKey := request.scopeKey
  gameId := request.gameId
  challengeId := request.challengeId
  operationId := request.operationId
  fingerprint := fingerprint
  input := input
  inputRevision := 1
  status := .queued
  progressCurrent := 0
  progressTotal := 0
  result := none
  error := none
  lease := none
  cancelRequestedAtUtc := none
  createdAtUtc := now
  finishedAtUtc := none

/-- Only derivations have generations. -/
def mergeGeneration (queue : Queue) (row : Job) (input : JobInput) (fingerprint : String) :
    Option GenerationState → Except AppError (Job × Queue)
  | some generation => mergeActiveGeneration queue row generation.desired input fingerprint
  | none => .ok (row, queue)

/-- The request joins an active job. -/
def coalesce (queue : Queue) (request : EnqueueRequest) (row : Job) (input : JobInput)
    (fingerprint : String) (generation : Option GenerationState) :
    Except AppError (Job × Queue) :=
  if !canCoalesceActive request.kind row.fingerprint fingerprint then
    .error (.conflict "A different revision is already active for this control-plane resource")
  else do
    let (row, queue) ← mergeGeneration queue row input fingerprint generation
    let queue ← attachOperationAlias queue row.id request.operationId
    .ok (row, queue)

/-- Insert a row and its first alias.  When an index refuses the row, the active job of the
scope is returned. -/
def insertJob (queue : Queue) (row : Job) : Except AppError (Job × Queue) :=
  if queue.jobs.any fun job => decide (job.operationId = row.operationId) ||
      (job.active && decide (job.scope = row.scope)) then
    match queue.activeJob row.kind row.scopeKey with
    | some active => .ok (active, queue)
    | none => .error (.conflict "control-job admission raced; retry")
  else if queue.operations.any (·.1 = row.operationId) then
    .error (.internal "duplicate key value violates unique constraint")
  else .ok (row, { queue with
    jobs := queue.jobs ++ [row]
    operations := queue.operations ++ [(row.operationId, row.id)]
    issued := row.id :: queue.issued })

/-- A new job is inserted, unless there is a job which already serves the generation. -/
def reuseOrInsert (queue : Queue) (id : Uuid) (request : EnqueueRequest) (input : JobInput)
    (fingerprint : String) (generation : Option GenerationState) :
    Except AppError (Job × Queue) :=
  match (generation.filter (·.clean)).bind fun generation =>
      queue.reusableCompletedGeneration request.gameId request.scopeKey generation.desired with
  | some row => do
    let queue ← attachOperationAlias queue row.id request.operationId
    .ok (row, queue)
  | none => do
    checkCapacity queue request input
    insertJob queue (insertedJob id queue.clock request input fingerprint)

/-- Answer an exact retry, join the active job of the scope, or insert a new job.  The admission
lock makes the whole transaction one step of the queue. -/
def enqueue (generations : ℤ → Option GenerationState) (id : Uuid) (request : EnqueueRequest)
    (queue : Queue) : Except AppError (Job × Queue) := do
  validateEnqueue encoding request
  match queue.byOperation request.operationId with
  | some row =>
    if request.same row then .ok (row, queue)
    else .error (.conflict "Idempotency-Key was already used for a different operation")
  | none =>
    let (input, fingerprint, generation) ← bindCurrentGeneration encoding generations request
    match queue.activeJob request.kind request.scopeKey with
    | some row => coalesce queue request row input fingerprint generation
    | none => reuseOrInsert queue id request input fingerprint generation

/-- A retry which finds the admission lock taken looks the operation up. -/
def recoverExactAfterBusy (request : EnqueueRequest) (queue : Queue) :
    Except AppError (Option Job) :=
  match queue.byOperation request.operationId with
  | none => .ok none
  | some row =>
    if request.same row then .ok (some row)
    else .error (.conflict "Idempotency-Key was already used for a different operation")

end Enqueue

section Lanes

inductive Lane
  | gameplay
  | build
  | maintenance
deriving DecidableEq, Repr

namespace Lane

def kinds : Lane → List ControlJobKind
  | .gameplay => [.adReset, .adReconcile]
  | .build => [.challengeBuild, .buildBatch, .workloadRollout, .imagePreflight]
  | .maintenance => [.competitionResume, .variantGeneration, .securityDerivation]

def forKind : ControlJobKind → Lane
  | .adReset | .adReconcile => .gameplay
  | .challengeBuild | .buildBatch | .workloadRollout | .imagePreflight => .build
  | .variantGeneration | .securityDerivation | .competitionResume => .maintenance

def slots : Lane → ℕ
  | .gameplay | .build => 2
  | .maintenance => 1

end Lane

theorem Lane.mem_kinds {lane : Lane} {kind : ControlJobKind} :
    kind ∈ lane.kinds ↔ Lane.forKind kind = lane := by
  cases lane <;> cases kind <;> simp [Lane.kinds, Lane.forKind]

/-- The job takes up a slot of the lane. -/
def Job.occupies (now : ℤ) (lane : Lane) (job : Job) : Bool :=
  decide (job.kind ∈ lane.kinds) && decide (job.status = .running) && job.leasedAt now

/-- The job is queued, or its lease ran out. -/
def Job.claimable (now : ℤ) (requested : List ControlJobKind) (job : Job) : Bool :=
  decide (job.kind ∈ requested) && (decide (job.status = .queued) ||
    (decide (job.status = .running) && job.lease.any fun lease => lease.expiresAtUtc ≤ now))

/-- Games with fewer running jobs of the lane come first, then older jobs. -/
def claimedBefore (queue : Queue) (lane : Lane) (left right : Job) : Bool :=
  let running := fun job : Job => queue.jobs.countP fun other =>
    decide (other.gameId = job.gameId) && other.occupies queue.clock lane
  decide (running left < running right) ||
    (decide (running left = running right) &&
      (decide (left.createdAtUtc < right.createdAtUtc) ||
        (decide (left.createdAtUtc = right.createdAtUtc) && decide (left.id ≤ right.id))))

def leaseUs (leaseSecs : ℤ) : ℤ := max 5 (min leaseSecs 900) * secondUs

/-- Claim a job of the requested kinds, unless the slots of the lane are taken.  Rows which
other transactions have locked are passed over; the lock of the lane makes it one step. -/
def claimMatching (lane : Lane) (requested : List ControlJobKind) (leaseSecs : ℤ)
    (leaseToken : Uuid) (locked : List Uuid) (queue : Queue) :
    Option (ClaimedControlJob × Queue) :=
  if lane.slots ≤ queue.jobs.countP (Job.occupies queue.clock lane) then none
  else
    let candidates := queue.jobs.filter fun job =>
      job.claimable queue.clock requested && decide (job.id ∉ locked)
    (candidates.insertionSort (claimedBefore queue lane · ·)).head?.map fun candidate =>
      let claim : ClaimedControlJob :=
        ⟨candidate.id, leaseToken, candidate.input, candidate.inputRevision, []⟩
      (claim, { queue with
        jobs := queue.jobs.map fun job =>
          if job.id = candidate.id then
            { job with
              status := .running
              lease := some ⟨leaseToken, queue.clock + leaseUs leaseSecs⟩ }
          else job
        claims := queue.claims ++ [claim]
        issued := leaseToken :: queue.issued })

end Lanes

section Fenced

/-- A statement which changes the rows with a property. -/
def Queue.update (p : Job → Bool) (f : Job → Job) (queue : Queue) : Queue :=
  { queue with jobs := queue.jobs.map fun job => if p job then f job else job }

variable (claim : ClaimedControlJob)

/-- End a job: the lease is given up. -/
def Job.finish (status : ControlJobStatus) (result : Option JobResult) (error : Option String)
    (now : ℤ) (job : Job) : Job :=
  { job with status, result, error, lease := none, finishedAtUtc := some now }

/-- The statements with which a pass over an input can end the job. -/
def Job.endable (job : Job) : Bool :=
  job.heldBy claim && decide (job.inputRevision = claim.inputRevision) &&
    job.cancelRequestedAtUtc.isNone

def completeRow (result : JobResult) (queue : Queue) : Queue :=
  queue.update (Job.endable claim) fun job =>
    { job.finish .succeeded (some result) none queue.clock with
      progressCurrent := job.progressTotal }

/-- Characters are taken off the end of a message until it is short enough. -/
def popUntil : List Char → List Char
  | [] => []
  | c :: reversed =>
    if maxErrorBytes < ((c :: reversed).map Char.utf8Size).sum then popUntil reversed
    else c :: reversed

def boundedError (error : String) : String := String.ofList (popUntil error.toList.reverse).reverse

def failRow (error : String) (queue : Queue) : Queue :=
  queue.update (Job.endable claim) (Job.finish .failed none (some (boundedError error)) queue.clock)

def finishCancellation (queue : Queue) : Queue :=
  queue.update (fun job => job.heldBy claim && job.cancelRequestedAtUtc.isSome)
    (Job.finish .cancelled none none queue.clock)

/-- The input grew while the pass was running: the job is queued for another pass.  A failed
pass also clears the message. -/
def requeueRow (failed : Bool) (queue : Queue) : Queue :=
  queue.update (fun job => job.heldBy claim && decide (job.inputRevision ≠ claim.inputRevision))
    fun job => { job with
      status := .queued
      lease := none
      error := if failed then none else job.error }

/-- A claim on which no work was begun is given back. -/
def releaseUnstarted (queue : Queue) : Queue :=
  queue.update (Job.heldBy claim) fun job =>
    if job.cancelRequestedAtUtc.isNone then { job with status := .queued, lease := none }
    else { job with status := .cancelled, lease := none, finishedAtUtc := some queue.clock }

def setProgress (current total : ℤ) (queue : Queue) : Except AppError Queue :=
  if current < 0 ∨ total < 1 ∨ total < current ∨ 1000000 < total then
    .error (.internal "control-job progress is out of bounds")
  else .ok (queue.update (Job.heldBy claim) fun job =>
    { job with progressCurrent := current, progressTotal := total })

/-- The keys of a checkpoint replace those of the input. -/
def JobInput.patch (checkpoint : List (String × String)) (input : JobInput) : JobInput :=
  { input with
    rest := input.rest.filter (fun entry => entry.1 ∉ checkpoint.map Prod.fst) ++ checkpoint }

/-- The claim with one more checkpoint. -/
def ClaimedControlJob.wrote (checkpoint : List (String × String)) (claim : ClaimedControlJob) :
    ClaimedControlJob :=
  { claim with checkpoints := claim.checkpoints ++ [checkpoint] }

/-- The input which the pass worked on. -/
def ClaimedControlJob.seen (claim : ClaimedControlJob) : JobInput :=
  claim.checkpoints.foldl (fun input checkpoint => input.patch checkpoint) claim.input

def checkpointInput (encoding : Encoding) (checkpoint : List (String × String)) (queue : Queue) :
    Except AppError Queue :=
  if maxInputBytes < encoding.checkpointBytes checkpoint then
    .error (.internal "control-job checkpoint is invalid")
  else if queue.jobs.any (Job.heldBy claim) then
    .ok { queue.update (Job.heldBy claim) fun job =>
        { job with input := job.input.patch checkpoint } with
      claims := queue.claims.map fun other =>
        if other.leaseToken = claim.leaseToken then other.wrote checkpoint else other }
  else .error (.conflict "Control job lost its execution lease")

/-- A derivation with more pages to read raises its own revision, and is queued again. -/
def continueIfDirty (queue : Queue) : Queue :=
  queue.update (fun job => job.heldBy claim && decide (job.inputRevision = claim.inputRevision) &&
      decide (job.inputRevision < maxInputRevision))
    fun job => { job with inputRevision := job.inputRevision + 1 }

end Fenced

section Unfenced

/-- Merge stronger requirements into an active job. -/
def mergeReconcileInput (encoding : Encoding) (id : Uuid) (input : JobInput) (queue : Queue) :
    Except AppError Queue :=
  if maxInputBytes < encoding.inputBytes input then
    .error (.badRequest "control-job input is too large")
  else .ok (queue.update
    (fun job => decide (job.id = id) && job.active &&
      ((input.ensureVpn.getD false && !job.input.ensureVpn.getD false) ||
        (input.ensureKoth.getD false && !job.input.ensureKoth.getD false)) &&
      decide (job.inputRevision < maxInputRevision))
    fun job => { job with
      input := { job.input with
        ensureVpn := some (job.input.ensureVpn.getD false || input.ensureVpn.getD false)
        ensureKoth := some (job.input.ensureKoth.getD false || input.ensureKoth.getD false) }
      inputRevision := job.inputRevision + 1 })

def ControlJobKind.cancellableRunning : ControlJobKind → Bool
  | .buildBatch | .variantGeneration | .workloadRollout | .adReconcile => true
  | _ => false

/-- A queued job is cancelled at once; a running one of some kinds is asked to stop. -/
def requestCancellation (id : Uuid) (queue : Queue) : Queue :=
  queue.update
    (fun job => decide (job.id = id) && (decide (job.status = .queued) ||
      (decide (job.status = .running) && job.kind.cancellableRunning)))
    fun job =>
      let asked := { job with
        cancelRequestedAtUtc := some (job.cancelRequestedAtUtc.getD queue.clock) }
      if job.status = .queued then
        { asked with status := .cancelled, lease := none, finishedAtUtc := some queue.clock }
      else asked

/-- Rows are deleted, and their aliases with them. -/
def Queue.delete (doomed : Job → Bool) (queue : Queue) : Queue :=
  { queue with
    jobs := queue.jobs.filter fun job => !doomed job
    operations := queue.operations.filter fun operation =>
      !queue.jobs.any fun job => doomed job && decide (job.id = operation.2) }

/-- Jobs which ended long ago may be removed. -/
def purgeTerminal (chosen : List Uuid) (queue : Queue) : Queue :=
  queue.delete fun job => !job.active &&
    job.finishedAtUtc.any (fun finished => finished < queue.clock - terminalRetentionUs) &&
    decide (job.id ∈ chosen)

end Unfenced

section Calls

variable (claim : ClaimedControlJob)

/-- The statements of a worker which ends its pass with a result. -/
def complete (result : JobResult) (queue : Queue) : Queue × Bool :=
  if queue.jobs.any (Job.endable claim) then (completeRow claim result queue, true)
  else if queue.jobs.any fun job => job.heldBy claim && job.cancelRequestedAtUtc.isSome then
    (finishCancellation claim queue, true)
  else (requeueRow claim false queue, false)

def fail (error : String) (queue : Queue) : Queue × Bool :=
  if queue.jobs.any (Job.endable claim) then (failRow claim error queue, true)
  else if queue.jobs.any fun job => job.heldBy claim && job.cancelRequestedAtUtc.isSome then
    (finishCancellation claim queue, true)
  else (requeueRow claim true queue, false)

end Calls

section Runs

variable (encoding : Encoding)

/-- A step of the queue.  A worker uses what it holds of a claim; identifiers are fresh. -/
inductive Step : Queue → Queue → Prop
  | tick {queue : Queue} {clock : ℤ} (hclock : queue.clock ≤ clock) :
      Step queue { queue with clock }
  | enqueue {queue next : Queue} {row : Job} (generations : ℤ → Option GenerationState)
      (id : Uuid) (request : EnqueueRequest) (hfresh : id ∉ queue.issued)
      (h : enqueue encoding generations id request queue = .ok (row, next)) : Step queue next
  | merge {queue next : Queue} (id : Uuid) (input : JobInput)
      (h : mergeReconcileInput encoding id input queue = .ok next) : Step queue next
  | claim {queue next : Queue} {claim : ClaimedControlJob} (lane : Lane)
      (requested : List ControlJobKind) (hrequested : requested ⊆ lane.kinds) (leaseSecs : ℤ)
      (leaseToken : Uuid) (locked : List Uuid) (hfresh : leaseToken ∉ queue.issued)
      (h : claimMatching lane requested leaseSecs leaseToken locked queue = some (claim, next)) :
      Step queue next
  | complete {queue : Queue} {claim : ClaimedControlJob} (hclaim : claim ∈ queue.claims)
      (result : JobResult) (hbytes : encoding.resultBytes result ≤ maxResultBytes) :
      Step queue (completeRow claim result queue)
  | fail {queue : Queue} {claim : ClaimedControlJob} (hclaim : claim ∈ queue.claims)
      (error : String) : Step queue (failRow claim error queue)
  | finishCancellation {queue : Queue} {claim : ClaimedControlJob}
      (hclaim : claim ∈ queue.claims) : Step queue (finishCancellation claim queue)
  | requeue {queue : Queue} {claim : ClaimedControlJob} (hclaim : claim ∈ queue.claims)
      (failed : Bool) : Step queue (requeueRow claim failed queue)
  | release {queue : Queue} {claim : ClaimedControlJob} (hclaim : claim ∈ queue.claims) :
      Step queue (releaseUnstarted claim queue)
  | progress {queue next : Queue} {claim : ClaimedControlJob} (hclaim : claim ∈ queue.claims)
      (current total : ℤ) (h : setProgress claim current total queue = .ok next) :
      Step queue next
  | checkpoint {queue next : Queue} {claim : ClaimedControlJob} (hclaim : claim ∈ queue.claims)
      (checkpoint : List (String × String))
      (h : checkpointInput claim encoding checkpoint queue = .ok next) : Step queue next
  | continueIfDirty {queue : Queue} {claim : ClaimedControlJob} (hclaim : claim ∈ queue.claims) :
      Step queue (continueIfDirty claim queue)
  | cancel {queue : Queue} (id : Uuid) : Step queue (requestCancellation id queue)
  | purge {queue : Queue} (chosen : List Uuid) : Step queue (purgeTerminal chosen queue)
  | deleteGame {queue : Queue} (gameId : ℤ) :
      Step queue (queue.delete fun job => job.gameId = gameId)
  | deleteChallenge {queue : Queue} (challengeId : ℤ) :
      Step queue (queue.delete fun job => job.challengeId = some challengeId)

/-- A queue which was empty at first. -/
def Reachable (queue : Queue) : Prop :=
  ∃ clock, Relation.ReflTransGen (Step encoding) (.empty clock) queue

end Runs

end ControlJobs

end Rsctf
