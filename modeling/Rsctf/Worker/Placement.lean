import Mathlib.Logic.Function.Basic
import Rsctf.Data.Locks
import Rsctf.Worker.Workload

/-!
# Transactions on the worker store

Every transaction takes one statement at a time.  A statement reads the rows committed when
it starts.  When it gets a row lock it reads that row again, and no other: the sums it read
stay those of its start.  Locks are held until the transaction ends.
-/

namespace Rsctf

namespace Worker

/-- What a transaction can lock: a row, or the key of a row which it inserts. -/
inductive Resource
  | node (id : Uuid)
  | workload (id : Uuid)
  | owner (kind key : String)
  | assignment (id : Uuid)
deriving DecidableEq

def maxQuarantineMessageBytes : ℕ := 1024

def isControl (c : Char) : Bool :=
  c.toNat ≤ 0x1F || (0x7F ≤ c.toNat && c.toNat ≤ 0x9F)

/-- The longest prefix of at most `bytes` bytes. -/
def takeBytes : ℕ → List Char → List Char
  | _, [] => []
  | bytes, c :: rest =>
      if c.utf8Size ≤ bytes then c :: takeBytes (bytes - c.utf8Size) rest else []

def boundedQuarantineMessage (value : String) : String :=
  let message := trim (String.ofList (value.toList.map fun c => if isControl c then ' ' else c))
  if message = "" then "invalid durable workload definition"
  else String.ofList (takeBytes maxQuarantineMessageBytes message.toList)

def isHexDigit (c : Char) : Bool :=
  ('0' ≤ c && c ≤ '9') || ('a' ≤ c && c ≤ 'f') || ('A' ≤ c && c ≤ 'F')

/-- Groups of hexadecimal digits of the given lengths, separated by dashes. -/
def isHexGroups : List ℕ → List Char → Bool
  | [], text => text.isEmpty
  | [length], text => text.length = length && text.all isHexDigit
  | length :: lengths, text =>
      (text.take length).length = length && (text.take length).all isHexDigit &&
        (text.drop length).head? = some '-' && isHexGroups lengths (text.drop (length + 1))

def isContainerKey (ownerKey : String) : Bool :=
  ownerKey.toList.take 10 = "container:".toList &&
    isHexGroups [8, 4, 4, 4, 12] (ownerKey.toList.drop 10)

/-- The statements which update rows of the workloads. -/
inductive RowChange
  | definition (request : UpdateWorkload) (replicas : ℤ) (workerId : Uuid) (generation : ℤ)
  | desiredAbsent (id assignmentId : Uuid) (expectedGeneration : ℤ) (workerId : Uuid)
  | orphaned (createdBefore : ℤ) (limit : ℕ) (containers : List String)
  | status (session : SessionFence) (statuses : List WorkloadStatus)
  | quarantine (workloadId assignmentId : Uuid) (generation : ℤ) (diagnostic : String)
  | forceForget (id assignmentId workerId : Uuid)
deriving DecidableEq

namespace RowChange

/-- The new version of a row, when the statement matches the row. -/
def apply (change : RowChange) (row : WorkerWorkload) : Option WorkerWorkload :=
  match change with
  | definition request replicas workerId generation =>
    if row.id = request.id ∧ row.assignmentId = request.assignmentId ∧
        row.generation = generation ∧ row.workerId = workerId ∧ row.desiredState = .present then
      some { row with
        generation := generation + 1
        definition := { request.definition with
          requiredArchitecture := trim request.definition.requiredArchitecture
          requiredRuntime := trim request.definition.requiredRuntime }
        requiredReplicas := replicas
        observedState := .unknown
        observedSessionEpoch := none
        observedMessage := none }
    else none
  | desiredAbsent id assignmentId expectedGeneration workerId =>
    if row.id = id ∧ row.assignmentId = assignmentId ∧ row.generation = expectedGeneration ∧
        row.workerId = workerId ∧ row.desiredState = .present then
      some { row with
        generation := row.generation + 1
        desiredState := .absent
        observedState := .unknown
        observedSessionEpoch := none
        observedMessage := none }
    else none
  | orphaned createdBefore _ containers =>
    if row.ownerKind = "container" ∧ isContainerKey row.ownerKey ∧ row.desiredState = .present ∧
        row.createdAt ≤ createdBefore ∧
        String.ofList (row.ownerKey.toList.drop 10) ∉ containers then
      some { row with
        generation := row.generation + 1
        desiredState := .absent
        observedState := .unknown
        observedSessionEpoch := none
        observedMessage := some "application bookkeeping was not committed" }
    else none
  | status session statuses =>
    match statuses.find? fun report => report.workloadId = row.id with
    | some report =>
      if row.workerId = session.workerId ∧ row.assignmentId = report.assignmentId ∧
          row.generation = report.generation ∧
          row.definition.specHashSha256 = report.specHashSha256 then
        some { row with
          observedState := report.state
          observedSessionEpoch := some session.sessionEpoch
          observedMessage := report.message }
      else none
    | none => none
  | quarantine workloadId assignmentId generation diagnostic =>
    if row.id = workloadId ∧ row.assignmentId = assignmentId ∧ row.generation = generation ∧
        row.reconcileQuarantineGeneration ≠ some generation then
      some { row with
        reconcileQuarantineGeneration := some generation
        observedState := .failed
        observedMessage := some (boundedQuarantineMessage diagnostic) }
    else none
  | forceForget id assignmentId workerId =>
    if row.id = id ∧ row.assignmentId = assignmentId ∧ row.workerId = workerId then
      some { row with
        generation := row.generation + 1
        desiredState := .absent
        observedState := .absent
        observedSessionEpoch := none
        observedMessage := some "force-forgotten by operator" }
    else none

end RowChange

def maxStatusBatch : ℕ := 1000

def validateWorkloadStatus (status : WorkloadStatus) : Except WorkerStoreError Unit :=
  if status.generation < 1 then
    .error (.invalidInput "reported workload generation must be positive")
  else if status.message.any fun message => 4096 < message.length then
    .error (.invalidInput "workload status message exceeds 4096 characters")
  else .ok ()

/-- The checks of a batch, in the order of its statuses. -/
def validateStatuses (session : SessionFence) (seen : List Uuid) :
    List WorkloadStatus → Except WorkerStoreError Unit
  | [] => .ok ()
  | status :: rest =>
    match validateWorkloadStatus status with
    | .error error => .error error
    | .ok () =>
      if status.session ≠ session then
        .error (.invalidInput "status batch contains a different worker session")
      else if status.workloadId ∈ seen then
        .error (.invalidInput "status batch contains duplicate workloads")
      else validateStatuses session (status.workloadId :: seen) rest

def validateOwner (kind key : String) : Except WorkerStoreError (String × String) :=
  let kind := trim kind
  let key := trim key
  if kind = "" ∨ 64 < kind.length then
    .error (.invalidInput "workload owner kind must contain 1 to 64 characters")
  else if key = "" ∨ 512 < key.length then
    .error (.invalidInput "workload owner key must contain 1 to 512 characters")
  else .ok (kind, key)

/-- What a request is checked for before its placement starts. -/
def PlaceWorkload.validate (documents : Documents) (request : PlaceWorkload) :
    Except WorkerStoreError (ℤ × String × String) :=
  match request.definition.validate documents with
  | .error error => .error error
  | .ok replicas =>
    match validateOwner request.ownerKind request.ownerKey with
    | .error error => .error error
    | .ok owner =>
      if documents.isObject request.requiredLabels = false then
        .error (.invalidInput "required worker labels must be a JSON object")
      else .ok (replicas, owner)

def UpdateWorkload.validate (documents : Documents) (request : UpdateWorkload) :
    Except WorkerStoreError ℤ :=
  match request.definition.validate documents with
  | .error error => .error error
  | .ok replicas =>
    if request.expectedGeneration < 1 then
      .error (.invalidInput "expected workload generation must be positive")
    else .ok replicas

/-- The row which a placement inserts. -/
def PlaceWorkload.row (request : PlaceWorkload) (replicas : ℤ) (owner : String × String)
    (workerId : Uuid) (createdAt : ℤ) : WorkerWorkload where
  id := request.id
  ownerKind := owner.1
  ownerKey := owner.2
  workerId
  assignmentId := request.assignmentId
  generation := 1
  definition := { request.definition with
    requiredArchitecture := trim request.definition.requiredArchitecture
    requiredRuntime := trim request.definition.requiredRuntime }
  requiredLabels := request.requiredLabels
  requiredReplicas := replicas
  desiredState := .present
  observedState := .unknown
  observedSessionEpoch := none
  observedMessage := none
  reconcileQuarantineGeneration := none
  createdAt

/-- The definition and the replicas are already those of the row. -/
def UpdateWorkload.isCurrent (request : UpdateWorkload) (replicas : ℤ) (row : WorkerWorkload) :
    Bool :=
  row.definition = { request.definition with
    requiredArchitecture := trim request.definition.requiredArchitecture
    requiredRuntime := trim request.definition.requiredRuntime } && row.requiredReplicas = replicas

/-- The rows which a statement read at its start. -/
structure Snapshot where
  nodes : Uuid → WorkerNode
  workloads : List WorkerWorkload

/-- How far a transaction has come. -/
inductive Transaction
  | idle
  | found (request : PlaceWorkload) (replicas : ℤ) (owner : String × String)
  | selecting (request : PlaceWorkload) (replicas : ℤ) (owner : String × String)
      (snapshot : Snapshot)
  | selected (request : PlaceWorkload) (replicas : ℤ) (owner : String × String) (workerId : Uuid)
  | inserted (row : WorkerWorkload)
  | updating (request : UpdateWorkload) (replicas : ℤ) (current : WorkerWorkload)
  | measuring (request : UpdateWorkload) (replicas : ℤ) (current : WorkerWorkload)
      (snapshot : Snapshot)
  | locating (change : RowChange) (workerId : Uuid)
  | prepared (change : RowChange)
  | writing (change : RowChange) (snapshot : Snapshot)
  | updated (rows : List WorkerWorkload)

/-- The committed rows, the locks, and the transactions.  The rows of the workers are
addressed by their ids. -/
structure Database where
  workerIds : List Uuid
  nodes : Uuid → WorkerNode
  workloads : List WorkerWorkload
  locks : Locks Resource
  transactions : ℕ → Transaction

/-- The statements of a transaction.  `select` and `measure` end a statement which an
earlier one started; `node` is any other change of a worker row. -/
inductive Action
  | findWorkloadByOwner (request : PlaceWorkload)
  | startSelect
  | select (now : ℤ) (workerId : Option Uuid)
  | insert (createdAt : ℤ)
  | lockWorkload (request : UpdateWorkload)
  | startMeasure
  | measure
  | locate (change : RowChange)
  | lockWorker (now : ℤ)
  | startChange
  | change
  | commit
  | rollback
  | node (id : Uuid) (node : WorkerNode)

namespace Database

def empty (workerIds : List Uuid) (nodes : Uuid → WorkerNode) : Database where
  workerIds
  nodes
  workloads := []
  locks := .none
  transactions := fun _ => .idle

def snapshot (db : Database) : Snapshot where
  nodes := db.nodes
  workloads := db.workloads

/-- The transaction goes on, with further locks. -/
def advance (db : Database) (t : ℕ) (taken : List Resource) (next : Transaction) : Database :=
  { db with
    locks := db.locks.acquire t taken
    transactions := Function.update db.transactions t next }

/-- The transaction ends and leaves these workloads. -/
def finish (db : Database) (t : ℕ) (workloads : List WorkerWorkload) : Database :=
  { db with
    workloads
    locks := db.locks.release t
    transactions := Function.update db.transactions t .idle }

variable (documents : Documents)

/-- The first candidate whose row nobody else holds and which still qualifies. -/
def selectCandidate (db : Database) (t : ℕ) (request : PlaceWorkload) (replicas now : ℤ)
    (snapshot : Snapshot) : Option Uuid :=
  let rank := fun id => remainder snapshot.workloads id (snapshot.nodes id)
  let candidates := db.workerIds.filter fun id =>
    isCandidate documents request replicas now snapshot.workloads id (snapshot.nodes id)
  (candidates.insertionSort fun a b => rank a ≤ rank b).find? fun id =>
    db.locks.available t (.node id) &&
      isCandidate documents request replicas now snapshot.workloads id (db.nodes id)

/-- The worker still offers what the new definition requires. -/
def isCompatible (request : UpdateWorkload) (replicas : ℤ) (current : WorkerWorkload)
    (node : WorkerNode) : Bool :=
  node.platformOs = some request.definition.requiredOs &&
    node.platformArchitecture = some (trim request.definition.requiredArchitecture) &&
    node.runtimeKind = some (trim request.definition.requiredRuntime) &&
    documents.contains node.labels current.requiredLabels &&
    offersReplicas documents node.capabilities replicas

def hasCapacity (request : UpdateWorkload) (current : WorkerWorkload)
    (workloads : List WorkerWorkload) (node : WorkerNode) : Bool :=
  ((reservedExcept workloads request.id current.workerId).add request.definition.reservation).Within
    node.capacity.1

/-- The session of a report is the live one of the worker. -/
def ownsSession (db : Database) (session : SessionFence) (now : ℤ) : Bool :=
  let node := db.nodes session.workerId
  session.workerId ∈ db.workerIds && node.sessionId = some session.sessionId &&
    node.sessionEpoch = session.sessionEpoch && !expired node.leaseExpiresAt now &&
    node.administrativeState ≠ .disabled

/-- The rows which a statement updates: they match at its start and when it reaches them.
The search for orphans skips locked rows and stops at its limit. -/
def changed (db : Database) (t : ℕ) (change : RowChange) (snapshot : Snapshot) :
    List WorkerWorkload :=
  let matching := db.workloads.filter fun row =>
    (snapshot.workloads.any fun old => old.id = row.id && (change.apply old).isSome) &&
      (change.apply row).isSome
  match change with
  | .orphaned _ limit _ =>
    ((matching.filter fun row => db.locks.available t (.workload row.id)).insertionSort
      fun a b => toLex (a.createdAt, a.id) ≤ toLex (b.createdAt, b.id)).take limit
  | _ => matching

/-- The rows after an update. -/
def replaceRows (workloads rows : List WorkerWorkload) : List WorkerWorkload :=
  workloads.map fun row => (rows.find? fun new => new.id = row.id).getD row

def findWorkloadByOwner (db : Database) (ownerKind ownerKey : String) : Option WorkerWorkload :=
  db.workloads.find? fun row => row.ownerKind = ownerKind && row.ownerKey = ownerKey

/-- Start an update of rows: find the worker to lock first, if there is one to lock. -/
def locate (db : Database) (t : ℕ) (change : RowChange) : Option Database :=
  match change with
  | .definition _ _ _ _ => none
  | .desiredAbsent id assignmentId expectedGeneration workerId =>
    if db.workloads.any fun row => row.id = id && row.assignmentId = assignmentId &&
        row.generation = expectedGeneration && row.desiredState = .present &&
        row.workerId = workerId then
      some (db.advance t [] (.locating change workerId))
    else none
  | .forceForget id assignmentId workerId =>
    if db.workloads.any fun row => row.id = id && row.assignmentId = assignmentId &&
        row.workerId = workerId then
      some (db.advance t [] (.locating change workerId))
    else none
  | .status session statuses =>
    if statuses ≠ [] ∧ statuses.length ≤ maxStatusBatch ∧
        validateStatuses session [] statuses = .ok () then
      some (db.advance t [] (.locating change session.workerId))
    else none
  | .orphaned _ limit _ =>
    if 1 ≤ limit ∧ limit ≤ 1000 then some (db.advance t [] (.prepared change)) else none
  | .quarantine _ _ generation _ =>
    if 1 ≤ generation then some (db.advance t [] (.prepared change)) else none

def maxGeneration : ℤ := 2 ^ 63 - 1

/-- One statement of a transaction; nothing happens while it waits for a lock. -/
def step (db : Database) (t : ℕ) (action : Action) : Option Database :=
  match db.transactions t, action with
  | .idle, .findWorkloadByOwner request =>
    match request.validate documents with
    | .error _ => none
    | .ok (replicas, owner) =>
      match db.findWorkloadByOwner owner.1 owner.2 with
      | some _ => none
      | none => some (db.advance t [] (.found request replicas owner))
  | .found request replicas owner, .startSelect =>
    some (db.advance t [] (.selecting request replicas owner db.snapshot))
  | .selecting request replicas owner snapshot, .select now workerId =>
    if db.selectCandidate documents t request replicas now snapshot = workerId then
      match workerId with
      | some id => some (db.advance t [.node id] (.selected request replicas owner id))
      | none => some (db.advance t [] (.found request replicas owner))
    else none
  | .selected request replicas owner workerId, .insert createdAt =>
    if (db.findWorkloadByOwner owner.1 owner.2).isSome then some (db.finish t db.workloads)
    else if db.workloads.any fun row =>
        row.id = request.id || row.assignmentId = request.assignmentId then
      some (db.finish t db.workloads)
    else
      let taken := [.workload request.id, .owner owner.1 owner.2, .assignment request.assignmentId]
      if taken.all (db.locks.available t) then
        some (db.advance t taken (.inserted (request.row replicas owner workerId createdAt)))
      else none
  | .idle, .lockWorkload request =>
    match request.validate documents with
    | .error _ => none
    | .ok replicas =>
      match db.workloads.find? fun row => row.id = request.id &&
          row.assignmentId = request.assignmentId && row.desiredState = .present with
      | none => none
      | some row =>
        if db.locks.available t (.workload row.id) = false then none
        else if request.isCurrent replicas row then none
        else if row.generation ≠ request.expectedGeneration then none
        else some (db.advance t [.workload row.id] (.updating request replicas row))
  | .updating request replicas current, .startMeasure =>
    some (db.advance t [] (.measuring request replicas current db.snapshot))
  | .measuring request replicas current snapshot, .measure =>
    let node := db.nodes current.workerId
    if current.workerId ∉ db.workerIds then some (db.finish t db.workloads)
    else if db.locks.available t (.node current.workerId) = false then none
    else if isCompatible documents request replicas current node = false then
      some (db.finish t db.workloads)
    else if hasCapacity request current snapshot.workloads node = false then
      some (db.finish t db.workloads)
    else if current.generation = maxGeneration then some (db.finish t db.workloads)
    else
      some (db.advance t [.node current.workerId]
        (.prepared (.definition request replicas current.workerId current.generation)))
  | .idle, .locate change => db.locate t change
  | .locating change workerId, .lockWorker now =>
    if db.locks.available t (.node workerId) = false then none
    else
      match change with
      | .status session _ =>
        if db.ownsSession session now then some (db.advance t [.node workerId] (.prepared change))
        else some (db.finish t db.workloads)
      | _ => some (db.advance t [.node workerId] (.prepared change))
  | .prepared change, .startChange =>
    some (db.advance t [] (.writing change db.snapshot))
  | .writing change snapshot, .change =>
    let rows := db.changed t change snapshot
    if rows.all fun row => db.locks.available t (.workload row.id) then
      some (db.advance t (rows.map fun row => .workload row.id)
        (.updated (rows.filterMap change.apply)))
    else none
  | .inserted row, .commit => some (db.finish t (db.workloads ++ [row]))
  | .updated rows, .commit => some (db.finish t (replaceRows db.workloads rows))
  | .idle, .node id node =>
    if db.locks.available t (.node id) ∧ node.capacity = (db.nodes id).capacity then
      some { db with nodes := Function.update db.nodes id node }
    else none
  | .idle, _ => none
  | _, .rollback => some (db.finish t db.workloads)
  | _, _ => none

/-- The steps of the store, each labelled with its transaction. -/
def Step (db : Database) (event : ℕ × Action) (next : Database) : Prop :=
  db.step documents event.1 event.2 = some next

end Database

end Worker

end Rsctf
