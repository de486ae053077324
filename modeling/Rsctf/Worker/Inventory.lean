import Rsctf.Data.Paging
import Rsctf.Worker.Placement

/-!
# The inventory of a worker

A worker lists everything it runs.  The server compares the list with what is assigned to
the session: an item whose fence is the current one is adopted, any other item is cleaned
up, and an assignment without a current item is recorded as absent.
-/

namespace Rsctf

namespace Worker

structure WorkloadFence where
  workloadId : Uuid
  assignmentId : Uuid
  generation : ℕ
deriving DecidableEq, Repr

inductive ObservedWorkloadState
  | unknown
  | reconciling
  | ready
  | degraded
  | failed
  | absent
deriving DecidableEq, Repr

structure ReplicaStatus where
  service : String
  replica : ℕ
  ready : Bool
deriving DecidableEq, Repr

structure InventoryItem where
  fence : WorkloadFence
  specHash : String
  state : ObservedWorkloadState
  replicas : List ReplicaStatus
deriving DecidableEq, Repr

structure EnsureAbsent where
  commandId : Uuid
  fence : WorkloadFence
  specHash : String
  timeoutMs : ℕ
deriving DecidableEq, Repr

inductive WorkerError
  | authorization
  | authentication
  | staleSession
  | protocol (message : String)
  | authority (message : String)
  | store (error : WorkerStoreError)
deriving DecidableEq

/-- What the validation of replicas reads of a service. -/
structure ServiceSpec where
  name : String
  replicas : ℕ
deriving DecidableEq, Repr

section Validation

def hexValue (c : Char) : Option ℕ :=
  if '0' ≤ c ∧ c ≤ '9' then some (c.toNat - '0'.toNat)
  else if 'a' ≤ c ∧ c ≤ 'f' then some (c.toNat - 'a'.toNat + 10)
  else if 'A' ≤ c ∧ c ≤ 'F' then some (c.toNat - 'A'.toNat + 10)
  else none

def decodeHex : List Char → Option (List ℕ)
  | [] => some []
  | [_] => none
  | a :: b :: rest => do
    let high ← hexValue a
    let low ← hexValue b
    let bytes ← decodeHex rest
    return (16 * high + low) :: bytes

def decodeHash (value : String) : Except WorkerError (List ℕ) :=
  match decodeHex value.toList with
  | some bytes =>
      if bytes.length = 32 then .ok bytes
      else .error (.protocol "invalid workload specification hash")
  | none => .error (.protocol "invalid workload specification hash")

def observedState : ObservedWorkloadState → WorkloadObservedState
  | .unknown => .unknown
  | .reconciling => .reconciling
  | .ready => .ready
  | .degraded => .degraded
  | .failed => .failed
  | .absent => .absent

/-- Every replica belongs to a service of the specification and is reported once. -/
def validateReplicas (services : List ServiceSpec) (seen : List (String × ℕ)) :
    List ReplicaStatus → Except WorkerError (List (String × ℕ))
  | [] => .ok seen
  | status :: rest =>
    match services.find? (·.name = status.service) with
    | none => .error (.protocol "workload status contains an unknown service")
    | some service =>
      if service.replicas ≤ status.replica ∨ (status.service, status.replica) ∈ seen then
        .error (.protocol "workload status contains an invalid or duplicate replica")
      else validateReplicas services ((status.service, status.replica) :: seen) rest

def validateReplicaObservation (services : List ServiceSpec) (item : InventoryItem) :
    Except WorkerError Unit :=
  if item.state = .absent then
    if item.replicas.isEmpty then .ok ()
    else .error (.protocol "absent workload status contains replicas")
  else do
    let seen ← validateReplicas services [] item.replicas
    if item.state = .ready ∧ (seen.length ≠ (services.map (·.replicas)).sum ∨
        item.replicas.any fun replica => !replica.ready) then
      throw (.protocol "ready workload status does not contain every ready replica")
    else return ()

/-- The generation as a signed number of 64 bits. -/
def signedGeneration (generation : ℕ) : Except WorkerError ℤ :=
  if (generation : ℤ) ≤ Database.maxGeneration then .ok generation else .error .authorization

end Validation

/-- The rows of the workloads; their ids are a primary key. -/
structure WorkloadTable where
  rows : List WorkerWorkload
  keys : (rows.map (·.id)).Nodup

section Store

variable (documents : Documents) (nodes : Uuid → Option WorkerNode) (session : SessionFence)

/-- The session is the one of the node, and its lease has not run out. -/
def currentSession (node : WorkerNode) (now : ℤ) : Bool :=
  node.sessionId = some session.sessionId && node.sessionEpoch = session.sessionEpoch &&
    !expired node.leaseExpiresAt now

/-- The assignments which a session has to adopt, in the order of their ids. -/
def sessionWorkloads (table : WorkloadTable) (now : ℤ) : List WorkerWorkload :=
  (table.rows.filter fun workload =>
    workload.workerId = session.workerId && workload.reserves &&
      (nodes workload.workerId).any fun node =>
        currentSession session node now &&
          offersReplicas documents node.capabilities workload.requiredReplicas).insertionSort
    fun a b => a.id ≤ b.id

def listSessionWorkloads (table : WorkloadTable) (now : ℤ) (limit : ℕ) (after : Option Uuid) :
    List WorkerWorkload :=
  Paging.pageAfter (·.id) limit (sessionWorkloads documents nodes session table now) after

theorem id_apply_status {statuses : List WorkloadStatus} {row new : WorkerWorkload}
    (h : (RowChange.status session statuses).apply row = some new) : new.id = row.id := by
  simp only [RowChange.apply] at h
  split at h
  · split at h
    · obtain rfl := Option.some.inj h
      rfl
    · cases h
  · cases h

/-- The rows after a batch of statuses. -/
def applyStatuses (statuses : List WorkloadStatus) (row : WorkerWorkload) : WorkerWorkload :=
  ((RowChange.status session statuses).apply row).getD row

theorem id_applyStatuses (statuses : List WorkloadStatus) (row : WorkerWorkload) :
    (applyStatuses session statuses row).id = row.id := by
  unfold applyStatuses
  cases h : (RowChange.status session statuses).apply row with
  | none => rfl
  | some new => exact id_apply_status session h

def WorkloadTable.applyStatuses (table : WorkloadTable) (statuses : List WorkloadStatus) :
    WorkloadTable where
  rows := table.rows.map (Worker.applyStatuses session statuses)
  keys := by
    rw [List.map_map]
    have hids : (·.id) ∘ Worker.applyStatuses session statuses = (·.id) :=
      funext fun row => id_applyStatuses session statuses row
    rw [hids]
    exact table.keys

/-- Apply a batch under the session of its statuses; the ids are those of the rows to
which it applied. -/
def recordWorkloadStatusBatch (table : WorkloadTable) (now : ℤ)
    (statuses : List WorkloadStatus) : Except WorkerStoreError (List Uuid × WorkloadTable) :=
  if statuses.isEmpty then .ok ([], table)
  else if maxStatusBatch < statuses.length then
    .error (.invalidInput "status batch exceeds 1000 workloads")
  else
    match validateStatuses session [] statuses with
    | .error error => .error error
    | .ok () =>
      if (nodes session.workerId).any fun node =>
          currentSession session node now && node.administrativeState ≠ .disabled then
        .ok ((table.rows.filter fun row =>
            ((RowChange.status session statuses).apply row).isSome).map (·.id),
          table.applyStatuses session statuses)
      else .ok ([], table)

/-- The batches one after another, with the number of rows to which they applied. -/
def recordBatches (now : ℤ) : WorkloadTable → List (List WorkloadStatus) →
    Except WorkerStoreError (ℕ × WorkloadTable)
  | table, [] => .ok (0, table)
  | table, batch :: rest =>
    match recordWorkloadStatusBatch nodes session table now batch with
    | .error error => .error error
    | .ok (applied, table') =>
      match recordBatches now table' rest with
      | .error error => .error error
      | .ok (more, final) => .ok (applied.length + more, final)

def sessionIsCurrent (now : ℤ) : Except WorkerError Unit :=
  match nodes session.workerId with
  | none => .error .authentication
  | some node => if currentSession session node now then .ok () else .error .staleSession

end Store

section Adoption

variable (services : Value → Except String (List ServiceSpec)) (session : SessionFence)
  (snapshotId : String) (newUuid : ℕ → Uuid)

/-- The item is about the current assignment, generation and specification. -/
def exactFence (workload : WorkerWorkload) (item : InventoryItem) (generation : ℤ)
    (specHash : List ℕ) : Bool :=
  workload.assignmentId = item.fence.assignmentId && workload.generation = generation &&
    workload.definition.specHashSha256 = specHash

/-- What the pass over the items has collected. -/
structure Adoption where
  cleanup : List EnsureAbsent
  statuses : List WorkloadStatus
  reportedExact : List Uuid

def adoptedStatus (item : InventoryItem) (generation : ℤ) (specHash : List ℕ) :
    WorkloadStatus where
  session := session
  workloadId := item.fence.workloadId
  assignmentId := item.fence.assignmentId
  generation
  specHashSha256 := specHash
  state := observedState item.state
  message := some ("adopted from inventory snapshot " ++ snapshotId)

def missingStatus (workload : WorkerWorkload) : WorkloadStatus where
  session := session
  workloadId := workload.id
  assignmentId := workload.assignmentId
  generation := workload.generation
  specHashSha256 := workload.definition.specHashSha256
  state := .absent
  message := some ("missing from inventory snapshot " ++ snapshotId)

def adoptItem (assigned : List WorkerWorkload) (adoption : Adoption) (item : InventoryItem) :
    Except WorkerError Adoption := do
  let generation ← signedGeneration item.fence.generation
  let specHash ← decodeHash item.specHash
  match (assigned.find? (·.id = item.fence.workloadId)).filter fun workload =>
      exactFence workload item generation specHash with
  | none =>
    return { adoption with
      cleanup := adoption.cleanup ++
        [⟨newUuid adoption.cleanup.length, item.fence, item.specHash, 60000⟩] }
  | some workload =>
    if item.fence.workloadId ∈ adoption.reportedExact then
      throw (.protocol "inventory snapshot contains the current workload fence more than once")
    else
      match services workload.definition.spec with
      | .error error =>
          throw (.authority ("invalid stored workload spec while checking inventory: " ++ error))
      | .ok services => do
          validateReplicaObservation services item
          return { adoption with
            statuses := adoption.statuses ++
              [adoptedStatus session snapshotId item generation specHash]
            reportedExact := adoption.reportedExact ++ [item.fence.workloadId] }

def adoptItems (assigned : List WorkerWorkload) (items : List InventoryItem) :
    Except WorkerError Adoption :=
  items.foldlM (adoptItem services session snapshotId newUuid assigned) ⟨[], [], []⟩

/-- The statuses which a snapshot leads to. -/
def inventoryStatuses (assigned : List WorkerWorkload) (adoption : Adoption) :
    List WorkloadStatus :=
  adoption.statuses ++ (assigned.filter fun workload => workload.id ∉ adoption.reportedExact).map
    (missingStatus session snapshotId)

/-- What a handled snapshot leaves. -/
structure InventoryOutcome where
  cleanup : List EnsureAbsent
  statuses : List WorkloadStatus
  table : WorkloadTable

def inventoryPageSize : ℕ := 1000

def handleInventorySnapshot (documents : Documents) (nodes : Uuid → Option WorkerNode)
    (table : WorkloadTable) (now : ℤ) (items : List InventoryItem) :
    Except WorkerError InventoryOutcome := do
  let assigned := Paging.readPages
    (listSessionWorkloads documents nodes session table now inventoryPageSize) (·.id)
    inventoryPageSize (table.rows.length + 1) none
  let adoption ← adoptItems services session snapshotId newUuid assigned items
  let statuses := inventoryStatuses session snapshotId assigned adoption
  match recordBatches nodes session now table (Paging.batches inventoryPageSize statuses) with
  | .error error => throw (.store error)
  | .ok (applied, final) =>
    if applied ≠ statuses.length then sessionIsCurrent nodes session now
    return ⟨adoption.cleanup, statuses, final⟩

end Adoption

end Worker

end Rsctf
