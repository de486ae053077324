import Mathlib.Algebra.BigOperators.Group.List.Basic
import Mathlib.Algebra.Order.Ring.Int
import Mathlib.Algebra.Order.BigOperators.Group.List
import Mathlib.Data.List.Sort
import Mathlib.Data.Prod.Lex
import Mathlib.Data.Rat.Defs

/-!
# Worker workloads and their reservations

A workload reserves processor time, memory and one network slot of the worker it is placed
on, from its placement until the worker reports it absent after it is no longer desired.
A placement chooses among the workers which have room left.
-/

namespace Rsctf

namespace Worker

abbrev Uuid := ℕ

/-- A JSON document, by its canonical text. -/
abbrev Value := String

structure WorkloadSpec where
  architecture : String
  /-- The replicas of each service. -/
  replicas : List ℤ
deriving DecidableEq

/-- How documents are read: `contains` is the operator `@>`, `number` a numeric member, and
`workloadSpec` the validated specification. -/
structure Documents where
  isObject : Value → Bool
  contains : Value → Value → Bool
  number : Value → String → Option ℚ
  workloadSpec : Value → Except String WorkloadSpec

/-- The characters which Rust counts as white space. -/
def isWhitespace (c : Char) : Bool :=
  let code := c.toNat
  (9 ≤ code && code ≤ 13) || code = 0x20 || code = 0x85 || code = 0xA0 || code = 0x1680 ||
    (0x2000 ≤ code && code ≤ 0x200A) || code = 0x2028 || code = 0x2029 || code = 0x202F ||
    code = 0x205F || code = 0x3000

def trim (text : String) : String :=
  String.ofList ((text.toList.dropWhile isWhitespace).reverse.dropWhile isWhitespace).reverse

inductive WorkerStoreError
  | database (error : String)
  | invalidStoredData (message : String)
  | invalidInput (message : String)
  | conflict (message : String)
deriving DecidableEq

inductive WorkerAdministrativeState
  | enabled
  | draining
  | disabled
deriving DecidableEq

inductive PlatformOs
  | linux
  | windows
deriving DecidableEq

inductive WorkloadDesiredState
  | present
  | absent
deriving DecidableEq

inductive WorkloadObservedState
  | unknown
  | reconciling
  | ready
  | degraded
  | failed
  | absent
  | lost
deriving DecidableEq

structure ResourceReservation where
  cpuMillis : ℤ
  memoryBytes : ℤ
  slots : ℤ
deriving DecidableEq

inductive Dimension
  | cpuMillis
  | memoryBytes
  | slots
deriving DecidableEq

namespace ResourceReservation

def amount (reservation : ResourceReservation) : Dimension → ℤ
  | .cpuMillis => reservation.cpuMillis
  | .memoryBytes => reservation.memoryBytes
  | .slots => reservation.slots

def validate (reservation : ResourceReservation) : Except WorkerStoreError Unit :=
  if reservation.cpuMillis < 0 ∨ reservation.memoryBytes < 0 ∨ reservation.slots < 0 then
    .error (.invalidInput "resource reservations cannot be negative")
  else .ok ()

/-- No amount of the reservation exceeds that of the other. -/
def Within (a b : ResourceReservation) : Prop :=
  a.cpuMillis ≤ b.cpuMillis ∧ a.memoryBytes ≤ b.memoryBytes ∧ a.slots ≤ b.slots

instance (a b : ResourceReservation) : Decidable (a.Within b) :=
  inferInstanceAs (Decidable (_ ∧ _ ∧ _))

theorem within_iff {a b : ResourceReservation} :
    a.Within b ↔ ∀ dimension, a.amount dimension ≤ b.amount dimension := by
  constructor
  · intro h dimension
    cases dimension with
    | cpuMillis => exact h.1
    | memoryBytes => exact h.2.1
    | slots => exact h.2.2
  · intro h
    exact ⟨h .cpuMillis, h .memoryBytes, h .slots⟩

def add (a b : ResourceReservation) : ResourceReservation where
  cpuMillis := a.cpuMillis + b.cpuMillis
  memoryBytes := a.memoryBytes + b.memoryBytes
  slots := a.slots + b.slots

@[simp] theorem amount_add (a b : ResourceReservation) (dimension : Dimension) :
    (a.add b).amount dimension = a.amount dimension + b.amount dimension := by
  cases dimension <;> rfl

/-- No amount is negative. -/
def Nonneg (reservation : ResourceReservation) : Prop :=
  0 ≤ reservation.cpuMillis ∧ 0 ≤ reservation.memoryBytes ∧ 0 ≤ reservation.slots

theorem Nonneg.amount {reservation : ResourceReservation} (h : reservation.Nonneg)
    (dimension : Dimension) : 0 ≤ reservation.amount dimension := by
  cases dimension with
  | cpuMillis => exact h.1
  | memoryBytes => exact h.2.1
  | slots => exact h.2.2

theorem nonneg_of_validate {reservation : ResourceReservation}
    (h : reservation.validate = .ok ()) : reservation.Nonneg := by
  unfold validate at h
  split at h
  · contradiction
  · next hvalid =>
      simp only [not_or, not_lt] at hvalid
      exact hvalid

end ResourceReservation

structure SessionFence where
  workerId : Uuid
  sessionId : Uuid
  sessionEpoch : ℤ
deriving DecidableEq

/-- A row of the workers.  Its capacity passed the check of the table. -/
structure WorkerNode where
  administrativeState : WorkerAdministrativeState
  platformOs : Option PlatformOs
  platformArchitecture : Option String
  runtimeKind : Option String
  labels : Value
  capabilities : Value
  capacity : { capacity : ResourceReservation // capacity.Nonneg }
  certificateExpiresAt : Option ℤ
  sessionId : Option Uuid
  sessionEpoch : ℤ
  leaseExpiresAt : Option ℤ

structure WorkloadDefinition where
  spec : Value
  specHashSha256 : List ℕ
  requiredOs : PlatformOs
  requiredArchitecture : String
  requiredRuntime : String
  reservation : ResourceReservation
deriving DecidableEq

def maxArchitectureBytes : ℕ := 64

def isValidArchitecture (value : String) : Bool :=
  value ≠ "" && value.utf8ByteSize ≤ maxArchitectureBytes &&
    value.toList.all fun c => c.isAlphanum || c = '.' || c = '_' || c = '-'

/-- Validate the durable specification and return its derived replica count. -/
def WorkloadDefinition.validate (documents : Documents) (definition : WorkloadDefinition) :
    Except WorkerStoreError ℤ :=
  if documents.isObject definition.spec = false then
    .error (.invalidInput "workload specification must be a JSON object")
  else if isValidArchitecture definition.requiredArchitecture = false ∨
      trim definition.requiredRuntime = "" then
    .error (.invalidInput "required architecture or runtime is invalid")
  else
    match definition.reservation.validate with
    | .error error => .error error
    | .ok () =>
      if definition.reservation.slots ≠ 1 then
        .error (.invalidInput "a workload must reserve exactly one isolated-network slot")
      else
        match documents.workloadSpec definition.spec with
        | .error error => .error (.invalidInput ("workload specification is invalid: " ++ error))
        | .ok spec =>
          if definition.requiredArchitecture ≠ spec.architecture then
            .error (.invalidInput "required architecture does not match the workload specification")
          else .ok spec.replicas.sum

theorem WorkloadDefinition.nonneg_of_validate {documents : Documents}
    {definition : WorkloadDefinition} {replicas : ℤ}
    (h : definition.validate documents = .ok replicas) : definition.reservation.Nonneg := by
  unfold WorkloadDefinition.validate at h
  split at h
  · contradiction
  · split at h
    · contradiction
    · cases hvalid : definition.reservation.validate with
      | error error => simp [hvalid] at h
      | ok _ => exact ResourceReservation.nonneg_of_validate hvalid

structure PlaceWorkload where
  id : Uuid
  ownerKind : String
  ownerKey : String
  assignmentId : Uuid
  definition : WorkloadDefinition
  exactWorkerId : Option Uuid
  requiredLabels : Value
deriving DecidableEq

structure UpdateWorkload where
  id : Uuid
  assignmentId : Uuid
  expectedGeneration : ℤ
  definition : WorkloadDefinition
deriving DecidableEq

structure WorkloadStatus where
  session : SessionFence
  workloadId : Uuid
  assignmentId : Uuid
  generation : ℤ
  specHashSha256 : List ℕ
  state : WorkloadObservedState
  message : Option String
deriving DecidableEq

/-- A row of the workloads. -/
structure WorkerWorkload where
  id : Uuid
  ownerKind : String
  ownerKey : String
  workerId : Uuid
  assignmentId : Uuid
  generation : ℤ
  definition : WorkloadDefinition
  requiredLabels : Value
  requiredReplicas : ℤ
  desiredState : WorkloadDesiredState
  observedState : WorkloadObservedState
  observedSessionEpoch : Option ℤ
  observedMessage : Option String
  reconcileQuarantineGeneration : Option ℤ
  createdAt : ℤ
deriving DecidableEq

/-- Capacity stays reserved until the workload is neither desired nor observed. -/
def WorkerWorkload.reserves (workload : WorkerWorkload) : Bool :=
  workload.desiredState = .present || workload.observedState ≠ .absent

/-- The sums of the reservations of a worker. -/
def reserved (workloads : List WorkerWorkload) (workerId : Uuid) : ResourceReservation :=
  let rows := workloads.filter fun workload => workload.workerId = workerId && workload.reserves
  { cpuMillis := (rows.map fun row => row.definition.reservation.cpuMillis).sum
    memoryBytes := (rows.map fun row => row.definition.reservation.memoryBytes).sum
    slots := (rows.map fun row => row.definition.reservation.slots).sum }

/-- The sums without the workload under a given id. -/
def reservedExcept (workloads : List WorkerWorkload) (id workerId : Uuid) : ResourceReservation :=
  reserved (workloads.filter fun workload => workload.id ≠ id) workerId

/-- The advertised replica limit covers the replicas. -/
def offersReplicas (documents : Documents) (capabilities : Value) (replicas : ℤ) : Bool :=
  match documents.number capabilities "maxWorkloadReplicas" with
  | some limit => limit.isInt && (replicas : ℚ) ≤ limit && limit ≤ 512
  | none => false

def offersDataLanes (documents : Documents) (capabilities : Value) : Bool :=
  match documents.number capabilities "maxDataLanes" with
  | some lanes => 1 ≤ lanes && lanes ≤ 65535
  | none => false

def requiredCapabilities : Value :=
  "\x7b\"ensureWorkload\": true, \"writeFlag\": true, \"tcpProxy\": true, \"inventory\": true\x7d"

def expired (at? : Option ℤ) (now : ℤ) : Bool :=
  match at? with
  | some time => time ≤ now
  | none => true

/-- The rows which the candidate query accepts, with the reservations it read. -/
def isCandidate (documents : Documents) (request : PlaceWorkload) (replicas now : ℤ)
    (workloads : List WorkerWorkload) (id : Uuid) (node : WorkerNode) : Bool :=
  node.administrativeState = .enabled && node.sessionId.isSome &&
    !expired node.leaseExpiresAt now && !expired node.certificateExpiresAt now &&
    documents.contains node.capabilities requiredCapabilities &&
    offersDataLanes documents node.capabilities &&
    offersReplicas documents node.capabilities replicas &&
    node.platformOs = some request.definition.requiredOs &&
    node.platformArchitecture = some (trim request.definition.requiredArchitecture) &&
    node.runtimeKind = some (trim request.definition.requiredRuntime) &&
    (request.exactWorkerId = none || request.exactWorkerId = some id) &&
    documents.contains node.labels request.requiredLabels &&
    ((reserved workloads id).add request.definition.reservation).Within node.capacity.1

/-- The remainders of a node, the order in which the candidates are tried. -/
def remainder (workloads : List WorkerWorkload) (id : Uuid) (node : WorkerNode) :
    ℤ ×ₗ ℤ ×ₗ ℤ ×ₗ Uuid :=
  let reserved := reserved workloads id
  toLex (node.capacity.1.memoryBytes - reserved.memoryBytes,
    toLex (node.capacity.1.cpuMillis - reserved.cpuMillis,
      toLex (node.capacity.1.slots - reserved.slots, id)))

def maxPlacementLockRetries : ℕ := 32

end Worker

end Rsctf
