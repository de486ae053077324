import Mathlib.Data.List.Sort
import Rsctf.Data.Fallible

/-!
# The container runtime of a worker agent

The agent keeps the replicas of a workload running and installs flags in them.  It
remembers the sequence of the last flag of a path in memory.  Containers may be lost or
stopped between two commands, and the upload of a flag may fail for every replica.
-/

open Fallible

namespace Rsctf

namespace Agent

inductive OperatingSystem
  | linux
  | windows
deriving DecidableEq, Repr

structure Platform where
  operatingSystem : OperatingSystem
  architecture : String
deriving DecidableEq, Repr

/-- Who a workload belongs to; a later generation replaces an earlier one. -/
structure WorkloadFence where
  workloadId : ℕ
  assignmentId : ℕ
  generation : ℕ
deriving DecidableEq, Repr

structure ServiceSpec where
  name : String
  image : String
  replicas : ℕ
deriving DecidableEq, Repr

structure WorkloadSpec where
  platform : Platform
  services : List ServiceSpec
deriving DecidableEq, Repr

inductive CommandErrorCode
  | invalidSpec
  | specConflict
  | staleAssignment
  | staleGeneration
  | staleFlagSequence
  | notFound
  | partialFailure
  | runtimeUnavailable
  | internal
deriving DecidableEq, Repr

structure RuntimeError where
  code : CommandErrorCode
  message : String
  failedReplicas : List String
deriving DecidableEq, Repr

def RuntimeError.new (code : CommandErrorCode) (message : String) : RuntimeError :=
  ⟨code, message, []⟩

/-- A flag file, with the sequence of the write that uploaded it. -/
structure FlagFile where
  sequence : ℕ
  value : String
deriving DecidableEq, Repr

/-- A managed container with its labels and the flag files in it. -/
structure Container where
  id : ℕ
  fence : WorkloadFence
  specHash : String
  service : String
  replica : ℕ
  image : String
  running : Bool
  files : String → Option FlagFile

structure Tombstone where
  assignmentId : ℕ
  generation : ℕ
  specHash : String
deriving DecidableEq, Repr

abbrev FlagKey := ℕ × ℕ × ℕ × String

/-- The agent process and its Docker daemon. -/
structure DockerRuntime where
  platform : Platform
  maxNetworkEndpoints : ℕ
  containers : List Container
  nextContainerId : ℕ
  readyContainers : List ℕ
  flagSequences : FlagKey → Option ℕ
  tombstones : ℕ → Option Tombstone

structure EnsureWorkload where
  fence : WorkloadFence
  specHash : String
  spec : WorkloadSpec

structure EnsureAbsent where
  fence : WorkloadFence
  specHash : String

structure FlagTarget where
  service : String
  path : String
deriving DecidableEq, Repr

structure WriteFlag where
  fence : WorkloadFence
  flagSequence : ℕ
  target : FlagTarget
  value : String

def labelsMatch (container : Container) (fence : WorkloadFence) (specHash : String) : Bool :=
  container.fence.assignmentId = fence.assignmentId &&
    container.fence.generation = fence.generation && container.specHash = specHash

namespace DockerRuntime

def existingContainers (runtime : DockerRuntime) (workloadId : ℕ) : List Container :=
  runtime.containers.filter (·.fence.workloadId = workloadId)

def removeContainers (runtime : DockerRuntime) (removed : List Container) : DockerRuntime :=
  { runtime with
    containers := runtime.containers.filter fun container =>
      removed.all (·.id ≠ container.id)
    readyContainers := runtime.readyContainers.filter fun id => removed.all (·.id ≠ id) }

section Tombstones

def rejectStalePresent (runtime : DockerRuntime) (fence : WorkloadFence) :
    Except RuntimeError Unit :=
  match runtime.tombstones fence.workloadId with
  | none => return ()
  | some latest =>
    if latest.assignmentId ≠ fence.assignmentId then
      throw (.new .staleAssignment "a different workload assignment was already removed")
    else if fence.generation ≤ latest.generation then
      throw (.new .staleGeneration "this workload generation was already removed")
    else return ()

/-- Whether the deletion of a fence is to be recorded. -/
def validateAbsent (runtime : DockerRuntime) (fence : WorkloadFence) (specHash : String) :
    Except RuntimeError Bool :=
  match runtime.tombstones fence.workloadId with
  | none => return true
  | some latest =>
    if latest.assignmentId ≠ fence.assignmentId then return false
    else if fence.generation < latest.generation then return false
    else if fence.generation = latest.generation ∧ latest.specHash ≠ specHash then
      throw (.new .specConflict "removed workload generation has a different spec hash")
    else return true

def recordTombstone (runtime : DockerRuntime) (fence : WorkloadFence) (specHash : String) :
    DockerRuntime :=
  { runtime with
    tombstones := Function.update runtime.tombstones fence.workloadId
      (some ⟨fence.assignmentId, fence.generation, specHash⟩) }

end Tombstones

section EnsureWorkload

def checkExisting (command : EnsureWorkload) (container : Container) : Except RuntimeError Unit :=
  if container.fence.assignmentId ≠ command.fence.assignmentId then
    throw (.new .staleAssignment "workload has a different active assignment")
  else if container.fence.generation = command.fence.generation ∧
      container.specHash ≠ command.specHash then
    throw (.new .specConflict "generation already exists with a different spec hash")
  else if command.fence.generation < container.fence.generation then
    throw (.new .staleGeneration "a newer workload generation is already present")
  else return ()

def replicaCount (spec : WorkloadSpec) : ℕ :=
  spec.services.foldl (fun total service => total + service.replicas) 0

/-- The checks before a workload is changed.  `specHash` digests a specification. -/
def admitWorkload (specHash : WorkloadSpec → String) (runtime : DockerRuntime)
    (command : EnsureWorkload) : Except RuntimeError Unit := do
  runtime.rejectStalePresent command.fence
  if specHash command.spec ≠ command.specHash then
    throw (.new .specConflict "workload spec hash does not match payload")
  else if runtime.maxNetworkEndpoints < replicaCount command.spec then
    throw (.new .invalidSpec ("workload has " ++ toString (replicaCount command.spec)
      ++ " replicas but this Docker address pool supports at most "
      ++ toString runtime.maxNetworkEndpoints ++ " containers per isolated network"))
  else if command.spec.platform ≠ runtime.platform then
    throw (.new .invalidSpec "workload platform does not match this worker")
  else (runtime.existingContainers command.fence.workloadId).forM (checkExisting command)

/-- A new container has no flag file.  Its name must not be in use. -/
def createContainer (runtime : DockerRuntime) (command : EnsureWorkload) (service : ServiceSpec)
    (replica : ℕ) : Except RuntimeError DockerRuntime :=
  if runtime.containers.any fun container =>
      container.fence.workloadId = command.fence.workloadId && container.service = service.name &&
        container.replica = replica then
    throw (.new .runtimeUnavailable "create workload container")
  else
    return { runtime with
      containers := runtime.containers ++ [⟨runtime.nextContainerId, command.fence,
        command.specHash, service.name, replica, service.image, true, fun _ => none⟩]
      nextContainerId := runtime.nextContainerId + 1 }

def startIfStopped (runtime : DockerRuntime) (container : Container) : DockerRuntime :=
  if container.running then runtime
  else
    { runtime with
      containers := runtime.containers.map fun other =>
        if other.id = container.id then { other with running := true } else other
      readyContainers := runtime.readyContainers.filter (· ≠ container.id) }

def servesReplica (command : EnsureWorkload) (service : ServiceSpec) (replica : ℕ)
    (container : Container) : Bool :=
  labelsMatch container command.fence command.specHash && container.service = service.name &&
    container.replica = replica && container.image = service.image

/-- Start or create every planned replica; `current` are the containers not yet used. -/
def ensureReplicas (command : EnsureWorkload) :
    DockerRuntime → List Container → List (ServiceSpec × ℕ) →
      Except RuntimeError (List Container) × DockerRuntime
  | runtime, current, [] => (.ok current, runtime)
  | runtime, current, (service, replica) :: plan =>
    match current.find? (servesReplica command service replica) with
    | some container =>
      ensureReplicas command (runtime.startIfStopped container)
        (current.filter (·.id ≠ container.id)) plan
    | none =>
      match runtime.createContainer command service replica with
      | .error error => (.error error, runtime)
      | .ok runtime' => ensureReplicas command runtime' current plan

def ensureWorkload (specHash : WorkloadSpec → String) (runtime : DockerRuntime)
    (command : EnsureWorkload) : Except RuntimeError Unit × DockerRuntime :=
  match runtime.admitWorkload specHash command with
  | .error error => (.error error, runtime)
  | .ok () =>
    let existing := runtime.existingContainers command.fence.workloadId
    let replacingGeneration := existing.any (·.fence.generation ≠ command.fence.generation)
    let runtime := if replacingGeneration then runtime.removeContainers existing else runtime
    let plan := command.spec.services.flatMap fun service =>
      (List.range service.replicas).map (service, ·)
    match ensureReplicas command runtime (runtime.existingContainers command.fence.workloadId)
        plan with
    | (.error error, runtime) => (.error error, runtime)
    | (.ok current, runtime) =>
      (.ok (), runtime.removeContainers
        (current.filter (labelsMatch · command.fence command.specHash)))

end EnsureWorkload

section EnsureAbsent

def checkAbsent (command : EnsureAbsent) (container : Container) : Except RuntimeError Unit :=
  if container.fence.assignmentId ≠ command.fence.assignmentId then return ()
  else if command.fence.generation < container.fence.generation then
    throw (.new .staleGeneration "refusing to delete a newer workload generation")
  else if container.fence.generation = command.fence.generation ∧
      container.specHash ≠ command.specHash then
    throw (.new .specConflict
      "refusing to delete the current generation with a different spec hash")
  else return ()

def ensureAbsent (runtime : DockerRuntime) (command : EnsureAbsent) :
    Except RuntimeError Unit × DockerRuntime :=
  let existing := runtime.existingContainers command.fence.workloadId
  match (do
      let recordTombstone ← runtime.validateAbsent command.fence command.specHash
      existing.forM (checkAbsent command)
      return recordTombstone) with
  | .error error => (.error error, runtime)
  | .ok recordTombstone =>
    let runtime := if recordTombstone then
      runtime.recordTombstone command.fence command.specHash else runtime
    let runtime := runtime.removeContainers
      (existing.filter (·.fence.assignmentId = command.fence.assignmentId))
    (.ok (), { runtime with
      flagSequences := fun key =>
        if key.1 = command.fence.workloadId then none else runtime.flagSequences key })

end EnsureAbsent

section WriteFlag

inductive UploadOutcome
  | failed
  | unverified
  | verified
deriving DecidableEq, Repr

/-- The ready replicas of a service, by their number. -/
def matchingContainerIds (runtime : DockerRuntime) (fence : WorkloadFence) (service : String) :
    List (ℕ × ℕ) :=
  (((runtime.existingContainers fence.workloadId).filter fun container =>
      container.fence.assignmentId = fence.assignmentId &&
        container.fence.generation = fence.generation && container.service = service &&
        container.running && runtime.readyContainers.contains container.id).map
    fun container => (container.replica, container.id)).insertionSort fun a b => a.1 ≤ b.1

def currentStatus (runtime : DockerRuntime) (fence : WorkloadFence) : Except RuntimeError Unit :=
  if runtime.containers.any (·.fence = fence) then return ()
  else throw (.new .notFound "workload not found")

/-- The directory and the name of a guest file. -/
def splitGuestPath (path : String) (operatingSystem : OperatingSystem) :
    Except RuntimeError (String × String) :=
  let separator := fun c => c = '/' || operatingSystem = .windows && c = '\\'
  if path.toList.any separator then
    let tail := (path.toList.reverse.takeWhile fun c => !separator c).reverse
    let filename := String.ofList (tail.dropWhile fun c => c = '/' || c = '\\')
    let parent := path.toList.take (path.toList.length - tail.length - 1)
    if filename = "" ∨ filename = "." ∨ filename = ".." then
      throw (.new .invalidSpec "flag filename is invalid")
    else if parent = [] then return ("/", filename)
    else if operatingSystem = .windows ∧ parent.getLast? = some ':' then
      return (String.ofList parent ++ "\\", filename)
    else return (String.ofList parent, filename)
  else throw (.new .invalidSpec "flag path must include a parent directory")

def upload (runtime : DockerRuntime) (id : ℕ) (path : String) (file : FlagFile) :
    DockerRuntime :=
  { runtime with
    containers := runtime.containers.map fun container =>
      if container.id = id then
        { container with files := Function.update container.files path (some file) }
      else container }

/-- Upload the flag to every replica, and collect the replicas which did not get it. -/
def installReplicas (command : WriteFlag) (uploads : ℕ → UploadOutcome) :
    DockerRuntime → List (ℕ × ℕ) → List String × DockerRuntime
  | runtime, [] => ([], runtime)
  | runtime, (replica, id) :: replicas =>
    let written := if uploads id = .failed then runtime
      else runtime.upload id command.target.path ⟨command.flagSequence, command.value⟩
    let (failed, final) := installReplicas command uploads written replicas
    (if uploads id = .verified then failed
      else (command.target.service ++ ":" ++ toString replica) :: failed, final)

def sequenceKey (command : WriteFlag) : FlagKey :=
  (command.fence.workloadId, command.fence.assignmentId, command.fence.generation,
    command.target.path)

/-- Upload a flag which is newer than the recorded one. -/
def installFlag (runtime : DockerRuntime) (command : WriteFlag) (uploads : ℕ → UploadOutcome) :
    Except RuntimeError Unit × DockerRuntime :=
  let containers := runtime.matchingContainerIds command.fence command.target.service
  if containers = [] then (.error (.new .notFound "flag target has no ready replicas"), runtime)
  else match splitGuestPath command.target.path runtime.platform.operatingSystem with
    | .error error => (.error error, runtime)
    | .ok _ =>
      match installReplicas command uploads runtime containers with
      | ([], final) =>
        (final.currentStatus command.fence, { final with
          flagSequences := Function.update final.flagSequences (sequenceKey command)
            (some command.flagSequence) })
      | (failed, final) =>
        (.error ⟨.partialFailure, "flag write failed for one or more replicas", failed⟩, final)

def writeFlag (runtime : DockerRuntime) (command : WriteFlag) (uploads : ℕ → UploadOutcome) :
    Except RuntimeError Unit × DockerRuntime :=
  match runtime.flagSequences (sequenceKey command) with
  | some current =>
    if command.flagSequence < current then
      (.error (.new .staleFlagSequence "a newer flag sequence is already installed"), runtime)
    else if command.flagSequence = current then (runtime.currentStatus command.fence, runtime)
    else runtime.installFlag command uploads
  | none => runtime.installFlag command uploads

end WriteFlag

end DockerRuntime

/-- What happens to a workload.  Containers are lost or stopped behind the agent's back, and
readiness probes change which replicas are ready. -/
inductive Event
  | ensureWorkload (command : EnsureWorkload)
  | writeFlag (command : WriteFlag) (uploads : ℕ → DockerRuntime.UploadOutcome)
  | ensureAbsent (command : EnsureAbsent)
  | lose (lost : ℕ → Bool)
  | halt (stopped : ℕ → Bool)
  | probe (ready : List ℕ)

namespace DockerRuntime

def step (specHash : WorkloadSpec → String) (runtime : DockerRuntime) : Event → DockerRuntime
  | .ensureWorkload command => (runtime.ensureWorkload specHash command).2
  | .writeFlag command uploads => (runtime.writeFlag command uploads).2
  | .ensureAbsent command => (runtime.ensureAbsent command).2
  | .lose lost => { runtime with containers := runtime.containers.filter (!lost ·.id) }
  | .halt stopped => { runtime with
      containers := runtime.containers.map fun container =>
        if stopped container.id then { container with running := false } else container }
  | .probe ready => { runtime with readyContainers := ready }

end DockerRuntime

end Agent

end Rsctf
