import Mathlib.Data.List.ReduceOption
import Rsctf.Agent.Tombstones
import Rsctf.Data.Effect
import Rsctf.Data.Path

/-!
# The deletion fence of a worker agent

The agent records the deletion of a workload on its disk before it deletes the containers.
The daemon may fail in every call, and the agent may crash while it writes; what is on the
disk and in the daemon is all that a restarted agent knows.
-/

open Effect

namespace Rsctf

namespace Agent

inductive DockerCall
  | listContainers (workloadId : ℕ)
  | inspectImage (image : String)
  | createContainer (fence : WorkloadFence) (service : String) (replica : ℕ)
  | startContainer (id : ℕ)
  | removeContainer (id : ℕ)
  | ensureNetwork (fence : WorkloadFence)
  | removeNetworks (assignmentId : ℕ)
deriving DecidableEq, Repr

/-- How the daemon answers a call.  A call which fails or is refused may have its effect. -/
inductive CallOutcome
  | done
  | failed (applied notFound : Bool) (reason : String)
  | refused (applied : Bool) (error : RuntimeError)
deriving DecidableEq, Repr

/-- The daemon with the calls it has received, the answers it will give, and the disk. -/
structure Host where
  platform : Platform
  maxNetworkEndpoints : ℕ
  containers : List Container
  nextContainerId : ℕ
  calls : List DockerCall
  outcomes : List CallOutcome
  tombstones : ℕ → Directory

inductive Failure
  | failed (error : RuntimeError)
  | crashed
deriving DecidableEq, Repr

abbrev Command (α : Type) := EStateM Failure Host α

namespace Command

def liftExcept {α : Type} : Except RuntimeError α → Command α
  | .ok a => pure a
  | .error error => throw (.failed error)

def dockerError (operation : String) (notFound : Bool) (reason : String) : RuntimeError :=
  .new (if notFound then .notFound else .runtimeUnavailable) (operation ++ ": " ++ reason)

/-- Make a call; `some` is an error of the daemon, and whether it did not find its object. -/
def tryCall (request : DockerCall) (effect : Host → Host) : Command (Option (Bool × String)) :=
  fun host =>
    let asked := { host with
      calls := host.calls ++ [request]
      outcomes := host.outcomes.tail }
    match host.outcomes.headD .done with
    | .done => .ok none (effect asked)
    | .failed applied notFound reason =>
      .ok (some (notFound, reason)) (if applied then effect asked else asked)
    | .refused applied error => .error (.failed error) (if applied then effect asked else asked)

def call (operation : String) (request : DockerCall) (effect : Host → Host) : Command Unit := do
  match ← tryCall request effect with
  | none => return ()
  | some (notFound, reason) => throw (.failed (dockerError operation notFound reason))

def existingContainers (workloadId : ℕ) : Command (List Container) := do
  call "list workload containers" (.listContainers workloadId) id
  let host ← get
  return host.containers.filter (·.fence.workloadId = workloadId)

/-- Remove a container, and give its id when that failed. -/
def removeContainer (container : Container) : Command (Option String) := do
  match ← tryCall (.removeContainer container.id) fun host =>
      { host with containers := host.containers.filter (·.id ≠ container.id) } with
  | some (false, _) => return some (toString container.id)
  | _ => return none

def removeContainers (containers : List Container) : Command Unit := do
  let failed ← containers.mapM removeContainer
  if failed.reduceOption = [] then return ()
  else throw (.failed ⟨.partialFailure,
    "one or more workload containers could not be removed", failed.reduceOption⟩)

def removeAssignmentNetworks (assignmentId : ℕ) : Command Unit :=
  call "remove workload network" (.removeNetworks assignmentId) id

section EnsureWorkload

def ensureNetwork (fence : WorkloadFence) : Command Unit :=
  call "list workload networks" (.ensureNetwork fence) id

def markRunning (id : ℕ) (host : Host) : Host :=
  { host with containers := host.containers.map fun container =>
      if container.id = id then { container with running := true } else container }

def createContainer (command : EnsureWorkload) (service : ServiceSpec) (replica : ℕ) :
    Command Unit := do
  call "inspect image" (.inspectImage service.image) id
  let host ← get
  call "create workload container" (.createContainer command.fence service.name replica)
    fun host => { host with
      containers := host.containers ++ [⟨host.nextContainerId, command.fence, command.specHash,
        service.name, replica, service.image, false, fun _ => none⟩]
      nextContainerId := host.nextContainerId + 1 }
  call "start workload container" (.startContainer host.nextContainerId)
    (markRunning host.nextContainerId)

def startIfStopped (container : Container) : Command Unit :=
  if container.running then return ()
  else call "start adopted workload container" (.startContainer container.id)
    (markRunning container.id)

/-- Start or create every planned replica; `current` are the containers not yet used. -/
def ensureReplicas (command : EnsureWorkload) :
    List Container → List (ServiceSpec × ℕ) → Command (List Container)
  | current, [] => return current
  | current, (service, replica) :: plan =>
    match current.find? (DockerRuntime.servesReplica command service replica) with
    | some container => do
      startIfStopped container
      ensureReplicas command (current.filter (·.id ≠ container.id)) plan
    | none => do
      createContainer command service replica
      ensureReplicas command current plan

def checkSpec (specHash : WorkloadSpec → String) (command : EnsureWorkload) (host : Host) :
    Except RuntimeError Unit :=
  if specHash command.spec ≠ command.specHash then
    throw (.new .specConflict "workload spec hash does not match payload")
  else if host.maxNetworkEndpoints < DockerRuntime.replicaCount command.spec then
    throw (.new .invalidSpec ("workload has " ++ toString (DockerRuntime.replicaCount command.spec)
      ++ " replicas but this Docker address pool supports at most "
      ++ toString host.maxNetworkEndpoints ++ " containers per isolated network"))
  else if command.spec.platform ≠ host.platform then
    throw (.new .invalidSpec "workload platform does not match this worker")
  else return ()

/-- Remove the containers of another generation. -/
def replaceGeneration (command : EnsureWorkload) (existing : List Container) : Command Unit :=
  if existing.any (·.fence.generation ≠ command.fence.generation) then do
    removeContainers existing
    removeAssignmentNetworks command.fence.assignmentId
  else return ()

def ensureWorkload (specHash : WorkloadSpec → String) (listing : Listing)
    (command : EnsureWorkload) : Command Unit := do
  let host ← get
  liftExcept ((host.tombstones command.fence.workloadId).rejectStalePresent listing command.fence)
  liftExcept (checkSpec specHash command host)
  let existing ← existingContainers command.fence.workloadId
  liftExcept (existing.forM (DockerRuntime.checkExisting command))
  replaceGeneration command existing
  ensureNetwork command.fence
  let current ← existingContainers command.fence.workloadId
  let surplus ← ensureReplicas command current (command.spec.services.flatMap fun service =>
    (List.range service.replicas).map (service, ·))
  removeContainers (surplus.filter (labelsMatch · command.fence command.specHash))
  let _ ← existingContainers command.fence.workloadId

end EnsureWorkload

section EnsureAbsent

def Changes.final (directory : Directory) (changes : Changes) : Directory :=
  changes.1.getLast?.getD directory

/-- Record a deletion; a crash leaves the directory with the given number of changes. -/
def recordTombstone (listing : Listing) (crash : Option ℕ) (fence : WorkloadFence)
    (specHash : String) : Command Unit :=
  fun host =>
    let directory := host.tombstones fence.workloadId
    let changes := record listing directory fence specHash
    let withDirectory := fun state => { host with
      tombstones := Function.update host.tombstones fence.workloadId state }
    match crash.bind (changes.1[·]?) with
    | some state => .error .crashed (withDirectory state)
    | none =>
      match changes.2 with
      | .ok () => .ok () (withDirectory (Changes.final directory changes))
      | .error error => .error (.failed error) (withDirectory (Changes.final directory changes))

def recordWhen (toRecord : Bool) (listing : Listing) (crash : Option ℕ) (command : EnsureAbsent) :
    Command Unit :=
  if toRecord then recordTombstone listing crash command.fence command.specHash else pure ()

def ensureAbsent (listing : Listing) (crash : Option ℕ) (command : EnsureAbsent) :
    Command Unit := do
  let host ← get
  let toRecord ← liftExcept ((host.tombstones command.fence.workloadId).validateAbsent listing
    command.fence command.specHash)
  let containers ← existingContainers command.fence.workloadId
  liftExcept (containers.forM (DockerRuntime.checkAbsent command))
  recordWhen toRecord listing crash command
  removeContainers (containers.filter (·.fence.assignmentId = command.fence.assignmentId))
  removeAssignmentNetworks command.fence.assignmentId

end EnsureAbsent

end Command

inductive FenceCommand
  | ensureWorkload (command : EnsureWorkload)
  | ensureAbsent (command : EnsureAbsent)

/-- A command with the order of the directory, the answers of the daemon and the change after
which the agent crashes. -/
structure Attempt where
  command : FenceCommand
  listing : Listing
  outcomes : List CallOutcome
  crash : Option ℕ

namespace Host

def perform (specHash : WorkloadSpec → String) (attempt : Attempt) : Command Unit :=
  match attempt.command with
  | .ensureWorkload command => Command.ensureWorkload specHash attempt.listing command
  | .ensureAbsent command => Command.ensureAbsent attempt.listing attempt.crash command

def run (specHash : WorkloadSpec → String) (host : Host) (attempt : Attempt) :
    EStateM.Result Failure Host Unit :=
  perform specHash attempt { host with outcomes := attempt.outcomes }

/-- The host after a command, however it ended. -/
def step (specHash : WorkloadSpec → String) (host : Host) (attempt : Attempt) : Host :=
  final (perform specHash attempt) { host with outcomes := attempt.outcomes }

end Host

section Frame

/-- The disk is as before. -/
def KeepsTombstones (host host' : Host) : Prop := host'.tombstones = host.tombstones

instance : Std.Refl KeepsTombstones := ⟨fun _ => rfl⟩

instance : IsTrans Host KeepsTombstones := ⟨fun _ _ _ h h' => Eq.trans h' h⟩

/-- A computation which leaves the disk alone and does not crash. -/
abbrev Command.Frames {α : Type} (x : Command α) : Prop :=
  Respects KeepsTombstones (· ≠ .crashed) x

theorem Command.Frames.ok {α : Type} {x : Command α} {before after : Host} {a : α} (hx : x.Frames)
    (h : x before = .ok a after) : after.tombstones = before.tombstones := by
  have hkeeps := (hx before).1
  rwa [final_of_ok h] at hkeeps

theorem Command.Frames.error {α : Type} {x : Command α} {before after : Host} {failure : Failure}
    (hx : x.Frames) (h : x before = .error failure after) :
    failure ≠ .crashed ∧ after.tombstones = before.tombstones := by
  obtain ⟨hkeeps, herror⟩ := hx before
  rw [final_of_error h] at hkeeps
  exact ⟨herror failure after h, hkeeps⟩

namespace Command

theorem frames_get : Frames (get : Command Host) := by
  intro host
  refine ⟨rfl, fun failure host' h => ?_⟩
  cases h

theorem frames_liftExcept {α : Type} (x : Except RuntimeError α) : Frames (liftExcept x) := by
  cases x with
  | ok a => exact respects_pure a
  | error error => exact respects_throw (by simp)

theorem frames_tryCall (request : DockerCall) {effect : Host → Host}
    (heffect : ∀ host, (effect host).tombstones = host.tombstones) :
    Frames (tryCall request effect) := by
  intro host
  have happlied : ∀ (applied : Bool) (asked : Host), asked.tombstones = host.tombstones →
      (if applied then effect asked else asked).tombstones = host.tombstones := by
    intro applied asked hasked
    split
    · exact (heffect asked).trans hasked
    · exact hasked
  cases houtcome : host.outcomes.headD .done with
  | done =>
      simp only [final, tryCall, houtcome]
      refine ⟨heffect _, fun failure host' h => ?_⟩
      cases h
  | failed applied notFound reason =>
      simp only [final, tryCall, houtcome]
      refine ⟨happlied applied _ rfl, fun failure host' h => ?_⟩
      cases h
  | refused applied error =>
      simp only [final, tryCall, houtcome]
      refine ⟨happlied applied _ rfl, fun failure host' h => ?_⟩
      cases h
      simp

theorem frames_call (operation : String) (request : DockerCall) {effect : Host → Host}
    (heffect : ∀ host, (effect host).tombstones = host.tombstones) :
    Frames (call operation request effect) := by
  refine respects_bind (frames_tryCall request heffect) fun answer => ?_
  cases answer with
  | none => exact respects_pure _
  | some error => exact respects_throw (by simp)

theorem frames_existingContainers (workloadId : ℕ) : Frames (existingContainers workloadId) :=
  respects_bind (frames_call _ _ fun _ => rfl) fun _ =>
    respects_bind frames_get fun _ => respects_pure _

theorem frames_removeContainers (containers : List Container) :
    Frames (removeContainers containers) := by
  refine respects_bind (respects_mapM fun container => ?_) fun failed => ?_
  · refine respects_bind (frames_tryCall _ fun _ => rfl) fun answer => ?_
    split
    · exact respects_pure _
    · exact respects_pure _
  · exact respects_ite (respects_pure _) (respects_throw (by simp))

theorem frames_removeAssignmentNetworks (assignmentId : ℕ) :
    Frames (removeAssignmentNetworks assignmentId) :=
  frames_call _ _ fun _ => rfl

theorem frames_createContainer (command : EnsureWorkload) (service : ServiceSpec) (replica : ℕ) :
    Frames (createContainer command service replica) :=
  respects_bind (frames_call _ _ fun _ => rfl) fun _ => respects_bind frames_get fun _ =>
    respects_bind (frames_call _ _ fun _ => rfl) fun _ => frames_call _ _ fun _ => rfl

theorem frames_startIfStopped (container : Container) : Frames (startIfStopped container) :=
  respects_ite (respects_pure _) (frames_call _ _ fun _ => rfl)

theorem frames_ensureReplicas (command : EnsureWorkload) (current : List Container)
    (plan : List (ServiceSpec × ℕ)) : Frames (ensureReplicas command current plan) := by
  induction plan generalizing current with
  | nil => exact respects_pure current
  | cons planned plan ih =>
      rw [ensureReplicas]
      split
      · exact respects_bind (frames_startIfStopped _) fun _ => ih _
      · exact respects_bind (frames_createContainer _ _ _) fun _ => ih _

theorem frames_ensureWorkload (specHash : WorkloadSpec → String) (listing : Listing)
    (command : EnsureWorkload) : Frames (ensureWorkload specHash listing command) := by
  have hreplace : ∀ existing, Frames (replaceGeneration command existing) := fun existing =>
    respects_ite (respects_bind (frames_removeContainers existing) fun _ =>
      frames_removeAssignmentNetworks _) (respects_pure _)
  have hnetwork : Frames (ensureNetwork command.fence) := frames_call _ _ fun _ => rfl
  exact respects_bind frames_get fun _ => respects_bind (frames_liftExcept _) fun _ =>
    respects_bind (frames_liftExcept _) fun _ =>
    respects_bind (frames_existingContainers _) fun existing =>
    respects_bind (frames_liftExcept _) fun _ => respects_bind (hreplace existing) fun _ =>
    respects_bind hnetwork fun _ => respects_bind (frames_existingContainers _) fun current =>
    respects_bind (frames_ensureReplicas _ _ _) fun _ =>
    respects_bind (frames_removeContainers _) fun _ =>
    respects_bind (frames_existingContainers _) fun _ => respects_pure _

/-- What follows the recording of a deletion. -/
theorem frames_sweep (containers : List Container) (assignmentId : ℕ) :
    Frames (do removeContainers containers; removeAssignmentNetworks assignmentId) :=
  respects_bind (frames_removeContainers containers) fun _ =>
    frames_removeAssignmentNetworks assignmentId

end Command

end Frame

section EnsureAbsent

variable {listing : Listing} {crash : Option ℕ} {command : EnsureAbsent} {host : Host}

def Host.workloadContainers (host : Host) (workloadId : ℕ) : List Container :=
  host.containers.filter (·.fence.workloadId = workloadId)

/-- The recording of a deletion on a host. -/
def Host.changes (host : Host) (listing : Listing) (command : EnsureAbsent) : Changes :=
  record listing (host.tombstones command.fence.workloadId) command.fence command.specHash

/-- The checks before a deletion is recorded. -/
structure Admits (listing : Listing) (command : EnsureAbsent) (host : Host) : Prop where
  validates : (host.tombstones command.fence.workloadId).validateAbsent listing command.fence
    command.specHash = .ok true
  checks : (host.workloadContainers command.fence.workloadId).forM
    (DockerRuntime.checkAbsent command) = .ok ()

/-- How a deletion ends.  It stops before the recording or has nothing to record, it crashes in
the recording, or the recording ends and the containers are removed as far as that goes. -/
inductive AbsentRun (listing : Listing) (crash : Option ℕ) (command : EnsureAbsent)
    (host : Host) : EStateM.Result Failure Host Unit → Prop
  | stopped (failure : Failure) (host' : Host) : failure ≠ .crashed →
      host'.tombstones = host.tombstones → AbsentRun listing crash command host (.error failure host')
  | unrecorded (host' : Host) :
      (host.tombstones command.fence.workloadId).validateAbsent listing command.fence
        command.specHash = .ok false →
      host'.tombstones = host.tombstones → AbsentRun listing crash command host (.ok () host')
  | crashed (k : ℕ) (state : Directory) (host' : Host) : Admits listing command host →
      crash = some k → (host.changes listing command).1[k]? = some state →
      host'.containers = host.containers →
      host'.tombstones = Function.update host.tombstones command.fence.workloadId state →
      AbsentRun listing crash command host (.error .crashed host')
  | failed (failure : Failure) (host' : Host) : failure ≠ .crashed → Admits listing command host →
      host'.tombstones = Function.update host.tombstones command.fence.workloadId
        (Command.Changes.final (host.tombstones command.fence.workloadId)
          (host.changes listing command)) →
      AbsentRun listing crash command host (.error failure host')
  | recorded (host' : Host) : Admits listing command host →
      (host.changes listing command).2 = .ok () →
      host'.tombstones = Function.update host.tombstones command.fence.workloadId
        (Command.Changes.final (host.tombstones command.fence.workloadId)
          (host.changes listing command)) →
      AbsentRun listing crash command host (.ok () host')

namespace Command

theorem existingContainers_ok {workloadId : ℕ} {host host' : Host} {containers : List Container}
    (h : existingContainers workloadId host = .ok containers host') :
    containers = host.workloadContainers workloadId ∧ host'.containers = host.containers ∧
      host'.tombstones = host.tombstones := by
  obtain ⟨_, asked, hcall, hrest⟩ := bind_eq_ok h
  obtain ⟨answer, answered, htry, hanswer⟩ := bind_eq_ok hcall
  have hsame : answered.containers = host.containers ∧ answered.tombstones = host.tombstones := by
    cases houtcome : host.outcomes.headD .done with
    | done =>
        simp only [tryCall, houtcome] at htry
        cases htry
        exact ⟨rfl, rfl⟩
    | failed applied notFound reason =>
        simp only [tryCall, houtcome] at htry
        cases htry
        cases applied <;> exact ⟨rfl, rfl⟩
    | refused applied error =>
        simp only [tryCall, houtcome] at htry
        cases htry
  cases answer with
  | some error => cases hanswer
  | none =>
      cases hanswer
      cases hrest
      rw [Host.workloadContainers, hsame.1]
      exact ⟨rfl, rfl, hsame.2⟩

theorem liftExcept_ok {α : Type} {x : Except RuntimeError α} {host host' : Host} {a : α}
    (h : liftExcept x host = .ok a host') : x = .ok a ∧ host' = host := by
  cases x with
  | ok b =>
      cases h
      exact ⟨rfl, rfl⟩
  | error error => cases h

theorem stopped_of_frames {α : Type} {x : Command α} {before after : Host} {failure : Failure}
    (hx : Frames x) (hbefore : before.tombstones = host.tombstones)
    (h : x before = .error failure after) :
    AbsentRun listing crash command host (.error failure after) := by
  obtain ⟨hfailure, hkeeps⟩ := Frames.error hx h
  exact .stopped failure after hfailure (hkeeps.trans hbefore)

theorem recordTombstone_ok {host' : Host}
    (h : recordTombstone listing crash command.fence command.specHash host = .ok () host') :
    (host.changes listing command).2 = .ok () ∧
      host'.tombstones = Function.update host.tombstones command.fence.workloadId
        (Changes.final (host.tombstones command.fence.workloadId)
          (host.changes listing command)) := by
  simp only [recordTombstone] at h
  split at h
  · cases h
  · split at h
    · next hchanges =>
        cases h
        exact ⟨hchanges, rfl⟩
    · cases h

theorem recordTombstone_error {before after : Host} {failure : Failure}
    (hadmits : Admits listing command host) (hcontainers : before.containers = host.containers)
    (hbefore : before.tombstones = host.tombstones)
    (h : recordTombstone listing crash command.fence command.specHash before =
      .error failure after) :
    AbsentRun listing crash command host (.error failure after) := by
  simp only [recordTombstone, hbefore] at h
  split at h
  · next state hstate =>
      cases h
      obtain ⟨k, hk, hstate⟩ := Option.bind_eq_some_iff.mp hstate
      exact .crashed k state _ hadmits hk hstate hcontainers rfl
  · split at h
    · cases h
    · cases h
      exact .failed _ _ (by simp) hadmits rfl

theorem ensureAbsent_run (listing : Listing) (crash : Option ℕ) (command : EnsureAbsent)
    (host : Host) :
    AbsentRun listing crash command host (ensureAbsent listing crash command host) := by
  generalize hresult : ensureAbsent listing crash command host = result
  rw [ensureAbsent, bind_ok (show (get : Command Host) host = .ok host host from rfl)] at hresult
  cases result with
  | error failure after =>
      rcases bind_eq_error hresult with h | ⟨toRecord, _, hvalidate, hlisting⟩
      · exact stopped_of_frames (frames_liftExcept _) rfl h
      obtain ⟨hvalid, rfl⟩ := liftExcept_ok hvalidate
      rcases bind_eq_error hlisting with h | ⟨containers, listed, hlist, hchecking⟩
      · exact stopped_of_frames (frames_existingContainers _) rfl h
      obtain ⟨rfl, hcontainers, hdisk⟩ := existingContainers_ok hlist
      rcases bind_eq_error hchecking with h | ⟨_, _, hchecks, hrecording⟩
      · exact stopped_of_frames (frames_liftExcept _) hdisk h
      obtain ⟨hchecked, rfl⟩ := liftExcept_ok hchecks
      rcases bind_eq_error hrecording with h | ⟨_, recorded, hrecord, hsweep⟩
      · cases toRecord with
        | false => cases h
        | true => exact recordTombstone_error ⟨hvalid, hchecked⟩ hcontainers hdisk h
      · cases toRecord with
        | false =>
            cases hrecord
            exact stopped_of_frames (frames_sweep _ _) hdisk hsweep
        | true =>
            obtain ⟨_, hupdate⟩ := recordTombstone_ok hrecord
            obtain ⟨hfailure, hkeeps⟩ := Frames.error (frames_sweep _ _) hsweep
            refine .failed failure after hfailure ⟨hvalid, hchecked⟩ ?_
            rw [hkeeps, hupdate, Host.changes, Host.changes, hdisk]
  | ok _ after =>
      obtain ⟨toRecord, _, hvalidate, hlisting⟩ := bind_eq_ok hresult
      obtain ⟨hvalid, rfl⟩ := liftExcept_ok hvalidate
      obtain ⟨containers, listed, hlist, hchecking⟩ := bind_eq_ok hlisting
      obtain ⟨rfl, hcontainers, hdisk⟩ := existingContainers_ok hlist
      obtain ⟨_, _, hchecks, hrecording⟩ := bind_eq_ok hchecking
      obtain ⟨hchecked, rfl⟩ := liftExcept_ok hchecks
      obtain ⟨_, recorded, hrecord, hsweep⟩ := bind_eq_ok hrecording
      have hkeeps := Frames.ok (frames_sweep _ _) hsweep
      cases toRecord with
      | false =>
          cases hrecord
          exact .unrecorded after hvalid (hkeeps.trans hdisk)
      | true =>
          obtain ⟨hchanges, hupdate⟩ := recordTombstone_ok hrecord
          rw [Host.changes, hdisk] at hchanges
          refine .recorded after ⟨hvalid, hchecked⟩ hchanges ?_
          rw [hkeeps, hupdate, Host.changes, Host.changes, hdisk]

theorem changes_final_mem :
    Changes.final (host.tombstones command.fence.workloadId) (host.changes listing command) ∈
      (host.changes listing command).1 := by
  obtain ⟨rest, hrest⟩ := (record_recording listing (host.tombstones command.fence.workloadId)
    command.fence command.specHash).begins
  have hne : (host.changes listing command).1 ≠ [] := by
    rw [Host.changes, hrest]
    exact List.cons_ne_nil _ _
  rw [Changes.final, List.getLast?_eq_some_getLast hne]
  exact List.getLast_mem hne

/-- A deletion leaves the disk alone, or it leaves one of the directories of the recording. -/
theorem ensureAbsent_tombstones (listing : Listing) (crash : Option ℕ) (command : EnsureAbsent)
    (host : Host) :
    (final (ensureAbsent listing crash command) host).tombstones = host.tombstones ∨
      Admits listing command host ∧ ∃ state,
        ((∃ k, crash = some k ∧ (host.changes listing command).1[k]? = some state) ∨
          state = Changes.final (host.tombstones command.fence.workloadId)
            (host.changes listing command)) ∧
        (final (ensureAbsent listing crash command) host).tombstones =
          Function.update host.tombstones command.fence.workloadId state := by
  have hrun := ensureAbsent_run listing crash command host
  cases hresult : ensureAbsent listing crash command host with
  | ok a after =>
      rw [hresult] at hrun
      rw [final_of_ok hresult]
      cases hrun with
      | unrecorded _ hvalidate hkeeps => exact .inl hkeeps
      | recorded _ hadmits hchanges hupdate => exact .inr ⟨hadmits, _, .inr rfl, hupdate⟩
  | error failure after =>
      rw [hresult] at hrun
      rw [final_of_error hresult]
      cases hrun with
      | stopped _ _ hfailure hkeeps => exact .inl hkeeps
      | crashed k state _ hadmits hk hstate hcontainers hupdate =>
          exact .inr ⟨hadmits, state, .inl ⟨k, hk, hstate⟩, hupdate⟩
      | failed _ _ hfailure hadmits hupdate => exact .inr ⟨hadmits, _, .inr rfl, hupdate⟩

end Command

end EnsureAbsent

section Run

variable {specHash : WorkloadSpec → String} {host later : Host} {attempt : Attempt}
  {attempts : List Attempt} {w : ℕ}

namespace Host

theorem step_ensureWorkload {command : EnsureWorkload} {listing : Listing}
    {outcomes : List CallOutcome} {crash : Option ℕ} :
    (host.step specHash ⟨.ensureWorkload command, listing, outcomes, crash⟩).tombstones =
      host.tombstones :=
  (Command.frames_ensureWorkload specHash listing command _).1

/-- What a deletion does to the directory of a workload. -/
theorem step_ensureAbsent (specHash : WorkloadSpec → String) (host : Host) (w : ℕ)
    (command : EnsureAbsent) (listing : Listing) (outcomes : List CallOutcome) (crash : Option ℕ) :
    (host.step specHash ⟨.ensureAbsent command, listing, outcomes, crash⟩).tombstones w =
        host.tombstones w ∨
      command.fence.workloadId = w ∧ Admits listing command host ∧
        (((∃ k, crash = some k ∧ (host.changes listing command).1[k]? = some
            ((host.step specHash ⟨.ensureAbsent command, listing, outcomes, crash⟩).tombstones w)) ∨
          (host.step specHash ⟨.ensureAbsent command, listing, outcomes, crash⟩).tombstones w =
            Command.Changes.final (host.tombstones command.fence.workloadId)
              (host.changes listing command))) := by
  have hstep : host.step specHash ⟨.ensureAbsent command, listing, outcomes, crash⟩ =
    final (Command.ensureAbsent listing crash command) { host with outcomes } := rfl
  rw [hstep]
  rcases Command.ensureAbsent_tombstones listing crash command { host with outcomes } with
    hkeeps | ⟨hadmits, state, hstate, hupdate⟩
  · exact .inl (congrFun hkeeps w)
  · rw [hupdate]
    by_cases hw : command.fence.workloadId = w
    · rw [hw, Function.update_self, ← hw]
      exact .inr ⟨rfl, ⟨hadmits.validates, hadmits.checks⟩, hstate⟩
    · exact .inl (Function.update_of_ne (Ne.symm hw) _ _)

/-- Every attempt of a run replaces the files of a workload by files which are not earlier. -/
theorem step_advances :
    (host.tombstones w).Advances ((host.step specHash attempt).tombstones w) := by
  obtain ⟨command, listing, outcomes, crash⟩ := attempt
  cases command with
  | ensureWorkload command =>
      rw [step_ensureWorkload]
      exact .refl _
  | ensureAbsent command =>
      rcases step_ensureAbsent specHash host w command listing outcomes crash with
        hkeeps | ⟨rfl, _, ⟨k, _, hstate⟩ | hstate⟩
      · rw [hkeeps]
        exact .refl _
      · exact (record_recording _ _ _ _).advances (List.mem_of_getElem? hstate)
      · rw [hstate]
        exact (record_recording _ _ _ _).advances Command.changes_final_mem

/-- The attempts of an agent, one after another. -/
abbrev Runs (specHash : WorkloadSpec → String) : Host → List Attempt → Host → Prop :=
  StepPath fun host attempt host' => host' = host.step specHash attempt

theorem runs_advances (h : Runs specHash host attempts later) :
    (host.tombstones w).Advances (later.tombstones w) :=
  h.related (R := fun host later => (host.tombstones w).Advances (later.tombstones w))
    (fun _ => .refl _) (fun _ _ _ h h' => h.trans h') fun host attempt host' hstep => by
      rw [hstep]
      exact step_advances

end Host

theorem Directory.rejectStalePresent_error {directory : Directory} (listing : Listing)
    {fence : WorkloadFence} {file : TombstoneFile} (hfile : file ∈ directory.files)
    (hstale : fence.assignmentId ≠ file.assignmentId ∨ fence.generation ≤ file.generation) :
    ∃ error, directory.rejectStalePresent listing fence = .error error := by
  cases hlatest : directory.latest listing with
  | error error => exact ⟨error, by simp only [rejectStalePresent, hlatest]; rfl⟩
  | ok result =>
      obtain ⟨_, latest, rfl, hassignment, hgeneration⟩ := latest_covers hlatest hfile
      simp only [rejectStalePresent, hlatest, bind, Except.bind]
      by_cases hforeign : latest.assignmentId ≠ fence.assignmentId
      · exact ⟨_, if_pos hforeign⟩
      · have hsame := not_not.mp hforeign
        have hle : fence.generation ≤ latest.generation := by
          rcases hstale with hstale | hstale
          · exact absurd (hsame.symm.trans hassignment.symm) hstale
          · exact hstale.trans hgeneration
        exact ⟨_, by rw [if_neg hforeign, if_pos hle]; rfl⟩

/-- A stale command makes no call. -/
theorem Command.ensureWorkload_stale {listing : Listing} {command : EnsureWorkload}
    {error : RuntimeError}
    (h : (host.tombstones command.fence.workloadId).rejectStalePresent listing command.fence =
      .error error) :
    ensureWorkload specHash listing command host = .error (.failed error) host := by
  rw [ensureWorkload, bind_ok (show (get : Command Host) host = .ok host host from rfl), h]
  exact bind_error rfl

namespace Host

def latest (host : Host) (listing : Listing) (workloadId : ℕ) :
    Except RuntimeError (Option Tombstone) :=
  (host.tombstones workloadId).latest listing

/-- A successful deletion without a foreign or higher tombstone leaves its file. -/
theorem exists_file_of_deleted {command : EnsureAbsent} {listing : Listing}
    {outcomes : List CallOutcome} {crash : Option ℕ} {deleted : Host}
    (hlatest : ∀ tombstone, host.latest listing command.fence.workloadId = .ok (some tombstone) →
      tombstone.assignmentId = command.fence.assignmentId ∧
        tombstone.generation ≤ command.fence.generation)
    (h : host.run specHash ⟨.ensureAbsent command, listing, outcomes, crash⟩ = .ok () deleted) :
    ∃ file ∈ (deleted.tombstones command.fence.workloadId).files,
      file.name = (command.fence.generation, command.fence.assignmentId) := by
  have hrun := Command.ensureAbsent_run listing crash command { host with outcomes }
  rw [show Command.ensureAbsent listing crash command { host with outcomes } = .ok () deleted
    from h] at hrun
  cases hrun with
  | unrecorded _ hvalidate hkeeps =>
      obtain ⟨result, hresult, hfalse⟩ := Fallible.bind_eq_ok_iff.mp hvalidate
      cases result with
      | none => cases hfalse
      | some tombstone =>
          obtain ⟨hassignment, hle⟩ := hlatest tombstone hresult
          simp only [hassignment, ne_eq, not_true_eq_false, if_false, hle.not_gt] at hfalse
          split at hfalse <;> cases hfalse
  | recorded _ hadmits hchanges hupdate =>
      have hne : (host.changes listing command).1 ≠ [] :=
        List.ne_nil_of_mem Command.changes_final_mem
      have hlast : (host.changes listing command).1.getLast? =
          some (Command.Changes.final (host.tombstones command.fence.workloadId)
            (host.changes listing command)) := by
        rw [Command.Changes.final, List.getLast?_eq_some_getLast hne, Option.getD_some]
      obtain ⟨files, remaining, hwritten, hstate, hkept⟩ :=
        (record_recording _ _ _ _).last hchanges hlast
      obtain ⟨file, hfile, hname, _⟩ := hwritten.contents_kept hkept
      refine ⟨file, ?_, hname⟩
      have hdeleted : deleted.tombstones command.fence.workloadId = some remaining := by
        rw [hupdate, Function.update_self]
        exact hstate
      rw [hdeleted]
      exact hfile

/-- A stale command leaves the daemon alone. -/
theorem step_stale {command : EnsureWorkload} {listing : Listing} {outcomes : List CallOutcome}
    {crash : Option ℕ} {file : TombstoneFile}
    (hfile : file ∈ (host.tombstones command.fence.workloadId).files)
    (hstale : command.fence.assignmentId ≠ file.assignmentId ∨
      command.fence.generation ≤ file.generation) :
    host.step specHash ⟨.ensureWorkload command, listing, outcomes, crash⟩ =
      { host with outcomes } := by
  obtain ⟨error, herror⟩ :=
    Directory.rejectStalePresent_error listing hfile hstale
  exact final_of_error (Command.ensureWorkload_stale herror)

theorem latest_mono {listing listing' : Listing} {tombstone : Tombstone} {result : Option Tombstone}
    (h : (host.tombstones w).Advances (later.tombstones w))
    (hbefore : host.latest listing w = .ok (some tombstone))
    (hafter : later.latest listing' w = .ok result) :
    ∃ tombstone', result = some tombstone' ∧ tombstone.generation ≤ tombstone'.generation := by
  obtain ⟨file, hfile, hread⟩ := Directory.exists_file_of_latest hbefore
  obtain ⟨file', hfile', _, hle⟩ := h file hfile
  obtain ⟨_, tombstone', htombstone, hcovers⟩ := Directory.latest_covers hafter hfile'
  have hsame := (readTombstone_fields hread).2.2.2
  exact ⟨tombstone', htombstone, hsame.trans_le (hle.trans hcovers.2)⟩

/-- The hash of a deletion has the right form, and a crash does not fall between the creation
of the file and the end of the write. -/
def Spares (w : ℕ) (host : Host) (attempt : Attempt) : Prop :=
  ∀ command, attempt.command = .ensureAbsent command → command.fence.workloadId = w →
    isSpecHash command.specHash ∧ ∀ k, attempt.crash = some k →
      CrashSpares (host.tombstones w) command.fence command.specHash k

theorem step_sound (h : (host.tombstones w).Sound) (hspares : Spares w host attempt) :
    ((host.step specHash attempt).tombstones w).Sound := by
  obtain ⟨command, listing, outcomes, crash⟩ := attempt
  cases command with
  | ensureWorkload command => rwa [step_ensureWorkload]
  | ensureAbsent command =>
      rcases step_ensureAbsent specHash host w command listing outcomes crash with
        hkeeps | ⟨rfl, hadmits, hstate⟩
      · rwa [hkeeps]
      obtain ⟨hhash, hcrash⟩ := hspares command rfl rfl
      have hbefore := Directory.Recordable.of_validateAbsent h hadmits.validates
      rcases hstate with ⟨k, hk, hstate⟩ | hstate
      · exact ((record_recording _ _ _ _).recordable_of_spares hbefore hstate (hcrash k hk)).toSound
      · have hlast : (host.changes listing command).1.getLast? =
            some (Command.Changes.final (host.tombstones command.fence.workloadId)
              (host.changes listing command)) := by
          rw [Command.Changes.final, List.getLast?_eq_some_getLast
            (List.ne_nil_of_mem Command.changes_final_mem), Option.getD_some]
        obtain ⟨files, remaining, hwritten, hremaining, hkept⟩ :=
          (record_recording _ _ _ _).last (hbefore.record_ok listing) hlast
        rw [hstate, hremaining]
        exact (hwritten.recordable hkept hhash hbefore).toSound

/-- The attempts of an agent whose crashes spare the fence of a workload. -/
abbrev SparingRuns (specHash : WorkloadSpec → String) (w : ℕ) : Host → List Attempt → Host → Prop :=
  StepPath fun host attempt host' => Spares w host attempt ∧ host' = host.step specHash attempt

theorem runs_sound (h : SparingRuns specHash w host attempts later)
    (hsound : (host.tombstones w).Sound) : (later.tombstones w).Sound :=
  h.invariant (P := fun host => (host.tombstones w).Sound) (by
    intro host attempt host' hbefore hstep
    rw [hstep.2]
    exact step_sound hbefore hstep.1) hsound

end Host

end Run

section Recovery

variable {specHash : WorkloadSpec → String} {host crashed : Host} {command : EnsureAbsent}
  {listing : Listing} {outcomes : List CallOutcome} {crash : Option ℕ}

/-- After a crash the fence is the old one or the new one, and the command succeeds when it is
repeated and nothing fails. -/
structure Host.Recovers (specHash : WorkloadSpec → String) (host crashed : Host)
    (command : EnsureAbsent) : Prop where
  readable : ∀ listing, crashed.latest listing command.fence.workloadId =
      host.latest listing command.fence.workloadId ∨
    crashed.latest listing command.fence.workloadId = .ok
      (some ⟨command.fence.assignmentId, command.fence.generation, command.specHash⟩)
  repeats : ∀ listing, ∃ repeated,
    crashed.run specHash ⟨.ensureAbsent command, listing, [], none⟩ = .ok () repeated

namespace Command

/-- No answer is left, so every further call succeeds. -/
def Quiet (host : Host) : Prop := host.outcomes = []

theorem returns_tryCall (request : DockerCall) {effect : Host → Host}
    (heffect : ∀ host, (effect host).outcomes = host.outcomes) :
    Returns Quiet (· = none) (tryCall request effect) := by
  intro host hquiet
  have houtcome : host.outcomes.headD .done = .done := by rw [hquiet]; rfl
  refine ⟨none, _, by simp only [tryCall, houtcome]; rfl, rfl, ?_⟩
  rw [Quiet, heffect, hquiet]
  rfl

theorem returns_call (operation : String) (request : DockerCall) {effect : Host → Host}
    (heffect : ∀ host, (effect host).outcomes = host.outcomes) :
    Returns Quiet (fun _ => True) (call operation request effect) :=
  returns_bind (returns_tryCall request heffect) fun answer hanswer => by
    rw [hanswer]
    exact returns_pure trivial

theorem returns_existingContainers (workloadId : ℕ) :
    Returns Quiet (fun _ => True) (existingContainers workloadId) :=
  returns_bind (returns_call _ _ fun _ => rfl) fun _ _ host hquiet => ⟨_, host, rfl, trivial, hquiet⟩

theorem returns_removeContainers (containers : List Container) :
    Returns Quiet (fun _ => True) (removeContainers containers) := by
  have hremove : ∀ container, Returns Quiet (· = none) (removeContainer container) := by
    intro container
    refine returns_bind (returns_tryCall _ fun _ => rfl) fun answer hanswer => ?_
    rw [hanswer]
    exact returns_pure rfl
  refine returns_bind (returns_mapM hremove) fun failed hfailed => ?_
  have hnone : failed.reduceOption = [] := List.eq_nil_iff_forall_not_mem.mpr fun id hid => by
    have hsome := hfailed _ (List.reduceOption_mem_iff.mp hid)
    cases hsome
  rw [if_pos hnone]
  exact returns_pure trivial

theorem returns_sweep (containers : List Container) (assignmentId : ℕ) :
    Returns Quiet (fun _ => True)
      (do removeContainers containers; removeAssignmentNetworks assignmentId) :=
  returns_bind (returns_removeContainers containers) fun _ _ => returns_call _ _ fun _ => rfl

theorem recordTombstone_none (h : (host.changes listing command).2 = .ok ()) :
    recordTombstone listing none command.fence command.specHash host = .ok () { host with
      tombstones := Function.update host.tombstones command.fence.workloadId
        (Changes.final (host.tombstones command.fence.workloadId)
          (host.changes listing command)) } := by
  rw [Host.changes] at h
  simp only [recordTombstone, Option.bind_none, h, Host.changes]

theorem ensureAbsent_quiet (host : Host) (hquiet : Quiet host) {toRecord : Bool}
    (hvalidate : (host.tombstones command.fence.workloadId).validateAbsent listing command.fence
      command.specHash = .ok toRecord)
    (hchecks : (host.workloadContainers command.fence.workloadId).forM
      (DockerRuntime.checkAbsent command) = .ok ())
    (hrecord : toRecord = true → (host.changes listing command).2 = .ok ()) :
    ∃ after, ensureAbsent listing none command host = .ok () after := by
  obtain ⟨containers, listed, hlist, _, hlisted⟩ :=
    returns_existingContainers command.fence.workloadId host hquiet
  obtain ⟨rfl, hcontainers, hdisk⟩ := existingContainers_ok hlist
  obtain ⟨recorded, hrecorded, hquiet'⟩ : ∃ recorded,
      recordWhen toRecord listing none command listed = .ok () recorded ∧ Quiet recorded := by
    cases toRecord with
    | false => exact ⟨listed, rfl, hlisted⟩
    | true =>
        have hchanges := hrecord rfl
        rw [Host.changes, ← hdisk] at hchanges
        exact ⟨_, recordTombstone_none hchanges, hlisted⟩
  obtain ⟨_, after, hsweep, _⟩ := returns_sweep
    ((host.workloadContainers command.fence.workloadId).filter
      (·.fence.assignmentId = command.fence.assignmentId)) command.fence.assignmentId recorded hquiet'
  refine ⟨after, ?_⟩
  rw [ensureAbsent, bind_ok (show (get : Command Host) host = .ok host host from rfl), hvalidate,
    bind_ok (show liftExcept (.ok toRecord) host = .ok toRecord host from rfl), bind_ok hlist,
    hchecks, bind_ok (show liftExcept (.ok ()) listed = .ok () listed from rfl), bind_ok hrecorded]
  exact hsweep

end Command

namespace Host

/-- A crash in the recording of a deletion. -/
theorem crashed_cases
    (h : host.run specHash ⟨.ensureAbsent command, listing, outcomes, crash⟩ =
      .error .crashed crashed) :
    ∃ k state, Admits listing command host ∧ crash = some k ∧
      (host.changes listing command).1[k]? = some state ∧ crashed.containers = host.containers ∧
      crashed.tombstones command.fence.workloadId = state := by
  have hrun := Command.ensureAbsent_run listing crash command { host with outcomes }
  rw [show Command.ensureAbsent listing crash command { host with outcomes } =
    .error .crashed crashed from h] at hrun
  cases hrun with
  | stopped _ _ hfailure hkeeps => exact absurd rfl hfailure
  | failed _ _ hfailure hadmits hupdate => exact absurd rfl hfailure
  | crashed k state _ hadmits hk hstate hcontainers hupdate =>
      refine ⟨k, state, ⟨hadmits.validates, hadmits.checks⟩, hk, hstate, hcontainers, ?_⟩
      rw [hupdate, Function.update_self]

/-- A deletion which succeeds validated the fence, and recorded it if that was needed. -/
theorem validated_of_ok {repeated : Host}
    (h : host.run specHash ⟨.ensureAbsent command, listing, outcomes, crash⟩ = .ok () repeated) :
    ∃ toRecord, (host.tombstones command.fence.workloadId).validateAbsent listing command.fence
      command.specHash = .ok toRecord ∧
      (toRecord = true → (host.changes listing command).2 = .ok ()) := by
  have hrun := Command.ensureAbsent_run listing crash command { host with outcomes }
  rw [show Command.ensureAbsent listing crash command { host with outcomes } = .ok () repeated
    from h] at hrun
  cases hrun with
  | unrecorded _ hvalidate hkeeps => exact ⟨false, hvalidate, fun h => nomatch h⟩
  | recorded _ hadmits hchanges hupdate => exact ⟨true, hadmits.validates, fun _ => hchanges⟩

theorem recovers_iff (hsound : (host.tombstones command.fence.workloadId).Sound) {k : ℕ}
    (hcrash : crash = some k)
    (h : host.run specHash ⟨.ensureAbsent command, listing, outcomes, crash⟩ =
      .error .crashed crashed) :
    Recovers specHash host crashed command ↔
      CrashSpares (host.tombstones command.fence.workloadId) command.fence command.specHash k := by
  obtain ⟨k', state, hadmits, hk, hstate, hcontainers, hdisk⟩ := crashed_cases h
  obtain rfl := Option.some.inj (hk.symm.trans hcrash)
  have hbefore := Directory.Recordable.of_validateAbsent hsound hadmits.validates
  rw [← recovered_iff (record_recording _ _ _ _) hbefore hstate]
  constructor
  · rintro ⟨hreadable, hrepeats⟩
    refine ⟨fun listing => hdisk ▸ hreadable listing, fun listing => ?_⟩
    obtain ⟨repeated, hrepeated⟩ := hrepeats listing
    obtain ⟨toRecord, hvalidate, hrecord⟩ := validated_of_ok hrepeated
    rw [Host.changes, hdisk] at hrecord
    exact ⟨toRecord, hdisk ▸ hvalidate, hrecord⟩
  · rintro ⟨hreadable, hrepeatable⟩
    refine ⟨fun listing => ?_, fun listing => ?_⟩
    · rw [Host.latest, hdisk]
      exact hreadable listing
    · obtain ⟨toRecord, hvalidate, hrecord⟩ := hrepeatable listing
      have hchecks : (crashed.workloadContainers command.fence.workloadId).forM
          (DockerRuntime.checkAbsent command) = .ok () := by
        rw [workloadContainers, hcontainers]
        exact hadmits.checks
      rw [← hdisk] at hvalidate hrecord
      exact Command.ensureAbsent_quiet { crashed with outcomes := [] } rfl hvalidate
        hchecks hrecord

end Host

end Recovery

namespace Host

/-- A host whose agent has done nothing yet. -/
def fresh (platform : Platform) (maxNetworkEndpoints : ℕ) : Host :=
  ⟨platform, maxNetworkEndpoints, [], 0, [], [], fun _ => none⟩

/-- No command of another assignment or of a deleted generation makes a call to the daemon. -/
def Blocks (specHash : WorkloadSpec → String) (host : Host) (deleted : WorkloadFence) : Prop :=
  ∀ (command : EnsureWorkload) (listing : Listing) (outcomes : List CallOutcome) (crash : Option ℕ),
    command.fence.workloadId = deleted.workloadId →
    command.fence.assignmentId ≠ deleted.assignmentId ∨
      command.fence.generation ≤ deleted.generation →
    (host.step specHash ⟨.ensureWorkload command, listing, outcomes, crash⟩).calls = host.calls ∧
      (host.step specHash ⟨.ensureWorkload command, listing, outcomes, crash⟩).containers =
        host.containers

/-- The latest generation on the disk does not decrease, in any order of the directory. -/
def NotDecreased (w : ℕ) (host later : Host) : Prop :=
  ∀ (listing listing' : Listing) (tombstone : Tombstone) (result : Option Tombstone),
    host.latest listing w = .ok (some tombstone) → later.latest listing' w = .ok result →
    ∃ tombstone', result = some tombstone' ∧ tombstone.generation ≤ tombstone'.generation

/-- A completed deletion keeps every stale command from the daemon, and the latest generation
does not decrease.  As long as the crashes spare the fence, every crash can be recovered from,
and a crash can be recovered from exactly when it spares the fence. -/
theorem deletion_fence (specHash : WorkloadSpec → String) (w : ℕ) :
    (∀ (host deleted later : Host) (absent : EnsureAbsent) (listing : Listing)
        (outcomes : List CallOutcome) (crash : Option ℕ) (attempts : List Attempt),
      absent.fence.workloadId = w →
      (∀ tombstone, host.latest listing w = .ok (some tombstone) →
        tombstone.assignmentId = absent.fence.assignmentId ∧
          tombstone.generation ≤ absent.fence.generation) →
      host.run specHash ⟨.ensureAbsent absent, listing, outcomes, crash⟩ = .ok () deleted →
      Runs specHash deleted attempts later → Blocks specHash later absent.fence) ∧
    (∀ (host later : Host) (attempts : List Attempt), Runs specHash host attempts later →
      NotDecreased w host later) ∧
    ∀ (host later : Host) (attempts : List Attempt), (host.tombstones w).Sound →
      SparingRuns specHash w host attempts later →
      ∀ (command : EnsureAbsent) (listing : Listing) (outcomes : List CallOutcome)
        (crash : Option ℕ) (crashed : Host), command.fence.workloadId = w →
        later.run specHash ⟨.ensureAbsent command, listing, outcomes, crash⟩ =
          .error .crashed crashed →
        (Spares w later ⟨.ensureAbsent command, listing, outcomes, crash⟩ →
          Recovers specHash later crashed command) ∧
        ∀ k, crash = some k → (Recovers specHash later crashed command ↔
          CrashSpares (later.tombstones w) command.fence command.specHash k) := by
  refine ⟨?_, ?_, ?_⟩
  · rintro host deleted later absent listing outcomes crash attempts rfl hlatest hdeleted hruns
      command listing' outcomes' crash' hw hstale
    obtain ⟨file, hfile, hname⟩ := exists_file_of_deleted hlatest hdeleted
    obtain ⟨hgeneration, hassignment⟩ := TombstoneFile.name_eq hname
    obtain ⟨file', hfile', hassignment', hle⟩ := runs_advances hruns file hfile
    have hstale' : command.fence.assignmentId ≠ file'.assignmentId ∨
        command.fence.generation ≤ file'.generation := by
      rw [hassignment', hassignment]
      exact hstale.imp_right fun h => h.trans (hgeneration.symm.trans_le hle)
    rw [step_stale (hw ▸ hfile') hstale']
    exact ⟨rfl, rfl⟩
  · intro host later attempts hruns listing listing' tombstone result hbefore hafter
    exact latest_mono (runs_advances hruns) hbefore hafter
  · rintro host later attempts hsound hruns command listing outcomes crash crashed rfl hcrashed
    have hsound := runs_sound hruns hsound
    refine ⟨fun hspares => ?_, fun k hk => recovers_iff hsound hk hcrashed⟩
    obtain ⟨k, _, _, hk, _⟩ := crashed_cases hcrashed
    exact (recovers_iff hsound hk hcrashed).mpr ((hspares command rfl rfl).2 k hk)

/-- The deletion of a workload of which a fresh host knows nothing. -/
def firstAbsent : EnsureAbsent := ⟨⟨1, 2, 4⟩, String.ofList (List.replicate 64 'a')⟩

def firstDeletion (crash : Option ℕ) : Attempt :=
  ⟨.ensureAbsent firstAbsent, .written, [], crash⟩

def firstHost : Host := fresh ⟨.linux, "amd64"⟩ 8

/-- A deletion which completes, and one which crashes when its hash is written in full. -/
theorem deletion_fence_written :
    Blocks (fun _ => "") (firstHost.step (fun _ => "") (firstDeletion none)) firstAbsent.fence ∧
      NotDecreased 1 firstHost (firstHost.step (fun _ => "") (firstDeletion none)) ∧
      Recovers (fun _ => "") firstHost (firstHost.step (fun _ => "") (firstDeletion (some 66)))
        firstAbsent := by
  obtain ⟨hblocks, hlatest, hrecovers⟩ := deletion_fence (fun _ => "") 1
  have hsound : (firstHost.tombstones 1).Sound := by
    constructor <;> simp [firstHost, fresh, Directory.files]
  refine ⟨?_, ?_, ?_⟩
  · refine hblocks firstHost _ _ firstAbsent .written [] none [] rfl ?_ rfl (.nil _)
    intro tombstone h
    cases h
  · exact hlatest firstHost _ [firstDeletion none] (.cons rfl (.nil _))
  · refine (hrecovers firstHost firstHost [] hsound (.nil _) firstAbsent .written [] (some 66) _ rfl
      rfl).1 ?_
    intro command hcommand _
    obtain rfl := FenceCommand.ensureAbsent.inj hcommand
    refine ⟨by decide +kernel, fun k hk => ?_⟩
    obtain rfl := Option.some.inj hk
    exact .inr (.inr (by decide +kernel))

/-- A crash right after the creation of the file leaves a fence which cannot be read. -/
theorem deletion_fence_torn :
    firstHost.run (fun _ => "") (firstDeletion (some 2)) =
        .error .crashed (firstHost.step (fun _ => "") (firstDeletion (some 2))) ∧
      ¬Recovers (fun _ => "") firstHost (firstHost.step (fun _ => "") (firstDeletion (some 2)))
        firstAbsent := by
  refine ⟨rfl, fun hrecovers => ?_⟩
  have hlatest : (firstHost.step (fun _ => "") (firstDeletion (some 2))).latest .written 1 =
      .error invalidTombstone := by decide +kernel
  rcases hrecovers.readable .written with h | h
  · cases hlatest.symm.trans h
  · cases hlatest.symm.trans h

end Host

end Agent

end Rsctf
