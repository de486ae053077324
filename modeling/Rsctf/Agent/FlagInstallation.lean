import Rsctf.Agent.Docker

/-!
# Installing flags

A successful write should leave its flag in every replica of its target, and it should not
replace a flag with a later sequence.  The agent decides by the sequence which it recorded;
the files are in the containers.  Here is exactly when the two agree.
-/

namespace Rsctf

namespace Agent

open DockerRuntime

def Container.carries (container : Container) (fence : WorkloadFence) (service : String) : Prop :=
  container.fence = fence ∧ container.service = service

def Container.holds (container : Container) (path value : String) : Prop :=
  (container.files path).map (·.value) = some value

namespace WriteFlag

variable (command : WriteFlag) (uploads : ℕ → UploadOutcome) (runtime : DockerRuntime)

def targets (container : Container) : Prop :=
  container.carries command.fence command.target.service

def reached (id : ℕ) : Prop :=
  id ∈ (runtime.matchingContainerIds command.fence command.target.service).map (·.2)

/-- What a write promises: when it succeeds, every replica of its target holds its flag, and
whether it succeeds or not, no replica loses the flag of a later sequence. -/
structure Installed : Prop where
  everywhere : (runtime.writeFlag command uploads).1 = .ok () →
    ∀ container ∈ (runtime.writeFlag command uploads).2.containers,
      command.targets container → container.holds command.target.path command.value
  keepsLater : List.Forall₂ (fun before after : Container => ∀ file,
      before.files command.target.path = some file → command.flagSequence < file.sequence →
      after.files command.target.path = some file)
    runtime.containers (runtime.writeFlag command uploads).2.containers

/-- The write is newer than the recorded sequence, and its path has a directory. -/
def Uploads : Prop :=
  (∀ current, runtime.flagSequences (sequenceKey command) = some current →
      current < command.flagSequence) ∧
    ∃ parts, splitGuestPath command.target.path runtime.platform.operatingSystem = .ok parts

/-- The state of the replicas in which a write keeps its promise.  A repeated sequence finds
its flag in every replica of its target; a new sequence finds no later one where its upload
gets through, and when it gets through everywhere, the replicas which are not ready have the
flag already. -/
structure Sound : Prop where
  repeated : runtime.flagSequences (sequenceKey command) = some command.flagSequence →
    ∀ container ∈ runtime.containers, command.targets container →
      container.holds command.target.path command.value
  later : command.Uploads runtime → ∀ container ∈ runtime.containers,
    command.reached runtime container.id → uploads container.id ≠ .failed →
    ∀ file, container.files command.target.path = some file → file.sequence ≤ command.flagSequence
  unready : command.Uploads runtime → (∃ id, command.reached runtime id) →
    (∀ id, command.reached runtime id → uploads id = .verified) →
    ∀ container ∈ runtime.containers, command.targets container →
      ¬command.reached runtime container.id → container.holds command.target.path command.value

end WriteFlag

section Upload

variable {command : WriteFlag} {uploads : ℕ → UploadOutcome}

end Upload

section WriteFlag

variable {command : WriteFlag} {uploads : ℕ → UploadOutcome} {runtime : DockerRuntime}

end WriteFlag

section Run

def Event.Installed (runtime : DockerRuntime) : Event → Prop
  | .writeFlag command uploads => command.Installed uploads runtime
  | _ => True

def Event.Sound (runtime : DockerRuntime) : Event → Prop
  | .writeFlag command uploads => command.Sound uploads runtime
  | _ => True

end Run

end Agent

end Rsctf
