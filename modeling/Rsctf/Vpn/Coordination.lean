import Mathlib.Algebra.Order.Ring.Int
import Rsctf.Data.Locks
import Rsctf.Data.Path

/-!
# Requests and acknowledgements of network reconciliation

A request advances a durable generation after its policy change has committed.  A pass of
the network owner takes a snapshot of the requested generation, loads the desired state,
brings the kernel to it, and acknowledges the generation of its snapshot.  A caller waits
until its generation is acknowledged.

Processes, their tasks and their leases come and go in any order; a pass may fail or crash
at any of its steps.  The desired state is known by its fingerprint.
-/

namespace Rsctf

namespace Vpn

/-- The singleton row of the reconcile state. -/
structure Cursor where
  requestedGeneration : ℤ
  appliedGeneration : ℤ
deriving DecidableEq, Repr

namespace Cursor

def pendingSnapshot (cursor : Cursor) : Option ℤ :=
  if cursor.appliedGeneration < cursor.requestedGeneration then some cursor.requestedGeneration
  else none

/-- Insert the row, or advance its requested generation. -/
def request (cursor : Option Cursor) : Cursor :=
  match cursor with
  | none => ⟨1, 0⟩
  | some cursor => { cursor with requestedGeneration := cursor.requestedGeneration + 1 }

/-- Acknowledge a generation which has been requested. -/
def acknowledge (cursor : Cursor) (generation : ℤ) : Option Cursor :=
  if generation ≤ cursor.requestedGeneration then
    some { cursor with appliedGeneration := max cursor.appliedGeneration generation }
  else none

end Cursor

def ownerReconcileRequired (pendingGeneration : Option ℤ) (force : Bool) : Bool :=
  force || pendingGeneration.isSome

/-- Where a pass stands.  It remembers whether its process held the lease when it began,
its snapshot, when it loaded the desired state, and whether it changed the kernel. -/
inductive Phase (φ : Type)
  | idle
  | entered (leased : Bool)
  | guarded (leased : Bool)
  | locked (leased : Bool)
  | pending (leased : Bool) (generation : Option ℤ)
  | loaded (leased : Bool) (generation : Option ℤ) (loadedAt : ℕ) (desired : φ) (wasDirty : Bool)
  | completed (leased : Bool) (generation : Option ℤ) (loadedAt : ℕ) (desired : φ)
      (applied : Bool)
deriving DecidableEq

/-- What is remembered of an acknowledgement: the kernel of its process has been brought to
`kernel`, by this pass if it `applied` and else by an earlier one. -/
structure Acknowledgement (φ : Type) where
  process : ℕ
  generation : ℤ
  loadedAt : ℕ
  desired : φ
  kernel : Option φ
  applied : Bool
  leasedAtStart : Bool
  leasedAtEnd : Bool
deriving DecidableEq

/-- The cursor, what each process keeps, and the passes.  `clock` counts the steps;
`committed` has the step of every request and `acknowledged` every acknowledgement. -/
structure Network (φ : Type) where
  clock : ℕ
  cursor : Option Cursor
  leases : ℕ → Bool
  dirty : ℕ → Bool
  appliedState : ℕ → Option φ
  kernel : ℕ → Option φ
  syncLocks : Locks ℕ
  kernelLock : Locks Unit
  phases : ℕ → Phase φ
  committed : List (ℤ × ℕ)
  acknowledged : List (Acknowledgement φ)

/-- What happens.  A pass is known by its number. -/
inductive Event (φ : Type)
  | request
  | lease (process : ℕ) (held : Bool)
  | markDirty (process : ℕ)
  | begin (pass : ℕ)
  | lockProcess (pass : ℕ)
  | lockKernel (pass : ℕ)
  | snapshot (pass : ℕ) (force : Bool)
  | load (pass : ℕ) (desired : φ)
  | skip (pass : ℕ) (firewallInstalled : Bool)
  | apply (pass : ℕ)
  | acknowledge (pass : ℕ)
  | fail (pass : ℕ)
  | crash (process : ℕ)

namespace Network

variable {φ : Type} [DecidableEq φ] (process : ℕ → ℕ)

def setPhase (s : Network φ) (pass : ℕ) (phase : Phase φ) : Network φ :=
  { s with phases := Function.update s.phases pass phase }

/-- The pass ends and gives back its locks. -/
def finish (s : Network φ) (pass : ℕ) : Network φ :=
  { s.setPhase pass .idle with
    syncLocks := s.syncLocks.release pass
    kernelLock := s.kernelLock.release pass }

/-- The kernel of a process is at the desired state of a pass. -/
def complete (s : Network φ) (pass : ℕ) (leased : Bool) (generation : Option ℤ) (loadedAt : ℕ)
    (desired : φ) (applied : Bool) : Network φ :=
  { s.setPhase pass (.completed leased generation loadedAt desired applied) with
    dirty := Function.update s.dirty (process pass) false
    appliedState := Function.update s.appliedState (process pass) (some desired)
    kernel := Function.update s.kernel (process pass) (some desired) }

def acknowledge (s : Network φ) (pass : ℕ) (leased : Bool) (generation : ℤ) (loadedAt : ℕ)
    (desired : φ) (applied : Bool) (cursor : Cursor) : Network φ :=
  { s.finish pass with
    cursor := some cursor
    acknowledged := s.acknowledged ++ [⟨process pass, generation, loadedAt, desired,
      s.kernel (process pass), applied, leased, s.leases (process pass)⟩] }

/-- A process ends, with all its passes and whatever it had applied. -/
def crash (s : Network φ) (p : ℕ) : Network φ :=
  { s with
    leases := Function.update s.leases p false
    dirty := Function.update s.dirty p false
    appliedState := Function.update s.appliedState p none
    kernel := Function.update s.kernel p none
    syncLocks := fun q => if q = p then none else s.syncLocks q
    kernelLock := fun u => (s.kernelLock u).filter fun pass => process pass ≠ p
    phases := fun pass => if process pass = p then .idle else s.phases pass }

/-- One event, before the clock is advanced. -/
def next (s : Network φ) (e : Event φ) : Option (Network φ) :=
  match e with
  | .request =>
      let cursor := Cursor.request s.cursor
      some { s with
        cursor := some cursor
        committed := (cursor.requestedGeneration, s.clock) :: s.committed }
  | .lease p held => some { s with leases := Function.update s.leases p held }
  | .markDirty p => some { s with dirty := Function.update s.dirty p true }
  | .begin pass =>
    match s.phases pass with
    | .idle =>
      if s.leases (process pass) then some (s.setPhase pass (.entered (s.leases (process pass))))
      else none
    | _ => none
  | .lockProcess pass =>
    match s.phases pass with
    | .entered leased =>
      if s.syncLocks (process pass) = none then
        some { s.setPhase pass (.guarded leased) with
          syncLocks := s.syncLocks.acquire pass [process pass] }
      else none
    | _ => none
  | .lockKernel pass =>
    match s.phases pass with
    | .guarded leased =>
      if s.kernelLock () = none then
        some { s.setPhase pass (.locked leased) with
          kernelLock := s.kernelLock.acquire pass [()] }
      else none
    | _ => none
  | .snapshot pass force =>
    match s.phases pass, s.cursor with
    | .locked leased, some cursor =>
      if ownerReconcileRequired cursor.pendingSnapshot force then
        some (s.setPhase pass (.pending leased cursor.pendingSnapshot))
      else some (s.finish pass)
    | _, _ => none
  | .load pass desired =>
    match s.phases pass with
    | .pending leased generation =>
      some { s.setPhase pass (.loaded leased generation s.clock desired (s.dirty (process pass)))
        with dirty := Function.update s.dirty (process pass) true }
    | _ => none
  | .skip pass firewallInstalled =>
    match s.phases pass with
    | .loaded leased generation loadedAt desired wasDirty =>
      if firewallInstalled ∧ wasDirty = false ∧ s.appliedState (process pass) = some desired then
        some { s.setPhase pass (.completed leased generation loadedAt desired false) with
          dirty := Function.update s.dirty (process pass) false }
      else none
    | _ => none
  | .apply pass =>
    match s.phases pass with
    | .loaded leased generation loadedAt desired _ =>
        some (s.complete process pass leased generation loadedAt desired true)
    | _ => none
  | .acknowledge pass =>
    match s.phases pass with
    | .completed leased (some generation) loadedAt desired applied => do
      let cursor ← s.cursor
      let cursor ← cursor.acknowledge generation
      return s.acknowledge process pass leased generation loadedAt desired applied cursor
    | .completed _ none _ _ _ => some (s.finish pass)
    | _ => none
  | .fail pass =>
    match s.phases pass with
    | .idle => none
    | .loaded _ _ _ _ _ =>
        some { s.finish pass with kernel := Function.update s.kernel (process pass) none }
    | _ => some (s.finish pass)
  | .crash p => some (s.crash process p)

def step (s : Network φ) (e : Event φ) : Option (Network φ) :=
  (s.next process e).map fun t => { t with clock := s.clock + 1 }

def Step (s : Network φ) (e : Event φ) (t : Network φ) : Prop := s.step process e = some t

end Network

end Vpn

end Rsctf
