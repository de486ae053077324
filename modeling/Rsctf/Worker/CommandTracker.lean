import Mathlib.Data.List.Basic
import Rsctf.Data.Indexed
import Rsctf.Data.Path
import Rsctf.Worker.Inventory
import Rsctf.Worker.InventoryCollection

/-!
# The commands in flight

A session remembers the lifecycle commands which its worker has not answered, by their ids
and by their workloads.  A command is entered before it is queued, and taken out again when
the queue refuses it; the worker's answers, its reports and the deadline take it out as well.

In every run the two indexes are inverse to each other, and each failed result which answers
a remembered command is turned into one status, which carries what that command was about.
-/

namespace Rsctf

namespace Worker

namespace Commands

structure EnsureWorkload where
  commandId : Uuid
  fence : WorkloadFence
  specHash : String
  timeoutMs : ℕ
deriving DecidableEq, Repr

inductive AckDisposition
  | accepted
  | busy
  | stale
  | rejected
deriving DecidableEq, Repr

structure CommandAck where
  commandId : Uuid
  disposition : AckDisposition
deriving DecidableEq, Repr

/-- A result; the error is the message of the error which the worker sends, if it does. -/
structure CommandResult where
  commandId : Uuid
  success : Bool
  error : Option String
deriving DecidableEq, Repr

/-- What is seen of a control message; the others are not looked into. -/
inductive ControlMessage
  | inventoryRequest
  | ensureWorkload (command : EnsureWorkload)
  | ensureAbsent (command : EnsureAbsent)
  | writeFlag
  | commandAck (ack : CommandAck)
  | commandResult (result : CommandResult)
  | other
deriving DecidableEq, Repr

structure ControlEnvelope where
  messageId : Uuid
  replyTo : Option Uuid
  body : ControlMessage
deriving DecidableEq, Repr

structure WorkloadStatus where
  fence : WorkloadFence
  specHash : String
  state : ObservedWorkloadState
  replicas : List ReplicaStatus
  detail : Option String
deriving DecidableEq, Repr

structure InFlightCommand where
  commandId : Uuid
  messageId : Uuid
  fence : WorkloadFence
  specHash : String
  deadline : ℕ
deriving DecidableEq, Repr

structure CommandTracker where
  byId : Std.ExtHashMap Uuid InFlightCommand
  byWorkload : Std.ExtHashMap Uuid Uuid

/-- The deadline is ten seconds after the time which the operation may take. -/
def lifecycleCommand (now : ℕ) (messageId : Uuid) : ControlMessage → Option InFlightCommand
  | .ensureWorkload command => some ⟨command.commandId, messageId, command.fence, command.specHash,
      now + max 1 (min command.timeoutMs 300000) + 10000⟩
  | .ensureAbsent command => some ⟨command.commandId, messageId, command.fence, command.specHash,
      now + max 1 (min command.timeoutMs 300000) + 10000⟩
  | _ => none

/-- The messages which a server may send. -/
def isServerMessage : ControlMessage → Bool
  | .inventoryRequest | .ensureWorkload _ | .ensureAbsent _ | .writeFlag => true
  | _ => false

section Tracker

variable (tracker : CommandTracker)

def removeTrackedCommand (command : InFlightCommand) : CommandTracker where
  byId := tracker.byId.erase command.commandId
  byWorkload :=
    if tracker.byId.contains command.commandId ∧
        tracker.byWorkload[command.fence.workloadId]? = some command.commandId then
      tracker.byWorkload.erase command.fence.workloadId
    else tracker.byWorkload

def pruneExpiredCommands (now : ℕ) : CommandTracker :=
  let active := tracker.byId.filter fun _ command => now < command.deadline
  ⟨active, tracker.byWorkload.filter fun _ commandId => active.contains commandId⟩

/-- The first section of a send: a command is entered unless its workload has one in flight,
or there are too many. -/
def trackCommand (config : RegistryConfig) (now : ℕ) (command : InFlightCommand) :
    Except RegistryError Unit × CommandTracker :=
  let pruned := pruneExpiredCommands tracker now
  let existing := pruned.byWorkload[command.fence.workloadId]?
  if existing.any pruned.byId.contains then (.error .busy, pruned)
  else
    let cleared : CommandTracker := existing.elim pruned fun existingId =>
      ⟨pruned.byId.erase existingId, pruned.byWorkload.erase command.fence.workloadId⟩
    if config.maxInFlightCommandsPerWorker ≤ cleared.byId.size then (.error .busy, cleared)
    else (.ok (), ⟨cleared.byId.insert command.commandId command,
      cleared.byWorkload.insert command.fence.workloadId command.commandId⟩)

/-- The status which a failed result is turned into. -/
def failedStatus (command : InFlightCommand) (error : Option String) : WorkloadStatus where
  fence := command.fence
  specHash := command.specHash
  state := .failed
  replicas := []
  detail := some (String.ofList ((error.getD "worker command failed").toList.take 4096))

/-- Whether feedback ends its command, and the error of a failed result. -/
def feedback : ControlMessage → Option (Uuid × Bool × Option (Option String))
  | .commandAck ack => some (ack.commandId, decide (ack.disposition ≠ .accepted), none)
  | .commandResult result =>
    some (result.commandId, true, if result.success then none else some result.error)
  | _ => none

def handleCommandFeedback (envelope : ControlEnvelope) :
    Except RegistryError (Option WorkloadStatus) × CommandTracker :=
  match feedback envelope.body with
  | none => (.ok none, tracker)
  | some (commandId, remove, failure) =>
    match tracker.byId[commandId]? with
    | none => (.ok none, tracker)
    | some command =>
      if envelope.replyTo ≠ some command.messageId then
        (.error (.protocol "worker command feedback does not match its request"), tracker)
      else
        (.ok (failure.map (failedStatus command)),
          if remove then removeTrackedCommand tracker command else tracker)

def observeWorkloadStatus (status : WorkloadStatus) : CommandTracker :=
  match tracker.byWorkload[status.fence.workloadId]? with
  | none => tracker
  | some commandId =>
    match tracker.byId[commandId]? with
    | none => tracker
    | some command =>
      if command.fence = status.fence ∧ command.specHash = status.specHash then
        removeTrackedCommand tracker command
      else tracker

end Tracker

/-- A send whose command is entered, and one which the queue has refused. -/
inductive Sending
  | tracked (command : InFlightCommand)
  | unqueued (command : InFlightCommand)

def Sending.command : Sending → InFlightCommand
  | .tracked command => command
  | .unqueued command => command

structure Session where
  now : ℕ
  tracker : CommandTracker
  sending : ℕ → Option Sending
  /-- The commands which have been entered so far. -/
  issued : List InFlightCommand

def Session.init : Session := ⟨0, ⟨∅, ∅⟩, fun _ => none, []⟩

inductive Event
  | tick
  | sent (message : ControlMessage) (result : Except RegistryError Unit)
  | refused (command : InFlightCommand)
  | tracked (command : InFlightCommand)
  | queued (command : InFlightCommand)
  | unqueued (command : InFlightCommand)
  | rolledBack (command : InFlightCommand)
  | feedback (envelope : ControlEnvelope) (result : Except RegistryError (Option WorkloadStatus))
  | observed (status : WorkloadStatus)
deriving DecidableEq

/-- The sections of all calls, in any order.  A send enters its command, asks the queue, and
takes the command out again when the queue is full or closed. -/
inductive Step (config : RegistryConfig) : Session → Event → Session → Prop
  | tick {s} (elapsed : ℕ) : Step config s .tick { s with now := s.now + elapsed }
  | send {s} (message : ControlMessage) (result : Except RegistryError Unit)
      (huntracked : lifecycleCommand s.now 0 message = none)
      (hserver : isServerMessage message = false → result =
        .error (.protocol "server attempted to send a worker-only control message")) :
      Step config s (.sent message result) s
  | refuse {s message messageId command error tracker}
      (hcommand : lifecycleCommand s.now messageId message = some command)
      (htrack : trackCommand s.tracker config s.now command = (.error error, tracker)) :
      Step config s (.refused command) { s with tracker := tracker }
  | track {s process message messageId command tracker} (hfree : s.sending process = none)
      (hcommand : lifecycleCommand s.now messageId message = some command)
      (hfresh : ∀ earlier ∈ s.issued, earlier.commandId ≠ command.commandId)
      (htrack : trackCommand s.tracker config s.now command = (.ok (), tracker)) :
      Step config s (.tracked command)
        { s with
          tracker := tracker
          sending := Function.update s.sending process (some (.tracked command))
          issued := command :: s.issued }
  | queue {s process command} (hsending : s.sending process = some (.tracked command)) :
      Step config s (.queued command)
        { s with sending := Function.update s.sending process none }
  | unqueue {s process command} (hsending : s.sending process = some (.tracked command)) :
      Step config s (.unqueued command)
        { s with sending := Function.update s.sending process (some (.unqueued command)) }
  | rollBack {s process command} (hsending : s.sending process = some (.unqueued command)) :
      Step config s (.rolledBack command)
        { s with
          tracker := removeTrackedCommand s.tracker command
          sending := Function.update s.sending process none }
  | feedback {s result tracker} (envelope : ControlEnvelope)
      (hfeedback : handleCommandFeedback s.tracker envelope = (result, tracker)) :
      Step config s (.feedback envelope result) { s with tracker := tracker }
  | observe {s} (status : WorkloadStatus) :
      Step config s (.observed status)
        { s with tracker := observeWorkloadStatus s.tracker status }

section Tracker

variable {config : RegistryConfig} {tracker tracker' : CommandTracker}
  {command : InFlightCommand} {now : ℕ} {id : Uuid}

def InFlightCommand.workload (command : InFlightCommand) : Uuid := command.fence.workloadId

/-- The two indexes agree, every command is kept under its id, and there are not too many. -/
structure CommandTracker.Kept (config : RegistryConfig) (tracker : CommandTracker) : Prop where
  indexed : Indexed InFlightCommand.workload tracker.byId tracker.byWorkload
  keyed : ∀ (id : Uuid) command, tracker.byId[id]? = some command → command.commandId = id
  bounded : tracker.byId.size ≤ config.maxInFlightCommandsPerWorker

/-- The commands of the second tracker are commands of the first one. -/
def CommandTracker.Within (tracker' tracker : CommandTracker) : Prop :=
  ∀ (id : Uuid) command, tracker'.byId[id]? = some command → tracker.byId[id]? = some command

theorem CommandTracker.Within.refl (tracker : CommandTracker) : tracker.Within tracker :=
  fun _ _ h => h

theorem kept_empty : CommandTracker.Kept config ⟨∅, ∅⟩ where
  indexed := .empty
  keyed := fun id command h => by simp at h
  bounded := by simp

theorem within_remove (tracker : CommandTracker) (command : InFlightCommand) :
    (removeTrackedCommand tracker command).Within tracker :=
  fun _ _ h => (Indexed.getElem?_erase_eq_some.mp h).2

theorem getElem?_remove_self (tracker : CommandTracker) (command : InFlightCommand) :
    (removeTrackedCommand tracker command).byId[command.commandId]? = none :=
  Std.ExtHashMap.getElem?_erase_self

theorem kept_remove (h : tracker.Kept config)
    (hsame : ∀ other, tracker.byId[command.commandId]? = some other → other = command) :
    (removeTrackedCommand tracker command).Kept config where
  indexed := by
    cases hget : tracker.byId[command.commandId]? with
    | none =>
        -- the command has been taken out before
        have hcontains : tracker.byId.contains command.commandId = false := by
          rw [Std.ExtHashMap.contains_eq_isSome_getElem?, hget]
          rfl
        rw [removeTrackedCommand, Indexed.erase_eq_self hget,
          if_neg fun hcase => Bool.false_ne_true (hcontains.symm.trans hcase.1)]
        exact h.indexed
    | some other =>
        obtain rfl := hsame other hget
        have hcontains : tracker.byId.contains other.commandId = true := by
          rw [Std.ExtHashMap.contains_eq_isSome_getElem?, hget]
          rfl
        rw [removeTrackedCommand, if_pos ⟨hcontains, h.indexed.byOwner_eq hget⟩]
        exact h.indexed.erase hget
  keyed := fun id other hget => h.keyed id other (within_remove tracker command id other hget)
  bounded := Std.ExtHashMap.size_erase_le.trans h.bounded

theorem within_prune (tracker : CommandTracker) (now : ℕ) :
    (pruneExpiredCommands tracker now).Within tracker :=
  fun _ _ h => (Indexed.getElem?_filter_eq_some.mp h).1

theorem kept_prune (h : tracker.Kept config) (now : ℕ) :
    (pruneExpiredCommands tracker now).Kept config where
  indexed := h.indexed.filter _
  keyed := fun id command hget => h.keyed id command (within_prune tracker now id command hget)
  bounded := Std.ExtHashMap.size_filter_le_size.trans h.bounded

/-- What the first section of a send leads to.  A workload in the index has a command in
flight, so that no entry has to be cleared. -/
theorem trackCommand_cases (h : tracker.Kept config) (now : ℕ) (command : InFlightCommand) :
    trackCommand tracker config now command = (.error .busy, pruneExpiredCommands tracker now) ∨
    (pruneExpiredCommands tracker now).byWorkload[command.workload]? = none ∧
      (pruneExpiredCommands tracker now).byId.size < config.maxInFlightCommandsPerWorker ∧
      trackCommand tracker config now command = (.ok (),
        ⟨(pruneExpiredCommands tracker now).byId.insert command.commandId command,
          (pruneExpiredCommands tracker now).byWorkload.insert command.workload
            command.commandId⟩) := by
  have hpruned := kept_prune h now
  cases hworkload : (pruneExpiredCommands tracker now).byWorkload[command.workload]? with
  | some existingId =>
      obtain ⟨existing, hexisting, -⟩ := (hpruned.indexed.inverse _ _).mp hworkload
      have hcontains : (pruneExpiredCommands tracker now).byId.contains existingId = true := by
        rw [Std.ExtHashMap.contains_eq_isSome_getElem?, hexisting]
        rfl
      have hany : (pruneExpiredCommands tracker now).byWorkload[command.fence.workloadId]?.any
          (pruneExpiredCommands tracker now).byId.contains = true := by
        rw [show (pruneExpiredCommands tracker now).byWorkload[command.fence.workloadId]? = _
          from hworkload]
        exact hcontains
      exact .inl (if_pos hany)
  | none =>
      have hworkload' : (pruneExpiredCommands tracker now).byWorkload[command.fence.workloadId]? =
          none := hworkload
      by_cases hfull : config.maxInFlightCommandsPerWorker ≤
          (pruneExpiredCommands tracker now).byId.size
      · exact .inl (by simp [trackCommand, hworkload', hfull])
      · exact .inr ⟨rfl, not_le.mp hfull, by simp [trackCommand, hworkload', hfull]; rfl⟩

theorem kept_insert (h : tracker.Kept config)
    (hworkload : tracker.byWorkload[command.workload]? = none)
    (hfresh : tracker.byId[command.commandId]? = none)
    (hroom : tracker.byId.size < config.maxInFlightCommandsPerWorker) :
    CommandTracker.Kept config ⟨tracker.byId.insert command.commandId command,
      tracker.byWorkload.insert command.workload command.commandId⟩ where
  indexed := h.indexed.insert hfresh hworkload
  keyed := by
    intro id other hget
    rcases Indexed.getElem?_insert_eq_some.mp hget with ⟨rfl, rfl⟩ | ⟨-, hold⟩
    · rfl
    · exact h.keyed id other hold
  bounded := Std.ExtHashMap.size_insert_le.trans hroom

/-- Feedback leaves the tracker, or takes the command out which it answers. -/
theorem handleCommandFeedback_tracker (tracker : CommandTracker) (envelope : ControlEnvelope) :
    (handleCommandFeedback tracker envelope).2 = tracker ∨
      ∃ (id : Uuid) (command : InFlightCommand), tracker.byId[id]? = some command ∧
        (handleCommandFeedback tracker envelope).2 = removeTrackedCommand tracker command := by
  rw [handleCommandFeedback]
  split
  · exact .inl rfl
  · split
    · exact .inl rfl
    · next command hget =>
      split
      · exact .inl rfl
      · split
        · exact .inr ⟨_, command, hget, rfl⟩
        · exact .inl rfl

theorem observeWorkloadStatus_tracker (tracker : CommandTracker) (status : WorkloadStatus) :
    observeWorkloadStatus tracker status = tracker ∨
      ∃ (id : Uuid) (command : InFlightCommand), tracker.byId[id]? = some command ∧
        observeWorkloadStatus tracker status = removeTrackedCommand tracker command := by
  rw [observeWorkloadStatus]
  split
  · exact .inl rfl
  · split
    · exact .inl rfl
    · next command hget =>
      split
      · exact .inr ⟨_, command, hget, rfl⟩
      · exact .inl rfl

/-- Either way of taking a remembered command out keeps the tracker. -/
theorem kept_of_removed (h : tracker.Kept config) (hcase : tracker' = tracker ∨
    ∃ (id : Uuid) (command : InFlightCommand), tracker.byId[id]? = some command ∧
      tracker' = removeTrackedCommand tracker command) :
    tracker'.Kept config ∧ tracker'.Within tracker := by
  rcases hcase with rfl | ⟨id, command, hget, rfl⟩
  · exact ⟨h, .refl _⟩
  · refine ⟨kept_remove h fun other hother => ?_, within_remove tracker command⟩
    rw [h.keyed id command hget, hget] at hother
    exact (Option.some.inj hother).symm

end Tracker

section Feedback

variable {tracker : CommandTracker} {envelope : ControlEnvelope} {command : InFlightCommand}
  {id : Uuid} {error : Option String} {status : WorkloadStatus}

/-- The command and the error of a failed result. -/
def failedResult (envelope : ControlEnvelope) : Option (Uuid × Option String) :=
  match envelope.body with
  | .commandResult result => if result.success then none else some (result.commandId, result.error)
  | _ => none

theorem feedback_of_failedResult (h : failedResult envelope = some (id, error)) :
    feedback envelope.body = some (id, true, some error) := by
  rw [failedResult] at h
  split at h
  · next result hbody =>
    split at h
    · cases h
    · next hsuccess =>
      obtain ⟨rfl, rfl⟩ := Prod.mk.inj (Option.some.inj h)
      rw [hbody, feedback, if_neg hsuccess]
  · cases h

theorem failedResult_of_feedback {remove : Bool}
    (h : feedback envelope.body = some (id, remove, some error)) :
    failedResult envelope = some (id, error) := by
  unfold feedback at h
  split at h
  · cases h
  · next result hbody =>
    cases hsuccess : result.success with
    | true => simp [hsuccess] at h
    | false =>
        simp only [hsuccess, Bool.false_eq_true, if_false, Option.some.injEq, Prod.mk.injEq] at h
        obtain ⟨rfl, -, rfl⟩ := h
        simp [failedResult, hbody, hsuccess]
  · cases h

/-- A failed result which answers a remembered command. -/
theorem handleCommandFeedback_of_tracked (hresult : failedResult envelope = some (id, error))
    (hcommand : tracker.byId[id]? = some command)
    (hreply : envelope.replyTo = some command.messageId) :
    handleCommandFeedback tracker envelope =
      (.ok (some (failedStatus command error)), removeTrackedCommand tracker command) := by
  rw [handleCommandFeedback, feedback_of_failedResult hresult]
  simp [hcommand, hreply]

theorem handleCommandFeedback_of_untracked (hresult : failedResult envelope = some (id, error))
    (hcommand : tracker.byId[id]? = none) :
    handleCommandFeedback tracker envelope = (.ok none, tracker) := by
  rw [handleCommandFeedback, feedback_of_failedResult hresult]
  simp [hcommand]

/-- A status comes out of nothing else. -/
theorem tracked_of_handleCommandFeedback
    (h : (handleCommandFeedback tracker envelope).1 = .ok (some status)) :
    ∃ (id : Uuid) (command : InFlightCommand) (error : Option String),
      failedResult envelope = some (id, error) ∧ tracker.byId[id]? = some command ∧
        envelope.replyTo = some command.messageId ∧ status = failedStatus command error := by
  rw [handleCommandFeedback] at h
  split at h
  · cases h
  · next id remove failure hfeedback =>
    split at h
    · cases h
    · next command hcommand =>
      split at h
      · cases h
      · next hreply =>
        cases failure with
        | none => cases h
        | some error =>
            obtain rfl := Option.some.inj (Except.ok.inj h)
            exact ⟨id, command, error, failedResult_of_feedback hfeedback, hcommand,
              not_not.mp hreply, rfl⟩

end Feedback

section Runs

variable {config : RegistryConfig} {s t : Session} {event : Event} {trace : List Event}
  {command : InFlightCommand} {id : Uuid}

/-- The command has been taken out because its queueing failed, or because it failed. -/
def Gone (trace : List Event) (id : Uuid) : Prop :=
  (∃ command, .rolledBack command ∈ trace ∧ command.commandId = id) ∨
    ∃ envelope status error, .feedback envelope (.ok (some status)) ∈ trace ∧
      failedResult envelope = some (id, error)

/-- What is true in every state of a run; ids are not used again. -/
structure Sound (config : RegistryConfig) (trace : List Event) (s : Session) : Prop where
  kept : s.tracker.Kept config
  issued : ∀ (id : Uuid) command, s.tracker.byId[id]? = some command → command ∈ s.issued
  distinct : ∀ command ∈ s.issued, ∀ other ∈ s.issued,
    command.commandId = other.commandId → command = other
  sending : ∀ process sending, s.sending process = some sending → sending.command ∈ s.issued
  tracked : ∀ command ∈ s.issued, .tracked command ∈ trace
  gone : ∀ id, Gone trace id → s.tracker.byId[id]? = none ∧
    ∃ command ∈ s.issued, command.commandId = id

theorem Gone.append (h : Gone (trace ++ [event]) id) :
    Gone trace id ∨ (∃ command, event = .rolledBack command ∧ command.commandId = id) ∨
      ∃ envelope status error, event = .feedback envelope (.ok (some status)) ∧
        failedResult envelope = some (id, error) := by
  rcases h with ⟨command, hmem, hid⟩ | ⟨envelope, status, error, hmem, hresult⟩
  · rcases List.mem_append.mp hmem with hold | hnew
    · exact .inl (.inl ⟨command, hold, hid⟩)
    · exact .inr (.inl ⟨command, (List.mem_singleton.mp hnew).symm, hid⟩)
  · rcases List.mem_append.mp hmem with hold | hnew
    · exact .inl (.inr ⟨envelope, status, error, hold, hresult⟩)
    · exact .inr (.inr ⟨envelope, status, error, (List.mem_singleton.mp hnew).symm, hresult⟩)

theorem sound_init : Sound config [] Session.init where
  kept := kept_empty
  issued := fun id command h => by simp [Session.init] at h
  distinct := fun command h => nomatch h
  sending := fun process sending h => nomatch h
  tracked := fun command h => nomatch h
  gone := by
    rintro id (⟨command, hmem, -⟩ | ⟨envelope, status, error, hmem, -⟩) <;> cases hmem

/-- What is true of the sends before and of the new one. -/
theorem forall_update {P : Sending → Prop} {sending : ℕ → Option Sending} {process : ℕ}
    {new : Option Sending} (hold : ∀ process x, sending process = some x → P x)
    (hnew : ∀ x, new = some x → P x) (other : ℕ) (x : Sending)
    (hx : Function.update sending process new other = some x) : P x := by
  by_cases hother : other = process
  · rw [hother, Function.update_self] at hx
    exact hnew x hx
  · rw [Function.update_of_ne hother] at hx
    exact hold other x hx

namespace Sound

/-- A step which enters no command, and takes out what its event says. -/
theorem within (h : Sound config trace s) {tracker : CommandTracker} {now : ℕ}
    {sending : ℕ → Option Sending} (hkept : tracker.Kept config)
    (hwithin : tracker.Within s.tracker)
    (hsending : ∀ process x, sending process = some x → x.command ∈ s.issued)
    (hgone : ∀ id, Gone (trace ++ [event]) id → Gone trace id ∨ tracker.byId[id]? = none ∧
      ∃ command ∈ s.issued, command.commandId = id) :
    Sound config (trace ++ [event]) ⟨now, tracker, sending, s.issued⟩ where
  kept := hkept
  issued := fun id command hget => h.issued id command (hwithin id command hget)
  distinct := h.distinct
  sending := hsending
  tracked := fun command hcommand => List.mem_append_left _ (h.tracked command hcommand)
  gone := by
    intro id hid
    rcases hgone id hid with hold | hnew
    · obtain ⟨hnone, hissued⟩ := h.gone id hold
      refine ⟨Option.eq_none_iff_forall_ne_some.mpr fun command hget => ?_, hissued⟩
      have hget' := hwithin id command hget
      rw [hnone] at hget'
      cases hget'
    · exact hnew

/-- A command is entered under an id which has not been used. -/
theorem track (h : Sound config trace s) {process : ℕ} {tracker : CommandTracker}
    (hfresh : ∀ earlier ∈ s.issued, earlier.commandId ≠ command.commandId)
    (htrack : trackCommand s.tracker config s.now command = (.ok (), tracker)) :
    Sound config (trace ++ [.tracked command])
      ⟨s.now, tracker, Function.update s.sending process (some (.tracked command)),
        command :: s.issued⟩ := by
  have hunused : ∀ other, s.tracker.byId[command.commandId]? ≠ some other := by
    intro other hget
    exact hfresh other (h.issued _ _ hget) (h.kept.keyed _ _ hget)
  have hpruned : (pruneExpiredCommands s.tracker s.now).byId[command.commandId]? = none :=
    Option.eq_none_iff_forall_ne_some.mpr fun other hget =>
      hunused other (within_prune _ _ _ _ hget)
  rcases trackCommand_cases h.kept s.now command with hbusy | ⟨hworkload, hroom, htracked⟩
  · rw [hbusy] at htrack
    cases htrack
  · rw [htracked] at htrack
    obtain rfl := (Prod.mk.inj htrack).2
    constructor
    case kept => exact kept_insert (kept_prune h.kept s.now) hworkload hpruned hroom
    case issued =>
      intro id other hget
      rcases Indexed.getElem?_insert_eq_some.mp hget with ⟨-, rfl⟩ | ⟨-, hold⟩
      · exact List.mem_cons_self
      · exact List.mem_cons_of_mem _ (h.issued id other (within_prune _ _ _ _ hold))
    case distinct =>
      intro a ha b hb hid
      rcases List.mem_cons.mp ha with rfl | ha' <;> rcases List.mem_cons.mp hb with rfl | hb'
      · rfl
      · exact absurd hid.symm (hfresh b hb')
      · exact absurd hid (hfresh a ha')
      · exact h.distinct a ha' b hb' hid
    case sending =>
      refine forall_update (fun other x hx => List.mem_cons_of_mem _ (h.sending other x hx)) ?_
      intro x hx
      obtain rfl := Option.some.inj hx
      exact List.mem_cons_self
    case tracked =>
      intro other hother
      rcases List.mem_cons.mp hother with rfl | hold
      · exact List.mem_append_right _ List.mem_cons_self
      · exact List.mem_append_left _ (h.tracked other hold)
    case gone =>
      intro id hid
      rcases hid.append with hold | ⟨other, hevent, -⟩ | ⟨envelope, status, error, hevent, -⟩
      · obtain ⟨hnone, other, hissued, rfl⟩ := h.gone id hold
        refine ⟨Option.eq_none_iff_forall_ne_some.mpr fun found hget => ?_, other,
          List.mem_cons_of_mem _ hissued, rfl⟩
        rcases Indexed.getElem?_insert_eq_some.mp hget with ⟨heq, -⟩ | ⟨-, hget'⟩
        · exact hfresh other hissued heq
        · have hget'' := within_prune _ _ _ _ hget'
          rw [hnone] at hget''
          cases hget''
      · cases hevent
      · cases hevent

end Sound

def Event.settles : Event → Bool
  | .rolledBack _ | .feedback _ _ => true
  | _ => false

/-- An event after which the same commands are gone. -/
theorem gone_of_append (hevent : event.settles = false) (h : Gone (trace ++ [event]) id) :
    Gone trace id := by
  rcases h.append with hold | ⟨command, rfl, -⟩ | ⟨envelope, status, error, rfl, -⟩
  · exact hold
  · cases hevent
  · cases hevent

theorem Sound.rollBack (h : Sound config trace s) {process : ℕ}
    (hsending : s.sending process = some (.unqueued command)) :
    Sound config (trace ++ [.rolledBack command])
      ⟨s.now, removeTrackedCommand s.tracker command, Function.update s.sending process none,
        s.issued⟩ := by
  have hissued : command ∈ s.issued := h.sending process _ hsending
  have hkept : (removeTrackedCommand s.tracker command).Kept config := by
    refine kept_remove h.kept fun other hother => ?_
    exact h.distinct other (h.issued _ _ hother) command hissued (h.kept.keyed _ _ hother)
  refine h.within hkept (within_remove _ _) (forall_update h.sending fun x hx => nomatch hx) ?_
  intro id hid
  rcases hid.append with hold | ⟨other, hevent, rfl⟩ | ⟨envelope, status, error, hevent, -⟩
  · exact .inl hold
  · obtain rfl := Event.rolledBack.inj hevent
    exact .inr ⟨getElem?_remove_self _ _, command, hissued, rfl⟩
  · cases hevent

theorem Sound.feedback (h : Sound config trace s) {envelope : ControlEnvelope}
    {result : Except RegistryError (Option WorkloadStatus)} {tracker : CommandTracker}
    (hfeedback : handleCommandFeedback s.tracker envelope = (result, tracker)) :
    Sound config (trace ++ [.feedback envelope result])
      ⟨s.now, tracker, s.sending, s.issued⟩ := by
  have hcase := handleCommandFeedback_tracker s.tracker envelope
  rw [hfeedback] at hcase
  obtain ⟨hkept, hwithin⟩ := kept_of_removed h.kept hcase
  refine h.within hkept hwithin h.sending ?_
  intro id hid
  rcases hid.append with hold | ⟨other, hevent, -⟩ | ⟨other, status, error, hevent, hresult⟩
  · exact .inl hold
  · cases hevent
  · obtain ⟨rfl, rfl⟩ := Event.feedback.inj hevent
    have hstatus : (handleCommandFeedback s.tracker envelope).1 = .ok (some status) := by
      rw [hfeedback]
    obtain ⟨id', command, error', hresult', hcommand, hreply, -⟩ :=
      tracked_of_handleCommandFeedback hstatus
    rw [hresult] at hresult'
    obtain ⟨rfl, rfl⟩ := Prod.mk.inj (Option.some.inj hresult')
    have hremoved := handleCommandFeedback_of_tracked hresult hcommand hreply
    rw [hfeedback] at hremoved
    have hid := h.kept.keyed _ _ hcommand
    refine .inr ⟨?_, command, h.issued _ _ hcommand, hid⟩
    rw [(Prod.mk.inj hremoved).2, ← hid]
    exact getElem?_remove_self _ _

/-- What one step keeps. -/
theorem Step.sound (hstep : Step config s event t) (h : Sound config trace s) :
    Sound config (trace ++ [event]) t := by
  cases hstep with
  | tick elapsed =>
      exact h.within h.kept (.refl _) h.sending fun id hid =>
        .inl (gone_of_append rfl hid)
  | send message result huntracked hserver =>
      exact h.within h.kept (.refl _) h.sending fun id hid =>
        .inl (gone_of_append rfl hid)
  | refuse hcommand htrack =>
      rcases trackCommand_cases h.kept s.now _ with hbusy | ⟨-, -, htracked⟩
      · rw [hbusy] at htrack
        obtain rfl := (Prod.mk.inj htrack).2
        exact h.within (kept_prune h.kept s.now) (within_prune _ _) h.sending fun id hid =>
          .inl (gone_of_append rfl hid)
      · rw [htracked] at htrack
        cases htrack
  | track hfree hcommand hfresh htrack => exact h.track hfresh htrack
  | queue hsending =>
      exact h.within h.kept (.refl _) (forall_update h.sending fun x hx => nomatch hx) fun id hid =>
        .inl (gone_of_append rfl hid)
  | unqueue hsending =>
      refine h.within h.kept (.refl _) (forall_update h.sending ?_) fun id hid =>
        .inl (gone_of_append rfl hid)
      intro x hx
      obtain rfl := Option.some.inj hx
      exact h.sending _ (.tracked _) hsending
  | rollBack hsending => exact h.rollBack hsending
  | feedback envelope hfeedback => exact h.feedback hfeedback
  | observe status =>
      obtain ⟨hkept, hwithin⟩ :=
        kept_of_removed h.kept (observeWorkloadStatus_tracker s.tracker status)
      exact h.within hkept hwithin h.sending fun id hid =>
        .inl (gone_of_append rfl hid)

theorem sound_of_run (h : StepPath (Step config) .init trace s) : Sound config trace s :=
  h.history sound_init fun _ _ _ _ hsound hstep => hstep.sound hsound

/-- What is true of every run of a session's bookkeeping. -/
structure Bookkeeping (config : RegistryConfig) (trace : List Event) (s : Session) : Prop where
  inverse : ∀ (workload id : Uuid), s.tracker.byWorkload[workload]? = some id ↔
    ∃ command, s.tracker.byId[id]? = some command ∧ command.fence.workloadId = workload
  onePerWorkload : ∀ (id id' : Uuid) command command', s.tracker.byId[id]? = some command →
    s.tracker.byId[id']? = some command' →
    command.fence.workloadId = command'.fence.workloadId → id = id'
  bounded : s.tracker.byId.size ≤ config.maxInFlightCommandsPerWorker
  /-- A command whose queueing failed is not remembered. -/
  rolledBack : ∀ command, .rolledBack command ∈ trace →
    s.tracker.byId[command.commandId]? = none ∧
      ∀ workload : Uuid, s.tracker.byWorkload[workload]? ≠ some command.commandId
  /-- A failed result of a command which is remembered yields a status; of another one, none. -/
  yields : ∀ envelope id error, failedResult envelope = some (id, error) →
    (∀ command, s.tracker.byId[id]? = some command →
      envelope.replyTo = some command.messageId →
      (handleCommandFeedback s.tracker envelope).1 = .ok (some (failedStatus command error))) ∧
    (s.tracker.byId[id]? = none → (handleCommandFeedback s.tracker envelope).1 = .ok none)
  /-- A status is about the command which was sent, and which the failed result answers. -/
  answers : ∀ before envelope status after,
    trace = before ++ .feedback envelope (.ok (some status)) :: after →
      ∃ command error, .tracked command ∈ before ∧
        failedResult envelope = some (command.commandId, error) ∧
        envelope.replyTo = some command.messageId ∧ status = failedStatus command error
  /-- No command leads to two of them. -/
  once : ∀ before envelope status between envelope' status' after,
    trace = before ++ .feedback envelope (.ok (some status)) ::
      (between ++ .feedback envelope' (.ok (some status')) :: after) →
      (failedResult envelope).map (·.1) ≠ (failedResult envelope').map (·.1)

theorem tracked_of_status {envelope : ControlEnvelope} {status : WorkloadStatus}
    (hsound : Sound config trace s)
    (hstep : Step config s (.feedback envelope (.ok (some status))) t) :
    ∃ command error, .tracked command ∈ trace ∧
      failedResult envelope = some (command.commandId, error) ∧
      s.tracker.byId[command.commandId]? = some command ∧
      envelope.replyTo = some command.messageId ∧ status = failedStatus command error := by
  cases hstep with
  | feedback envelope hfeedback =>
      have hstatus := congrArg Prod.fst hfeedback
      obtain ⟨id, command, error, hresult, hcommand, hreply, hstatus⟩ :=
        tracked_of_handleCommandFeedback hstatus
      obtain rfl := hsound.kept.keyed _ _ hcommand
      exact ⟨command, error, hsound.tracked command (hsound.issued _ _ hcommand), hresult, hcommand,
        hreply, hstatus⟩

theorem bookkeeping_of_run (h : StepPath (Step config) .init trace s) :
    Bookkeeping config trace s := by
  have hsound := sound_of_run h
  constructor
  case inverse => exact hsound.kept.indexed.inverse
  case onePerWorkload =>
    intro id id' command command' hget hget' hworkload
    exact hsound.kept.indexed.key_eq hget hget' hworkload
  case bounded => exact hsound.kept.bounded
  case rolledBack =>
    intro command hmem
    have hnone := (hsound.gone _ (.inl ⟨command, hmem, rfl⟩)).1
    refine ⟨hnone, fun workload hget => ?_⟩
    obtain ⟨other, hother, -⟩ := (hsound.kept.indexed.inverse _ _).mp hget
    rw [hnone] at hother
    cases hother
  case yields =>
    intro envelope id error hresult
    refine ⟨fun command hcommand hreply => ?_, fun hnone => ?_⟩
    · rw [handleCommandFeedback_of_tracked hresult hcommand hreply]
    · rw [handleCommandFeedback_of_untracked hresult hnone]
  case answers =>
    intro before envelope status after htrace
    subst htrace
    obtain ⟨a, b, hbefore, hstep, -⟩ := h.of_middle
    obtain ⟨command, error, htracked, hresult, -, hreply, hstatus⟩ :=
      tracked_of_status (sound_of_run hbefore) hstep
    exact ⟨command, error, htracked, hresult, hreply, hstatus⟩
  case once =>
    intro before envelope status between envelope' status' after htrace heq
    subst htrace
    rw [← List.cons_append, ← List.append_assoc] at h
    obtain ⟨a, b, hbefore, hstep, -⟩ := h.of_middle
    have hbetween := sound_of_run hbefore
    obtain ⟨command', error', -, hresult', hcommand', -⟩ := tracked_of_status hbetween hstep
    obtain ⟨c, d, hfirst, hstep', -⟩ := hbefore.of_middle
    obtain ⟨command, error, -, hresult, -⟩ := tracked_of_status (sound_of_run hfirst) hstep'
    rw [hresult, hresult'] at heq
    have hid : command.commandId = command'.commandId := Option.some.inj heq
    have hgone : Gone (before ++ .feedback envelope (.ok (some status)) :: between)
        command'.commandId := by
      refine .inr ⟨envelope, status, error, List.mem_append_right _ List.mem_cons_self, ?_⟩
      rw [hresult, hid]
    rw [(hbetween.gone _ hgone).1] at hcommand'
    cases hcommand'

section Reported

/-- A workload which is to be absent. -/
def removal : EnsureAbsent := ⟨5, ⟨1, 1, 1⟩, "hash", 1000⟩

def removalCommand : InFlightCommand := ⟨5, 9, ⟨1, 1, 1⟩, "hash", 11000⟩

/-- The worker reports that the removal has failed, before it answers the command. -/
def earlyReport : WorkloadStatus := ⟨⟨1, 1, 1⟩, "hash", .failed, [], none⟩

def lateResult : ControlEnvelope := ⟨10, some 9, .commandResult ⟨5, false, some "timeout"⟩⟩

def reportedTrace : List Event :=
  [.tracked removalCommand, .queued removalCommand, .observed earlyReport,
    .feedback lateResult (.ok none)]

def enteredTracker : CommandTracker :=
  ⟨Std.ExtHashMap.insert ∅ 5 removalCommand, Std.ExtHashMap.insert ∅ 1 5⟩

theorem trackCommand_removal :
    trackCommand ⟨∅, ∅⟩ .default 0 removalCommand = (.ok (), enteredTracker) := by
  simp [trackCommand, pruneExpiredCommands, removalCommand, RegistryConfig.default, enteredTracker]

theorem untracked_after_report :
    (observeWorkloadStatus enteredTracker earlyReport).byId[(5 : Uuid)]? = none := by
  have hobserve : observeWorkloadStatus enteredTracker earlyReport =
      removeTrackedCommand enteredTracker removalCommand := by
    simp [observeWorkloadStatus, enteredTracker, earlyReport, removalCommand]
  rw [hobserve]
  exact getElem?_remove_self enteredTracker removalCommand

theorem reported_run : ∃ s, StepPath (Step .default) .init reportedTrace s :=
  ⟨_, .cons (@Step.track _ Session.init 0 (.ensureAbsent removal) 9 _ _ rfl rfl
      (fun _ h => nomatch h) trackCommand_removal) <|
    .cons (@Step.queue _ _ 0 _ rfl) <| .cons (.observe earlyReport) <|
    .cons (.feedback lateResult (@handleCommandFeedback_of_untracked _ lateResult 5
      (some "timeout") rfl untracked_after_report)) (.nil _)⟩

theorem bookkeeping_of_run_reported : ∃ s, Bookkeeping .default reportedTrace s := by
  obtain ⟨s, hrun⟩ := reported_run
  exact ⟨s, bookkeeping_of_run hrun⟩

/-- A failed result of a command which was sent may yield no status. -/
theorem not_every_failed_result_yields :
    ¬∀ (trace : List Event) (s : Session), StepPath (Step .default) .init trace s →
      ∀ command envelope error result, .tracked command ∈ trace →
        .feedback envelope result ∈ trace →
        failedResult envelope = some (command.commandId, error) →
        envelope.replyTo = some command.messageId →
        ∃ other, .feedback other (.ok (some (failedStatus command error))) ∈ trace := by
  intro h
  obtain ⟨s, hrun⟩ := reported_run
  obtain ⟨other, hother⟩ := h _ _ hrun removalCommand lateResult (some "timeout") (.ok none)
    List.mem_cons_self (by simp [reportedTrace]) rfl rfl
  simp [reportedTrace] at hother

end Reported

end Runs

end Commands

end Worker

end Rsctf
