import Mathlib.Data.List.Basic
import Rsctf.Data.Path

/-!
# Relay endpoints

The relay of a self-hosted service keeps its address while the agent behind it
reconnects.  It exposes the session of the agent only after the session acknowledged the
flag which the relay retains.  Every operation holds the lock of the endpoint for one
section, which is one step here; a revocation retires the endpoint before it takes the
lock.
-/

namespace Rsctf

namespace Byoc

def adFlagBytes : ℕ := 38

/-- The grammar of a flag: thirty-two letters, digits, underscores or dashes in braces. -/
def validateAd (value : String) : Bool :=
  let characters := value.toList
  value.utf8ByteSize = adFlagBytes && characters.take 5 = "flag\x7b".toList &&
    characters.getLast? = some '\x7d' &&
    ((characters.drop 5).take 32).all fun character =>
      character.isAlphanum || character = '_' || character = '-'

structure RetainedFlag where
  sequence : ℕ
  value : String
deriving DecidableEq

inductive FlagRetention
  | accepted (flag : RetainedFlag)
  | stale (flag : RetainedFlag)
deriving DecidableEq

inductive FlagRetentionError
  | invalidSequence
  | invalidValue
  | sequenceConflict
  | retired
deriving DecidableEq

/-- The newest flag of a service, if it has one. -/
abbrev FlagState := Option RetainedFlag

/-- Retain a flag unless a newer one is retained; the same sequence is accepted again with
the same bytes. -/
def FlagState.retain (current : FlagState) (sequence : ℕ) (value : String) :
    Except FlagRetentionError FlagRetention × FlagState :=
  if validateAd value = false then (.error .invalidValue, current)
  else if sequence = 0 then (.error .invalidSequence, current)
  else
    match current with
    | some flag =>
      if sequence < flag.sequence then (.ok (.stale flag), current)
      else if sequence = flag.sequence then
        if flag.value = value then (.ok (.accepted flag), current)
        else (.error .sequenceConflict, current)
      else (.ok (.accepted ⟨sequence, value⟩), some ⟨sequence, value⟩)
    | none => (.ok (.accepted ⟨sequence, value⟩), some ⟨sequence, value⟩)

/-- The session of one connected agent. -/
structure TunnelHandle where
  id : ℕ
deriving DecidableEq

inductive SessionReadiness
  | pending
  | noFlag
  | flag (sequence : ℕ)
deriving DecidableEq

structure RelayEndpoint where
  session : Option TunnelHandle
  flag : FlagState
  readiness : SessionReadiness
  idleEpoch : ℕ
  retired : Bool
deriving DecidableEq

namespace RelayEndpoint

/-- The endpoint as it is bound; its first epoch counts as handed out. -/
def bind : RelayEndpoint where
  session := none
  flag := none
  readiness := .pending
  idleEpoch := 1
  retired := false

variable (endpoint : RelayEndpoint)

def readyHandle : Option TunnelHandle :=
  let ready : Bool :=
    match endpoint.flag with
    | some flag => endpoint.readiness = .flag flag.sequence
    | none => endpoint.readiness = .noFlag
  if ready then endpoint.session else none

def claim : Option ℕ × RelayEndpoint :=
  if endpoint.retired then (none, endpoint)
  else (some (endpoint.idleEpoch + 1), { endpoint with idleEpoch := endpoint.idleEpoch + 1 })

def isIdleAt (epoch : ℕ) : Bool :=
  !endpoint.retired && endpoint.idleEpoch = epoch && endpoint.session.isNone

def current : Option TunnelHandle :=
  if endpoint.retired then none else endpoint.readyHandle

/-- The session regardless of its readiness, for the delivery of flags. -/
def rawCurrent : Option TunnelHandle :=
  if endpoint.retired then none else endpoint.session

/-- The section of `retain_flag`.  When the endpoint was retired since the caller looked,
the flag is dropped again. -/
def retainFlag (sequence : ℕ) (value : String) :
    Except FlagRetentionError FlagRetention × RelayEndpoint :=
  match endpoint.flag.retain sequence value with
  | (.error error, _) => (.error error, endpoint)
  | (.ok retained, flag) =>
    if endpoint.retired then
      (.error .retired, { endpoint with flag := none, readiness := .pending })
    else
      match retained with
      | .accepted accepted =>
        (.ok retained,
          { endpoint with
            flag := flag
            readiness :=
              if endpoint.readiness = .flag accepted.sequence then endpoint.readiness
              else .pending })
      | .stale _ => (.ok retained, { endpoint with flag := flag })

def retainedFlag : Option RetainedFlag :=
  if endpoint.retired then none else endpoint.flag

/-- Publish a new session.  The result tells whether it was published and which session it
replaced. -/
def attach (handle : TunnelHandle) : Except TunnelHandle (Option TunnelHandle) × RelayEndpoint :=
  if endpoint.retired then (.error handle, endpoint)
  else
    (.ok endpoint.session,
      { endpoint with
        session := some handle
        readiness := if endpoint.flag.isSome then .pending else .noFlag
        idleEpoch := endpoint.idleEpoch + 1 })

def markFlagReady (connectionId : ℕ) (flag : RetainedFlag) : Bool × RelayEndpoint :=
  if endpoint.retired || endpoint.session.all (·.id ≠ connectionId) ||
      endpoint.flag.all (·.sequence ≠ flag.sequence) then
    (false, endpoint)
  else (true, { endpoint with readiness := .flag flag.sequence })

def detachIf (connectionId : ℕ) : Option ℕ × RelayEndpoint :=
  if endpoint.session.all (·.id ≠ connectionId) then (none, endpoint)
  else
    (some (endpoint.idleEpoch + 1),
      { endpoint with
        session := none
        readiness := .pending
        idleEpoch := endpoint.idleEpoch + 1 })

def retireIfIdle (epoch : ℕ) : Bool × RelayEndpoint :=
  if endpoint.retired || endpoint.idleEpoch ≠ epoch || endpoint.session.isSome then
    (false, endpoint)
  else
    (true,
      { endpoint with
        flag := none
        readiness := .pending
        idleEpoch := endpoint.idleEpoch + 1
        retired := true })

/-- What `revoke` stores before it takes the lock. -/
def revokeStore : RelayEndpoint := { endpoint with retired := true }

def revokeEpoch : RelayEndpoint := { endpoint with idleEpoch := endpoint.idleEpoch + 1 }

/-- The section of `revoke`, with the session whose task must be awaited. -/
def revokeSection : Option TunnelHandle × RelayEndpoint :=
  (endpoint.session, { endpoint with session := none, flag := none, readiness := .pending })

end RelayEndpoint

/-- A step of an endpoint with what it returned. -/
inductive Event
  | claim (epoch : Option ℕ)
  | isIdleAt (epoch : ℕ) (idle : Bool)
  | current (handle : Option TunnelHandle)
  | rawCurrent (handle : Option TunnelHandle)
  | retainFlag (sequence : ℕ) (value : String) (result : Except FlagRetentionError FlagRetention)
  | retainedFlag (flag : Option RetainedFlag)
  | attach (handle : TunnelHandle) (result : Except TunnelHandle (Option TunnelHandle))
  | markFlagReady (connectionId : ℕ) (flag : RetainedFlag) (ready : Bool)
  | detachIf (connectionId : ℕ) (epoch : Option ℕ)
  | retireIfIdle (epoch : ℕ) (retired : Bool)
  | revokeStore
  | revokeEpoch
  | revokeSection (handle : Option TunnelHandle)

namespace RelayEndpoint

/-- The steps of an endpoint.  `retain_flag` refuses without the lock when it finds the
endpoint retired, and `retained_flag` looks at the retirement once more after it left the
lock, so it may return nothing.  A revocation has retired the endpoint when it enters its
section. -/
def Step (endpoint : RelayEndpoint) (event : Event) (next : RelayEndpoint) : Prop :=
  match event with
  | .claim epoch => endpoint.claim = (epoch, next)
  | .isIdleAt epoch idle => endpoint.isIdleAt epoch = idle ∧ next = endpoint
  | .current handle => endpoint.current = handle ∧ next = endpoint
  | .rawCurrent handle => endpoint.rawCurrent = handle ∧ next = endpoint
  | .retainFlag sequence value result =>
    endpoint.retainFlag sequence value = (result, next) ∨
      (endpoint.retired = true ∧ result = .error .retired ∧ next = endpoint)
  | .retainedFlag flag => (endpoint.retainedFlag = flag ∨ flag = none) ∧ next = endpoint
  | .attach handle result => endpoint.attach handle = (result, next)
  | .markFlagReady connectionId flag ready =>
    endpoint.markFlagReady connectionId flag = (ready, next)
  | .detachIf connectionId epoch => endpoint.detachIf connectionId = (epoch, next)
  | .retireIfIdle epoch retired => endpoint.retireIfIdle epoch = (retired, next)
  | .revokeStore => next = endpoint.revokeStore
  | .revokeEpoch => next = endpoint.revokeEpoch
  | .revokeSection handle => endpoint.retired = true ∧ endpoint.revokeSection = (handle, next)

/-- The histories of an endpoint since it was bound. -/
abbrev History (events : List Event) (endpoint : RelayEndpoint) : Prop :=
  StepPath Step bind events endpoint

end RelayEndpoint

end Byoc

end Rsctf
