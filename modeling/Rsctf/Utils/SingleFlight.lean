import Mathlib.Data.List.Infix
import Mathlib.Data.String.Basic
import Rsctf.Data.Indexed
import Rsctf.Data.Path

/-!
# Coalescing requests

Callers which ask for one key at a time share one flight.  The first of them registers the
flight and spawns it; the others join it, and each receives what the flight sends.  A flight
which panics sends nothing, and its callers receive the default.

A flight is removed from the registered ones under the lock of the map and sends its value
afterwards, so that a new flight of the same key may be registered in between.
-/

namespace Rsctf

namespace SingleFlight

/-- How far the task of a flight has come. -/
inductive Phase (T : Type*)
  | registered
  | spawned
  | running
  | finished (value : T)
  | unwinding
  | sending (sender : Option ℕ) (value : T)
  | ended

/-- A flight, with its channel of one slot. -/
structure Flight (T : Type*) where
  key : String
  phase : Phase T
  sent : Option T
  closed : Bool

inductive Call
  | leading (flight : ℕ)
  | waiting (flight : ℕ)
  | settled
deriving DecidableEq

/-- The map of the registered flights, all flights so far, and the calls. -/
structure State (T : Type*) where
  inflight : Std.ExtHashMap String ℕ
  flights : List (Flight T)
  calls : ℕ → Option Call

inductive FlightEvent (T : Type*)
  | started
  | completed (value : T)
  | timedOut
  | panicked
  | removed (sender : Option ℕ)
  | published (sender : Option ℕ)
deriving DecidableEq

inductive CallEvent (T : Type*)
  | refused (key : String) (limit : ℕ) (value : T)
  | joined (flight : ℕ)
  | returned (value : T)
  | cancelled
deriving DecidableEq

inductive Event (T : Type*)
  | call (caller : ℕ) (event : CallEvent T)
  | spawned (caller : ℕ)
  | flight (id : ℕ) (event : FlightEvent T)
deriving DecidableEq

variable {T : Type*}

/-- The flight has not been removed from the map. -/
def Phase.live : Phase T → Bool
  | .sending _ _ | .ended => false
  | _ => true

inductive Admission
  | refused
  | joined (flight : ℕ)
  | led (flight : ℕ)
deriving DecidableEq

namespace State

def init (T : Type*) : State T := ⟨∅, [], fun _ => none⟩

/-- What a caller finds under the lock of the map. -/
def enter (s : State T) (key : String) (limit : ℕ) : Admission :=
  if limit = 0 then .refused
  else
    match s.inflight[key]? with
    | some flight => .joined flight
    | none => if limit ≤ s.inflight.size then .refused else .led s.flights.length

def setCall (s : State T) (caller : ℕ) (call : Call) : State T :=
  { s with calls := Function.update s.calls caller (some call) }

theorem calls_setCall_self (s : State T) (caller : ℕ) (call : Call) :
    (s.setCall caller call).calls caller = some call := by
  simp [setCall]

theorem calls_setCall_of_ne (s : State T) {caller other : ℕ} (hne : other ≠ caller) (call : Call) :
    (s.setCall caller call).calls other = s.calls other := by
  simp [setCall, hne]

/-- The leader's section registers a new flight. -/
def register (s : State T) (caller : ℕ) (key : String) : State T where
  inflight := s.inflight.insert key s.flights.length
  flights := s.flights ++ [⟨key, .registered, none, false⟩]
  calls := Function.update s.calls caller (some (.leading s.flights.length))

def setPhase (s : State T) (id : ℕ) (phase : Phase T) : State T :=
  { s with flights := s.flights.modify id fun flight => { flight with phase := phase } }

/-- Whatever is registered under the key is removed. -/
def unregister (s : State T) (key : String) : State T :=
  { s with inflight := s.inflight.erase key }

/-- The value is sent on the channel of a flight, if there is a sender. -/
def send (s : State T) (value : T) : Option ℕ → State T
  | none => s
  | some id => { s with
      flights := s.flights.modify id fun flight => { flight with sent := some value } }

/-- The sender of a channel is dropped. -/
def close (s : State T) : Option ℕ → State T
  | none => s
  | some id => { s with
      flights := s.flights.modify id fun flight => { flight with closed := true } }

end State

/-- What the receivers of a channel receive: its value, or the default when it is closed. -/
def Flight.answer [Inhabited T] (flight : Flight T) : Option T :=
  flight.sent.or (if flight.closed then some default else none)

/-- The sections of all callers and all tasks, in any order. -/
inductive Step [Inhabited T] : State T → Event T → State T → Prop
  | refuse {s : State T} {caller key limit} (hfree : s.calls caller = none)
      (henter : s.enter key limit = .refused) :
      Step s (.call caller (.refused key limit default)) (s.setCall caller .settled)
  | join {s : State T} {caller key limit flight} (hfree : s.calls caller = none)
      (henter : s.enter key limit = .joined flight) :
      Step s (.call caller (.joined flight)) (s.setCall caller (.waiting flight))
  | lead {s : State T} {caller key limit flight} (hfree : s.calls caller = none)
      (henter : s.enter key limit = .led flight) :
      Step s (.call caller (.joined flight)) (s.register caller key)
  | spawn {s : State T} {caller id} (hcall : s.calls caller = some (.leading id)) :
      Step s (.spawned caller) ((s.setPhase id .spawned).setCall caller (.waiting id))
  | start {s : State T} {id flight} (hflight : s.flights[id]? = some flight)
      (hphase : flight.phase = .spawned) :
      Step s (.flight id .started) (s.setPhase id .running)
  | complete {s : State T} {id flight} (value : T) (hflight : s.flights[id]? = some flight)
      (hphase : flight.phase = .running) :
      Step s (.flight id (.completed value)) (s.setPhase id (.finished value))
  | timeOut {s : State T} {id flight} (hflight : s.flights[id]? = some flight)
      (hphase : flight.phase = .running) :
      Step s (.flight id .timedOut) (s.setPhase id (.finished default))
  | panic {s : State T} {id flight} (hflight : s.flights[id]? = some flight)
      (hphase : flight.phase = .running) :
      Step s (.flight id .panicked) (s.setPhase id .unwinding)
  | remove {s : State T} {id flight value} (hflight : s.flights[id]? = some flight)
      (hphase : flight.phase = .finished value) :
      -- the guard is disarmed in the same section
      Step s (.flight id (.removed s.inflight[flight.key]?))
        ((s.setPhase id (.sending s.inflight[flight.key]? value)).unregister flight.key)
  | cleanUp {s : State T} {id flight} (hflight : s.flights[id]? = some flight)
      (hphase : flight.phase = .unwinding) :
      Step s (.flight id (.removed s.inflight[flight.key]?))
        (((s.setPhase id .ended).unregister flight.key).close s.inflight[flight.key]?)
  | publish {s : State T} {id flight sender value} (hflight : s.flights[id]? = some flight)
      (hphase : flight.phase = .sending sender value) :
      Step s (.flight id (.published sender))
        (((s.setPhase id .ended).send value sender).close sender)
  | receive {s : State T} {caller id flight value} (hcall : s.calls caller = some (.waiting id))
      (hflight : s.flights[id]? = some flight) (hanswer : flight.answer = some value) :
      Step s (.call caller (.returned value)) (s.setCall caller .settled)
  | cancel {s : State T} {caller id} (hcall : s.calls caller = some (.waiting id)) :
      Step s (.call caller .cancelled) (s.setCall caller .settled)

section Events

variable {trace : List (Event T)} {id other caller : ℕ}

def flightEvent (id : ℕ) : Event T → Option (FlightEvent T)
  | .flight other event => if other = id then some event else none
  | _ => none

def callEvent (caller : ℕ) : Event T → Option (CallEvent T)
  | .call other event => if other = caller then some event else none
  | _ => none

/-- What a flight has done so far. -/
def flightEvents (id : ℕ) (trace : List (Event T)) : List (FlightEvent T) :=
  trace.filterMap (flightEvent id)

/-- What a caller has seen so far. -/
def callEvents (caller : ℕ) (trace : List (Event T)) : List (CallEvent T) :=
  trace.filterMap (callEvent caller)

theorem flightEvents_append_self (e : FlightEvent T) :
    flightEvents id (trace ++ [.flight id e]) = flightEvents id trace ++ [e] := by
  simp [flightEvents, flightEvent]

theorem flightEvents_append_of_ne (hne : other ≠ id) (e : FlightEvent T) :
    flightEvents id (trace ++ [.flight other e]) = flightEvents id trace := by
  simp [flightEvents, flightEvent, hne]

@[simp] theorem flightEvents_append_call (e : CallEvent T) :
    flightEvents id (trace ++ [.call caller e]) = flightEvents id trace := by
  simp [flightEvents, flightEvent]

@[simp] theorem flightEvents_append_spawned :
    flightEvents id (trace ++ [.spawned caller]) = flightEvents id trace := by
  simp [flightEvents, flightEvent]

theorem callEvents_append_self (e : CallEvent T) :
    callEvents caller (trace ++ [.call caller e]) = callEvents caller trace ++ [e] := by
  simp [callEvents, callEvent]

theorem callEvents_append_of_ne (hne : other ≠ caller) (e : CallEvent T) :
    callEvents caller (trace ++ [.call other e]) = callEvents caller trace := by
  simp [callEvents, callEvent, hne]

@[simp] theorem callEvents_append_flight (e : FlightEvent T) :
    callEvents caller (trace ++ [.flight id e]) = callEvents caller trace := by
  simp [callEvents, callEvent]

@[simp] theorem callEvents_append_spawned :
    callEvents caller (trace ++ [.spawned other]) = callEvents caller trace := by
  simp [callEvents, callEvent]

theorem flightEvents_subset_append (id : ℕ) (trace : List (Event T)) (event : Event T) :
    flightEvents id trace ⊆ flightEvents id (trace ++ [event]) := by
  intro e he
  rw [flightEvents, List.filterMap_append]
  exact List.mem_append_left _ he

end Events

section Sections

variable {s : State T} {id caller : ℕ} {key : String} {limit : ℕ}

theorem modify_modify {f g : Flight T → Flight T} (flights : List (Flight T)) (id : ℕ) :
    (flights.modify id f).modify id g = flights.modify id fun flight => g (f flight) :=
  List.modify_modify_eq f g id flights

/-- The state after a panic has been cleaned up. -/
theorem cleanUp_eq (s : State T) (key : String) (id : ℕ) :
    ((s.setPhase id .ended).unregister key).close (some id) =
      ⟨s.inflight.erase key, s.flights.modify id fun flight =>
        { flight with phase := .ended, closed := true }, s.calls⟩ := by
  simp only [State.setPhase, State.unregister, State.close, modify_modify]

theorem publish_eq (s : State T) (value : T) (id : ℕ) :
    ((s.setPhase id .ended).send value (some id)).close (some id) =
      ⟨s.inflight, s.flights.modify id fun flight =>
        { flight with phase := .ended, sent := some value, closed := true }, s.calls⟩ := by
  simp only [State.setPhase, State.send, State.close, modify_modify]

theorem enter_joined (h : s.enter key limit = .joined id) :
    s.inflight[key]? = some id := by
  rw [State.enter] at h
  split at h
  · cases h
  · split at h
    · next flight hkey =>
      obtain rfl := Admission.joined.inj h
      exact hkey
    · split at h <;> cases h

theorem enter_led (h : s.enter key limit = .led id) :
    s.inflight[key]? = none ∧ id = s.flights.length := by
  rw [State.enter] at h
  split at h
  · cases h
  · split at h
    · cases h
    · next hkey =>
      split at h
      · cases h
      · exact ⟨hkey, (Admission.led.inj h).symm⟩

theorem enter_refused (h : s.enter key limit = .refused) :
    limit = 0 ∨ s.inflight[key]? = none ∧ limit ≤ s.inflight.size := by
  rw [State.enter] at h
  split at h
  · next hzero => exact .inl hzero
  · split at h
    · cases h
    · next hkey =>
      split at h
      · next hfull => exact .inr ⟨hkey, hfull⟩
      · cases h

theorem not_leading_of_waiting (hcall : s.calls caller = some (.waiting id)) (other : ℕ) :
    s.calls caller ≠ some (.leading other) := by
  rw [hcall]
  intro h
  cases h

theorem not_leading_of_free (hcall : s.calls caller = none) (other : ℕ) :
    s.calls caller ≠ some (.leading other) := by
  rw [hcall]
  intro h
  cases h

end Sections

section History

variable [Inhabited T] {trace : List (Event T)} {event : Event T} {s t : State T}
  {id caller : ℕ} {flight : Flight T}

/-- How the closure of a flight ends, and what its callers receive then. -/
def FlightEvent.Yields : FlightEvent T → T → Prop
  | .completed value, result => result = value
  | .timedOut, result => result = default
  | .panicked, result => result = default
  | _, _ => False

/-- What a flight has done and what its channel holds, by its phase. -/
def Flight.Told (id : ℕ) (flight : Flight T) (events : List (FlightEvent T)) : Prop :=
  match flight.phase with
  | .registered | .spawned => events = [] ∧ flight.sent = none ∧ flight.closed = false
  | .running => events = [.started] ∧ flight.sent = none ∧ flight.closed = false
  | .finished value => ∃ outcome : FlightEvent T, outcome.Yields value ∧
      events = [.started, outcome] ∧ flight.sent = none ∧ flight.closed = false
  | .unwinding => events = [.started, .panicked] ∧ flight.sent = none ∧ flight.closed = false
  | .sending sender value => sender = some id ∧ ∃ outcome : FlightEvent T, outcome.Yields value ∧
      events = [.started, outcome, .removed (some id)] ∧ flight.sent = none ∧
      flight.closed = false
  | .ended => (∃ value, ∃ outcome : FlightEvent T, outcome.Yields value ∧
      events = [.started, outcome, .removed (some id), .published (some id)] ∧
      flight.sent = some value) ∨
    events = [.started, .panicked, .removed (some id)] ∧ flight.sent = none ∧ flight.closed = true

/-- What a caller has seen, by its call. -/
def CallTold (trace : List (Event T)) (events : List (CallEvent T)) : Option Call → Prop
  | none => events = []
  | some (.leading id) | some (.waiting id) => events = [.joined id]
  | some .settled => (∃ key limit, events = [.refused key limit default]) ∨
    ∃ id, events = [.joined id, .cancelled] ∨
      ∃ value, events = [.joined id, .returned value] ∧
        ∃ outcome ∈ flightEvents id trace, outcome.Yields value

/-- What is true in every state of a run. -/
structure Sound (trace : List (Event T)) (s : State T) : Prop where
  flights : ∀ (id : ℕ) flight, s.flights[id]? = some flight →
    flight.Told id (flightEvents id trace)
  unborn : ∀ id, s.flights.length ≤ id → flightEvents id trace = []
  registered : ∀ (key : String) (id : ℕ), s.inflight[key]? = some id ↔
    ∃ flight, s.flights[id]? = some flight ∧ flight.key = key ∧ flight.phase.live = true
  calls : ∀ caller, CallTold trace (callEvents caller trace) (s.calls caller)
  known : ∀ caller id, s.calls caller = some (.waiting id) → id < s.flights.length
  leading : ∀ caller id, s.calls caller = some (.leading id) →
    ∃ flight, s.flights[id]? = some flight ∧ flight.phase = .registered
  leader : ∀ caller other id, s.calls caller = some (.leading id) →
    s.calls other = some (.leading id) → caller = other
  led : ∀ (id : ℕ) flight, s.flights[id]? = some flight → flight.phase = .registered →
    ∃ caller, s.calls caller = some (.leading id)

theorem sound_init : Sound [] (State.init T) where
  flights := fun id flight h => by simp [State.init] at h
  unborn := fun _ _ => rfl
  registered := fun key id => by simp [State.init]
  calls := fun _ => rfl
  known := fun _ _ h => nomatch h
  leading := fun _ _ h => nomatch h
  leader := fun _ _ _ h => nomatch h
  led := fun id flight h => by simp [State.init] at h

/-- What a caller has seen stays true. -/
theorem CallTold.append {events : List (CallEvent T)} {call : Option Call}
    (h : CallTold trace events call) (event : Event T) : CallTold (trace ++ [event]) events call := by
  cases call with
  | none => exact h
  | some call =>
      cases call with
      | leading id => exact h
      | waiting id => exact h
      | settled =>
          rcases h with hrefused | ⟨id, hcancelled | ⟨value, hreturned, outcome, hmem, hyields⟩⟩
          · exact .inl hrefused
          · exact .inr ⟨id, .inl hcancelled⟩
          · exact .inr ⟨id, .inr ⟨value, hreturned, outcome,
              flightEvents_subset_append id trace event hmem, hyields⟩⟩

namespace Sound

/-- A flight which is registered under its key. -/
theorem inflight_eq (h : Sound trace s) (hflight : s.flights[id]? = some flight)
    (hlive : flight.phase.live = true) : s.inflight[flight.key]? = some id :=
  (h.registered _ _).mpr ⟨flight, hflight, rfl, hlive⟩

/-- A step of a caller which neither leads before it nor after it. -/
theorem setCall (h : Sound trace s) {e : CallEvent T} {call : Call}
    (hbefore : ∀ id, s.calls caller ≠ some (.leading id)) (hafter : ∀ id, call ≠ .leading id)
    (hknown : ∀ id, call = .waiting id → id < s.flights.length)
    (htold : CallTold (trace ++ [.call caller e]) (callEvents caller trace ++ [e]) (some call)) :
    Sound (trace ++ [.call caller e]) (s.setCall caller call) where
  flights := by
    intro id flight hflight
    rw [flightEvents_append_call]
    exact h.flights id flight hflight
  unborn := by
    intro id hid
    rw [flightEvents_append_call]
    exact h.unborn id hid
  registered := h.registered
  calls := by
    intro other
    by_cases hother : other = caller
    · subst hother
      rw [callEvents_append_self, State.calls_setCall_self]
      exact htold
    · rw [callEvents_append_of_ne (Ne.symm hother), State.calls_setCall_of_ne s hother]
      exact (h.calls other).append _
  known := by
    intro other id hcall
    by_cases hother : other = caller
    · rw [hother, State.calls_setCall_self] at hcall
      exact hknown id (Option.some.inj hcall)
    · rw [State.calls_setCall_of_ne s hother] at hcall
      exact h.known other id hcall
  leading := by
    intro other id hcall
    by_cases hother : other = caller
    · rw [hother, State.calls_setCall_self] at hcall
      exact absurd (Option.some.inj hcall) (hafter id)
    · rw [State.calls_setCall_of_ne s hother] at hcall
      exact h.leading other id hcall
  leader := by
    intro other other' id hcall hcall'
    by_cases hother : other = caller
    · rw [hother, State.calls_setCall_self] at hcall
      exact absurd (Option.some.inj hcall) (hafter id)
    by_cases hother' : other' = caller
    · rw [hother', State.calls_setCall_self] at hcall'
      exact absurd (Option.some.inj hcall') (hafter id)
    rw [State.calls_setCall_of_ne s hother] at hcall
    rw [State.calls_setCall_of_ne s hother'] at hcall'
    exact h.leader other other' id hcall hcall'
  led := by
    intro id flight hflight hphase
    obtain ⟨other, hcall⟩ := h.led id flight hflight hphase
    refine ⟨other, ?_⟩
    have hother : other ≠ caller := fun heq => hbefore id (heq ▸ hcall)
    rw [State.calls_setCall_of_ne s hother]
    exact hcall

/-- A step of the task of a flight.  The flight keeps its key, and it leaves the map when it
is not live any more. -/
theorem advance (h : Sound trace s) {e : FlightEvent T} {g : Flight T → Flight T}
    {inflight : Std.ExtHashMap String ℕ} (hflight : s.flights[id]? = some flight)
    (hkey : (g flight).key = flight.key)
    (htold : (g flight).Told id (flightEvents id trace ++ [e]))
    (hbefore : flight.phase ≠ .registered) (hafter : (g flight).phase ≠ .registered)
    (hlive : (g flight).phase.live = true → flight.phase.live = true)
    (hmap : ∀ (key : String) (other : ℕ), inflight[key]? = some other ↔
      s.inflight[key]? = some other ∧ (other = id → (g flight).phase.live = true)) :
    Sound (trace ++ [.flight id e]) ⟨inflight, s.flights.modify id g, s.calls⟩ where
  flights := by
    intro other flight' hflight'
    rw [List.getElem?_modify] at hflight'
    by_cases hother : id = other
    · subst hother
      rw [hflight] at hflight'
      obtain rfl : g flight = flight' := by simpa using hflight'
      rw [flightEvents_append_self]
      exact htold
    · rw [flightEvents_append_of_ne hother]
      exact h.flights other flight' (by simpa [hother] using hflight')
  unborn := by
    intro other hother
    rw [List.length_modify] at hother
    have hne : id ≠ other := by
      rintro rfl
      rw [List.getElem?_eq_none hother] at hflight
      cases hflight
    rw [flightEvents_append_of_ne hne]
    exact h.unborn other hother
  registered := by
    intro key other
    rw [hmap, h.registered, List.getElem?_modify]
    by_cases hother : id = other
    · subst hother
      constructor
      · rintro ⟨⟨flight', hflight', hkey', -⟩, hafter'⟩
        rw [hflight] at hflight'
        obtain rfl := Option.some.inj hflight'
        exact ⟨g flight, by simp [hflight], hkey.trans hkey', hafter' rfl⟩
      · rintro ⟨flight', hflight', hkey', hlive'⟩
        obtain rfl : g flight = flight' := by simpa [hflight] using hflight'
        exact ⟨⟨flight, hflight, hkey.symm.trans hkey', hlive hlive'⟩, fun _ => hlive'⟩
    · have hmodify : ∀ x : Option (Flight T),
          (fun a => if id = other then g a else a) <$> x = x := by simp [hother]
      rw [hmodify]
      exact and_iff_left fun heq => absurd heq.symm hother
  calls := by
    intro caller
    rw [callEvents_append_flight]
    exact (h.calls caller).append _
  known := by
    intro caller other hcall
    rw [List.length_modify]
    exact h.known caller other hcall
  leading := by
    intro caller other hcall
    obtain ⟨flight', hflight', hphase⟩ := h.leading caller other hcall
    have hother : id ≠ other := by
      rintro rfl
      rw [hflight] at hflight'
      obtain rfl := Option.some.inj hflight'
      exact hbefore hphase
    exact ⟨flight', by simp [hother, hflight'], hphase⟩
  leader := h.leader
  led := by
    intro other flight' hflight' hphase
    rw [List.getElem?_modify] at hflight'
    by_cases hother : id = other
    · subst hother
      rw [hflight] at hflight'
      obtain rfl : g flight = flight' := by simpa using hflight'
      exact absurd hphase hafter
    · exact h.led other flight' (by simpa [hother] using hflight') hphase

/-- A step of the task within its phase: the map stays as it is. -/
theorem setPhase (h : Sound trace s) {e : FlightEvent T} {phase : Phase T}
    (hflight : s.flights[id]? = some flight)
    (htold : Flight.Told id { flight with phase := phase } (flightEvents id trace ++ [e]))
    (hbefore : flight.phase ≠ .registered) (hafter : phase ≠ .registered)
    (hlive : flight.phase.live = true) (hlive' : phase.live = true) :
    Sound (trace ++ [.flight id e]) (s.setPhase id phase) :=
  h.advance hflight rfl htold hbefore hafter (fun _ => hlive)
    fun _ _ => (and_iff_left fun _ => hlive').symm

/-- The flight leaves the map, and nothing else does. -/
theorem unregister (h : Sound trace s) {e : FlightEvent T} {g : Flight T → Flight T}
    (hflight : s.flights[id]? = some flight) (hkey : (g flight).key = flight.key)
    (htold : (g flight).Told id (flightEvents id trace ++ [e]))
    (hbefore : flight.phase ≠ .registered) (hafter : (g flight).phase.live = false)
    (hlive : flight.phase.live = true) :
    Sound (trace ++ [.flight id e])
      ⟨s.inflight.erase flight.key, s.flights.modify id g, s.calls⟩ := by
  have hown := h.inflight_eq hflight hlive
  refine h.advance hflight hkey htold hbefore ?_ (fun _ => hlive) fun key other => ?_
  · intro hphase
    rw [hphase] at hafter
    cases hafter
  · rw [Indexed.getElem?_erase_eq_some, hafter]
    constructor
    · rintro ⟨hne, hother⟩
      refine ⟨hother, fun hid => ?_⟩
      obtain ⟨flight', hflight', hkey', -⟩ := (h.registered _ _).mp hother
      rw [hid, hflight] at hflight'
      obtain rfl := Option.some.inj hflight'
      exact absurd hkey'.symm hne
    · rintro ⟨hother, hid⟩
      refine ⟨fun heq => ?_, hother⟩
      rw [heq, hown] at hother
      exact Bool.false_ne_true (hid (Option.some.inj hother).symm)

/-- A new flight is registered under a key without one. -/
theorem register (h : Sound trace s) {key : String} (hfree : s.calls caller = none)
    (hkey : s.inflight[key]? = none) :
    Sound (trace ++ [.call caller (.joined s.flights.length)]) (s.register caller key) := by
  have hcalls : ∀ other, other ≠ caller →
      (s.register caller key).calls other = s.calls other :=
    fun other hne => by simp [State.register, hne]
  have hself : (s.register caller key).calls caller = some (.leading s.flights.length) := by
    simp [State.register]
  have hold : ∀ {id : ℕ} {flight : Flight T}, s.flights[id]? = some flight →
      (s.register caller key).flights[id]? = some flight := by
    intro id flight hflight
    have hlt := (List.getElem?_eq_some_iff.mp hflight).1
    rw [State.register, List.getElem?_append_left hlt, hflight]
  have hnew : ∀ {id : ℕ} {flight : Flight T},
      (s.register caller key).flights[id]? = some flight → s.flights[id]? = some flight ∨
        id = s.flights.length ∧ flight = ⟨key, .registered, none, false⟩ := by
    intro id flight hflight
    rw [State.register] at hflight
    by_cases hlt : id < s.flights.length
    · rw [List.getElem?_append_left hlt] at hflight
      exact .inl hflight
    · rw [List.getElem?_append_right (not_lt.mp hlt)] at hflight
      obtain ⟨hzero, rfl⟩ : id - s.flights.length = 0 ∧
          (⟨key, .registered, none, false⟩ : Flight T) = flight := by
        cases hindex : id - s.flights.length with
        | zero => simpa [hindex] using hflight
        | succ n => simp [hindex] at hflight
      exact .inr ⟨by omega, rfl⟩
  have hlast : (s.register caller key).flights[s.flights.length]? =
      some ⟨key, .registered, none, false⟩ := by
    simp [State.register]
  have hfresh : ∀ other, s.calls other ≠ some (.leading s.flights.length) := by
    intro other hcall
    obtain ⟨flight, hflight, -⟩ := h.leading other _ hcall
    rw [List.getElem?_eq_none le_rfl] at hflight
    cases hflight
  constructor
  case flights =>
    intro id flight hflight
    rw [flightEvents_append_call]
    rcases hnew hflight with hflight' | ⟨rfl, rfl⟩
    · exact h.flights id flight hflight'
    · exact ⟨h.unborn _ le_rfl, rfl, rfl⟩
  case unborn =>
    intro id hid
    rw [flightEvents_append_call]
    refine h.unborn id (le_trans ?_ hid)
    simp [State.register]
  case registered =>
    intro key' id
    rw [show (s.register caller key).inflight = s.inflight.insert key s.flights.length from rfl,
      Indexed.getElem?_insert_eq_some]
    constructor
    · rintro (⟨rfl, rfl⟩ | ⟨hne, hother⟩)
      · exact ⟨_, hlast, rfl, rfl⟩
      · obtain ⟨flight, hflight, hkey', hlive⟩ := (h.registered _ _).mp hother
        exact ⟨flight, hold hflight, hkey', hlive⟩
    · rintro ⟨flight, hflight, rfl, hlive⟩
      rcases hnew hflight with hflight' | ⟨rfl, rfl⟩
      · have hother := h.inflight_eq hflight' hlive
        refine .inr ⟨fun heq => ?_, hother⟩
        rw [heq, hkey] at hother
        cases hother
      · exact .inl ⟨rfl, rfl⟩
  case calls =>
    intro other
    by_cases hother : other = caller
    · rw [hother, callEvents_append_self, hself]
      have hnone := h.calls caller
      rw [hfree] at hnone
      have hempty : callEvents caller trace = [] := hnone
      rw [hempty]
      rfl
    · rw [callEvents_append_of_ne (Ne.symm hother), hcalls other hother]
      exact (h.calls other).append _
  case known =>
    intro other id hcall
    have hlength : s.flights.length ≤ (s.register caller key).flights.length := by
      simp [State.register]
    by_cases hother : other = caller
    · rw [hother, hself] at hcall
      cases hcall
    · rw [hcalls other hother] at hcall
      exact (h.known other id hcall).trans_le hlength
  case leading =>
    intro other id hcall
    by_cases hother : other = caller
    · rw [hother, hself] at hcall
      obtain rfl := Call.leading.inj (Option.some.inj hcall)
      exact ⟨_, hlast, rfl⟩
    · rw [hcalls other hother] at hcall
      obtain ⟨flight, hflight, hphase⟩ := h.leading other id hcall
      exact ⟨flight, hold hflight, hphase⟩
  case leader =>
    intro other other' id hcall hcall'
    by_cases hother : other = caller <;> by_cases hother' : other' = caller
    · exact hother.trans hother'.symm
    · rw [hother, hself] at hcall
      obtain rfl := Call.leading.inj (Option.some.inj hcall)
      rw [hcalls other' hother'] at hcall'
      exact absurd hcall' (hfresh other')
    · rw [hother', hself] at hcall'
      obtain rfl := Call.leading.inj (Option.some.inj hcall')
      rw [hcalls other hother] at hcall
      exact absurd hcall (hfresh other)
    · rw [hcalls other hother] at hcall
      rw [hcalls other' hother'] at hcall'
      exact h.leader other other' id hcall hcall'
  case led =>
    intro id flight hflight hphase
    rcases hnew hflight with hflight' | ⟨rfl, -⟩
    · obtain ⟨other, hcall⟩ := h.led id flight hflight' hphase
      refine ⟨other, ?_⟩
      rw [hcalls other fun heq => ?_, hcall]
      rw [heq, hfree] at hcall
      cases hcall
    · exact ⟨caller, hself⟩

/-- The leader spawns the task of its flight, and waits like the others. -/
theorem spawn (h : Sound trace s) (hcall : s.calls caller = some (.leading id)) :
    Sound (trace ++ [.spawned caller]) ((s.setPhase id .spawned).setCall caller (.waiting id)) := by
  obtain ⟨flight, hflight, hphase⟩ := h.leading caller id hcall
  have htold := h.flights id flight hflight
  rw [Flight.Told, hphase] at htold
  have hsame : ∀ {other : ℕ}, other ≠ id →
      (s.setPhase id .spawned).flights[other]? = s.flights[other]? := by
    intro other hne
    simp [State.setPhase, Ne.symm hne]
  have hself : (s.setPhase id .spawned).flights[id]? = some { flight with phase := .spawned } := by
    simp [State.setPhase, hflight]
  constructor
  case flights =>
    intro other flight' hflight'
    rw [flightEvents_append_spawned]
    by_cases hother : other = id
    · rw [hother] at hflight' ⊢
      obtain rfl := Option.some.inj (hself.symm.trans hflight')
      exact htold
    · exact h.flights other flight' ((hsame hother).symm.trans hflight')
  case unborn =>
    intro other hother
    rw [flightEvents_append_spawned]
    refine h.unborn other (le_of_eq_of_le ?_ hother)
    simp [State.setPhase, State.setCall]
  case registered =>
    intro key other
    refine (h.registered key other).trans ?_
    by_cases hother : other = id
    · rw [hother]
      constructor
      · rintro ⟨flight', hflight', hkey, -⟩
        rw [hflight] at hflight'
        obtain rfl := Option.some.inj hflight'
        exact ⟨_, hself, hkey, rfl⟩
      · rintro ⟨flight', hflight', hkey, -⟩
        obtain rfl := Option.some.inj (hself.symm.trans hflight')
        exact ⟨flight, hflight, hkey, by rw [hphase]; rfl⟩
    · exact exists_congr fun flight' => and_congr_left' (by rw [← hsame hother]; rfl)
  case calls =>
    intro other
    rw [callEvents_append_spawned]
    by_cases hother : other = caller
    · rw [hother, State.calls_setCall_self]
      have htold := h.calls caller
      rw [hcall] at htold
      exact htold
    · rw [State.calls_setCall_of_ne _ hother]
      exact (h.calls other).append _
  case known =>
    intro other id' hcall'
    have hlength : (s.setPhase id .spawned).flights.length = s.flights.length := by
      simp [State.setPhase]
    rw [State.setCall, hlength]
    by_cases hother : other = caller
    · rw [hother, State.calls_setCall_self] at hcall'
      obtain rfl := Call.waiting.inj (Option.some.inj hcall')
      exact (List.getElem?_eq_some_iff.mp hflight).1
    · rw [State.calls_setCall_of_ne _ hother] at hcall'
      exact h.known other id' hcall'
  case leading =>
    intro other id' hcall'
    by_cases hother : other = caller
    · rw [hother, State.calls_setCall_self] at hcall'
      cases hcall'
    · rw [State.calls_setCall_of_ne _ hother] at hcall'
      obtain ⟨flight', hflight', hphase'⟩ := h.leading other id' hcall'
      have hid : id' ≠ id := by
        rintro rfl
        exact hother (h.leader other caller _ hcall' hcall)
      exact ⟨flight', (hsame hid).trans hflight', hphase'⟩
  case leader =>
    intro other other' id' hcall' hcall''
    by_cases hother : other = caller
    · rw [hother, State.calls_setCall_self] at hcall'
      cases hcall'
    by_cases hother' : other' = caller
    · rw [hother', State.calls_setCall_self] at hcall''
      cases hcall''
    rw [State.calls_setCall_of_ne _ hother] at hcall'
    rw [State.calls_setCall_of_ne _ hother'] at hcall''
    exact h.leader other other' id' hcall' hcall''
  case led =>
    intro other flight' hflight' hphase'
    by_cases hother : other = id
    · rw [hother] at hflight'
      obtain rfl := Option.some.inj (hself.symm.trans hflight')
      cases hphase'
    · obtain ⟨p, hp⟩ := h.led other flight' ((hsame hother).symm.trans hflight') hphase'
      refine ⟨p, ?_⟩
      have hne : p ≠ caller := by
        rintro rfl
        rw [hcall] at hp
        exact hother (Call.leading.inj (Option.some.inj hp)).symm
      rw [State.calls_setCall_of_ne _ hne]
      exact hp

end Sound

/-- What a flight which receives its answer has done. -/
theorem Flight.Told.yields {events : List (FlightEvent T)} {value : T}
    (h : flight.Told id events) (hanswer : flight.answer = some value) :
    ∃ outcome ∈ events, outcome.Yields value := by
  have hnone : flight.sent = none → flight.closed = false → False := by
    intro hsent hclosed
    rw [Flight.answer, hsent, hclosed] at hanswer
    cases hanswer
  rw [Flight.Told] at h
  split at h
  · exact (hnone h.2.1 h.2.2).elim
  · exact (hnone h.2.1 h.2.2).elim
  · exact (hnone h.2.1 h.2.2).elim
  · obtain ⟨outcome, -, -, hsent, hclosed⟩ := h
    exact (hnone hsent hclosed).elim
  · exact (hnone h.2.1 h.2.2).elim
  · obtain ⟨-, outcome, -, -, hsent, hclosed⟩ := h
    exact (hnone hsent hclosed).elim
  · rcases h with ⟨value', outcome, hyields, rfl, hsent⟩ | ⟨rfl, hsent, hclosed⟩
    · rw [Flight.answer, hsent, Option.some_or] at hanswer
      obtain rfl := Option.some.inj hanswer
      exact ⟨outcome, by simp, hyields⟩
    · rw [Flight.answer, hsent, hclosed] at hanswer
      obtain rfl := Option.some.inj hanswer
      exact ⟨.panicked, by simp, rfl⟩

/-- A caller which waits has only joined its flight. -/
theorem Sound.callEvents_waiting (h : Sound trace s) (hcall : s.calls caller = some (.waiting id)) :
    callEvents caller trace = [.joined id] := by
  have htold := h.calls caller
  rw [hcall] at htold
  exact htold

theorem Sound.callEvents_free (h : Sound trace s) (hcall : s.calls caller = none) :
    callEvents caller trace = [] := by
  have htold := h.calls caller
  rw [hcall] at htold
  exact htold

/-- What one step keeps. -/
theorem Step.sound (hstep : Step s event t) (h : Sound trace s) : Sound (trace ++ [event]) t := by
  cases hstep with
  | @refuse caller key limit hfree henter =>
      refine h.setCall (not_leading_of_free hfree) (fun _ h => nomatch h) (fun _ h => nomatch h) ?_
      rw [h.callEvents_free hfree]
      exact .inl ⟨key, limit, rfl⟩
  | @join caller key limit flight hfree henter =>
      refine h.setCall (not_leading_of_free hfree) (fun _ h => nomatch h) (fun id hid => ?_) ?_
      · obtain rfl := Call.waiting.inj hid
        obtain ⟨flight', hflight', -⟩ := (h.registered _ _).mp (enter_joined henter)
        exact (List.getElem?_eq_some_iff.mp hflight').1
      · rw [h.callEvents_free hfree]
        rfl
  | lead hfree henter =>
      obtain ⟨hkey, rfl⟩ := enter_led henter
      exact h.register hfree hkey
  | spawn hcall => exact h.spawn hcall
  | @start id flight hflight hphase =>
      have htold := h.flights id flight hflight
      rw [Flight.Told, hphase] at htold
      refine h.setPhase hflight ?_ ?_ ?_ ?_ rfl
      · exact ⟨by rw [htold.1]; rfl, htold.2⟩
      · rw [hphase]; exact nofun
      · exact nofun
      · rw [hphase]; rfl
  | @complete id flight value hflight hphase =>
      have htold := h.flights id flight hflight
      rw [Flight.Told, hphase] at htold
      refine h.setPhase hflight ?_ ?_ ?_ ?_ rfl
      · exact ⟨.completed value, rfl, by rw [htold.1]; rfl, htold.2⟩
      · rw [hphase]; exact nofun
      · exact nofun
      · rw [hphase]; rfl
  | @timeOut id flight hflight hphase =>
      have htold := h.flights id flight hflight
      rw [Flight.Told, hphase] at htold
      refine h.setPhase hflight ?_ ?_ ?_ ?_ rfl
      · exact ⟨.timedOut, rfl, by rw [htold.1]; rfl, htold.2⟩
      · rw [hphase]; exact nofun
      · exact nofun
      · rw [hphase]; rfl
  | @panic id flight hflight hphase =>
      have htold := h.flights id flight hflight
      rw [Flight.Told, hphase] at htold
      refine h.setPhase hflight ?_ ?_ ?_ ?_ rfl
      · exact ⟨by rw [htold.1]; rfl, htold.2⟩
      · rw [hphase]; exact nofun
      · exact nofun
      · rw [hphase]; rfl
  | @remove id flight value hflight hphase =>
      have hlive : flight.phase.live = true := by rw [hphase]; rfl
      have htold := h.flights id flight hflight
      rw [Flight.Told, hphase] at htold
      obtain ⟨outcome, hyields, hevents, hchannel⟩ := htold
      rw [h.inflight_eq hflight hlive]
      refine h.unregister hflight rfl ?_ ?_ rfl hlive
      · exact ⟨rfl, outcome, hyields, by rw [hevents]; rfl, hchannel⟩
      · rw [hphase]; exact nofun
  | @cleanUp id flight hflight hphase =>
      have hlive : flight.phase.live = true := by rw [hphase]; rfl
      have htold := h.flights id flight hflight
      rw [Flight.Told, hphase] at htold
      obtain ⟨hevents, hsent, -⟩ := htold
      rw [h.inflight_eq hflight hlive, cleanUp_eq]
      refine h.unregister hflight rfl ?_ ?_ rfl hlive
      · exact .inr ⟨by rw [hevents]; rfl, hsent, rfl⟩
      · rw [hphase]; exact nofun
  | @publish id flight sender value hflight hphase =>
      have hlive : flight.phase.live = false := by rw [hphase]; rfl
      have htold := h.flights id flight hflight
      rw [Flight.Told, hphase] at htold
      obtain ⟨rfl, outcome, hyields, hevents, -⟩ := htold
      rw [publish_eq]
      refine h.advance hflight rfl ?_ ?_ nofun (fun h => nomatch h) fun key other => ?_
      · exact .inl ⟨value, outcome, hyields, by rw [hevents]; rfl, rfl⟩
      · rw [hphase]; exact nofun
      · refine (and_iff_left_of_imp fun hother hid => ?_).symm
        obtain ⟨flight', hflight', -, hlive'⟩ := (h.registered _ _).mp hother
        rw [hid, hflight] at hflight'
        obtain rfl := Option.some.inj hflight'
        rw [hlive] at hlive'
        cases hlive'
  | @receive caller id flight value hcall hflight hanswer =>
      refine h.setCall (not_leading_of_waiting hcall) (fun _ h => nomatch h)
        (fun _ h => nomatch h) ?_
      rw [h.callEvents_waiting hcall]
      obtain ⟨outcome, hmem, hyields⟩ := (h.flights id flight hflight).yields hanswer
      exact .inr ⟨id, .inr ⟨value, rfl, outcome, by rwa [flightEvents_append_call], hyields⟩⟩
  | @cancel caller id hcall =>
      refine h.setCall (not_leading_of_waiting hcall) (fun _ h => nomatch h)
        (fun _ h => nomatch h) ?_
      rw [h.callEvents_waiting hcall]
      exact .inr ⟨id, .inl rfl⟩

theorem sound_of_run (h : StepPath Step (State.init T) trace s) : Sound trace s :=
  h.history sound_init fun _ _ _ _ hsound hstep => hstep.sound hsound

/-- What is true of every run. -/
structure FlightLaw (trace : List (Event T)) (s : State T) : Prop where
  /-- Under one key at most one flight is registered. -/
  registered : ∀ (id id' : ℕ) flight flight', s.flights[id]? = some flight →
    s.flights[id']? = some flight' → flight.phase.live = true → flight'.phase.live = true →
    flight.key = flight'.key → id = id'
  /-- The closure of a flight is started once, and it ends in one way; then the flight removes
  and answers itself and no other. -/
  flights : ∀ id, ∃ outcome : FlightEvent T, (∃ value, outcome.Yields value) ∧
    flightEvents id trace <+: [.started, outcome, .removed (some id), .published (some id)]
  /-- A call is refused, or it joins one flight, and returns what this flight yields. -/
  calls : ∀ caller, callEvents caller trace = [] ∨
    (∃ key limit, callEvents caller trace = [.refused key limit default]) ∨
    ∃ id, callEvents caller trace = [.joined id] ∨ callEvents caller trace = [.joined id, .cancelled] ∨
      ∃ value, callEvents caller trace = [.joined id, .returned value] ∧
        ∃ outcome ∈ flightEvents id trace, outcome.Yields value
  refused : ∀ caller key limit value t, Step s (.call caller (.refused key limit value)) t →
    value = default ∧ (limit = 0 ∨ s.inflight[key]? = none ∧ limit ≤ s.inflight.size)
  /-- A key all of whose flights have finished is free. -/
  free : ∀ key : String, (∀ (id : ℕ) flight, s.flights[id]? = some flight → flight.key = key →
    ∃ sender, .removed sender ∈ flightEvents id trace) → s.inflight[key]? = none
  /-- A flight which has not ended can go on, on its own or by the caller which leads it. -/
  proceeds : ∀ (id : ℕ) flight, s.flights[id]? = some flight → flight.phase ≠ .ended →
    ∃ event t, Step s event t ∧ ((∃ caller, event = .spawned caller ∧
      s.calls caller = some (.leading id)) ∨ ∃ e, event = .flight id e)
  /-- A caller which waits can receive its answer when its flight has ended. -/
  answered : ∀ caller id, s.calls caller = some (.waiting id) →
    ∃ flight, s.flights[id]? = some flight ∧
      (flight.phase = .ended → ∃ value, flight.answer = some value)

theorem Flight.Told.inOrder {events : List (FlightEvent T)} (h : flight.Told id events) :
    ∃ outcome : FlightEvent T, (∃ value, outcome.Yields value) ∧
      events <+: [.started, outcome, .removed (some id), .published (some id)] := by
  rw [Flight.Told] at h
  split at h
  · exact ⟨.panicked, ⟨default, rfl⟩, by simp [h.1]⟩
  · exact ⟨.panicked, ⟨default, rfl⟩, by simp [h.1]⟩
  · exact ⟨.panicked, ⟨default, rfl⟩, by simp [h.1]⟩
  · obtain ⟨outcome, hyields, rfl, -⟩ := h
    exact ⟨outcome, ⟨_, hyields⟩, by simp⟩
  · exact ⟨.panicked, ⟨default, rfl⟩, by simp [h.1]⟩
  · obtain ⟨-, outcome, hyields, rfl, -⟩ := h
    exact ⟨outcome, ⟨_, hyields⟩, by simp⟩
  · rcases h with ⟨value, outcome, hyields, rfl, -⟩ | ⟨rfl, -⟩
    · exact ⟨outcome, ⟨_, hyields⟩, [], rfl⟩
    · exact ⟨.panicked, ⟨default, rfl⟩, by simp⟩

/-- A flight which has been removed from the map is not live. -/
theorem Flight.Told.live_eq_false {events : List (FlightEvent T)} {sender : Option ℕ}
    (h : flight.Told id events) (hmem : .removed sender ∈ events) : flight.phase.live = false := by
  rw [Flight.Told] at h
  split at h
  · simp [h.1] at hmem
  · simp [h.1] at hmem
  · simp [h.1] at hmem
  · obtain ⟨outcome, hyields, rfl, -⟩ := h
    rcases List.mem_cons.mp hmem with heq | hmem'
    · cases heq
    · rw [← List.mem_singleton.mp hmem'] at hyields
      exact hyields.elim
  · simp [h.1] at hmem
  · next hphase => rw [hphase]; rfl
  · next hphase => rw [hphase]; rfl

theorem Flight.Told.answer {events : List (FlightEvent T)} (h : flight.Told id events)
    (hphase : flight.phase = .ended) : ∃ value, flight.answer = some value := by
  rw [Flight.Told, hphase] at h
  rcases h with ⟨value, outcome, -, -, hsent⟩ | ⟨-, hsent, hclosed⟩
  · exact ⟨value, by rw [Flight.answer, hsent, Option.some_or]⟩
  · exact ⟨default, by rw [Flight.answer, hsent, hclosed]; rfl⟩

theorem Sound.proceeds (h : Sound trace s) (hflight : s.flights[id]? = some flight)
    (hended : flight.phase ≠ .ended) : ∃ event t, Step s event t ∧
      ((∃ caller, event = .spawned caller ∧ s.calls caller = some (.leading id)) ∨
        ∃ e, event = .flight id e) := by
  cases hphase : flight.phase with
  | registered =>
      obtain ⟨caller, hcall⟩ := h.led id flight hflight hphase
      exact ⟨_, _, .spawn hcall, .inl ⟨caller, rfl, hcall⟩⟩
  | spawned => exact ⟨_, _, .start hflight hphase, .inr ⟨_, rfl⟩⟩
  | running => exact ⟨_, _, .timeOut hflight hphase, .inr ⟨_, rfl⟩⟩
  | finished value => exact ⟨_, _, .remove hflight hphase, .inr ⟨_, rfl⟩⟩
  | unwinding => exact ⟨_, _, .cleanUp hflight hphase, .inr ⟨_, rfl⟩⟩
  | sending sender value => exact ⟨_, _, .publish hflight hphase, .inr ⟨_, rfl⟩⟩
  | ended => exact absurd hphase hended

theorem flightLaw_of_run (h : StepPath Step (State.init T) trace s) : FlightLaw trace s := by
  have hsound := sound_of_run h
  constructor
  case registered =>
    intro id id' flight flight' hflight hflight' hlive hlive' hkey
    have hid := hsound.inflight_eq hflight hlive
    rw [hkey, hsound.inflight_eq hflight' hlive'] at hid
    exact (Option.some.inj hid).symm
  case flights =>
    intro id
    cases hflight : s.flights[id]? with
    | none =>
        rw [hsound.unborn id (List.getElem?_eq_none_iff.mp hflight)]
        exact ⟨.panicked, ⟨default, rfl⟩, _, rfl⟩
    | some flight => exact (hsound.flights id flight hflight).inOrder
  case calls =>
    intro caller
    have htold := hsound.calls caller
    cases hcall : s.calls caller with
    | none =>
        rw [hcall] at htold
        exact .inl htold
    | some call =>
        rw [hcall] at htold
        cases call with
        | leading id => exact .inr (.inr ⟨id, .inl htold⟩)
        | waiting id => exact .inr (.inr ⟨id, .inl htold⟩)
        | settled =>
            rcases htold with hrefused | ⟨id, hcancelled | hreturned⟩
            · exact .inr (.inl hrefused)
            · exact .inr (.inr ⟨id, .inr (.inl hcancelled)⟩)
            · exact .inr (.inr ⟨id, .inr (.inr hreturned)⟩)
  case refused =>
    intro caller key limit value t hstep
    cases hstep with
    | refuse hfree henter => exact ⟨rfl, enter_refused henter⟩
  case free =>
    intro key hfinished
    refine Option.eq_none_iff_forall_ne_some.mpr fun id hid => ?_
    obtain ⟨flight, hflight, hkey, hlive⟩ := (hsound.registered _ _).mp hid
    obtain ⟨sender, hmem⟩ := hfinished id flight hflight hkey
    rw [(hsound.flights id flight hflight).live_eq_false hmem] at hlive
    cases hlive
  case proceeds => exact fun id flight hflight hended => hsound.proceeds hflight hended
  case answered =>
    intro caller id hcall
    have hflight := List.getElem?_eq_getElem (hsound.known caller id hcall)
    exact ⟨_, hflight, (hsound.flights id _ hflight).answer⟩

section ZeroLimit

/-- A caller leads a flight of its key, which is running. -/
def runningTrace : List (Event ℕ) := [.call 0 (.joined 0), .spawned 0, .flight 0 .started]

def runningState : State ℕ :=
  (((State.init ℕ).register 0 "key").setPhase 0 .spawned).setCall 0 (.waiting 0) |>.setPhase 0
    .running

theorem running_run : StepPath Step (State.init ℕ) runningTrace runningState := by
  have henter : (State.init ℕ).enter "key" 1 = .led 0 := by simp [State.enter, State.init]
  exact .cons (.lead rfl henter) <| .cons (@Step.spawn _ _ _ 0 0 rfl) <|
    .cons (@Step.start _ _ _ 0 _ rfl rfl) (.nil _)

/-- A second caller with the limit zero is refused; then the flight yields a value. -/
def zeroLimitTrace : List (Event ℕ) := runningTrace ++
  [.call 1 (.refused "key" 0 0), .flight 0 (.completed 7), .flight 0 (.removed (some 0)),
    .flight 0 (.published (some 0)), .call 0 (.returned 7)]

theorem inflight_runningState : runningState.inflight["key"]? = some 0 := by
  simp [runningState, State.setPhase, State.setCall, State.register, State.init]

def finishedState : State ℕ := (runningState.setCall 1 .settled).setPhase 0 (.finished 7)

def sendingState : State ℕ :=
  (finishedState.setPhase 0 (.sending (some 0) 7)).unregister "key"

theorem remove_finishedState :
    Step finishedState (.flight 0 (.removed (some 0))) sendingState := by
  have hremove := @Step.remove ℕ _ finishedState 0 ⟨"key", .finished 7, none, false⟩ 7 rfl rfl
  have hsender : finishedState.inflight["key"]? = some 0 := inflight_runningState
  simp only [hsender] at hremove
  exact hremove

theorem flightLaw_of_run_zero : ∃ s, FlightLaw zeroLimitTrace s :=
  ⟨_, flightLaw_of_run <| running_run.append <|
    .cons (@Step.refuse ℕ _ runningState 1 "key" 0 rfl rfl) <|
    .cons (@Step.complete ℕ _ _ 0 ⟨"key", .running, none, false⟩ 7 rfl rfl) <|
    .cons remove_finishedState <|
    .cons (@Step.publish ℕ _ sendingState 0 ⟨"key", .sending (some 0) 7, none, false⟩ (some 0) 7
      rfl rfl) <|
    .cons (@Step.receive ℕ _ _ 0 0 ⟨"key", .ended, some 7, true⟩ 7 rfl rfl rfl) (.nil _)⟩

/-- A call whose limit is zero is refused although it would not lead. -/
theorem not_refused_only_as_leader :
    ¬∀ (trace : List (Event ℕ)) (s t : State ℕ) (caller : ℕ) (key : String) (limit value : ℕ),
      StepPath Step (State.init ℕ) trace s →
      Step s (.call caller (.refused key limit value)) t → s.inflight[key]? = none := by
  intro h
  have hstep : Step runningState (.call 1 (.refused "key" 0 0)) _ :=
    @Step.refuse _ _ _ 1 "key" 0 rfl rfl
  have hnone := h _ _ _ _ _ _ _ running_run hstep
  rw [inflight_runningState] at hnone
  cases hnone

end ZeroLimit

end History

end SingleFlight

end Rsctf
