import Rsctf.Data.Path
import Rsctf.Data.Tally

/-!
# Weighted admission

Referee work is admitted by weight, up to a limit for each scope and one for all scopes.  A
scope has a counter as long as somebody may use it: the map of the scopes keeps one
reference to it, and every call and every permit another.  The last one to leave takes an
idle counter out of the map, and knows that it is the last one by the number of references.

The steps are single operations on the counters, on their numbers of references and on the
map, and a section under the lock of a map entry is several of them.  A step that gives the
lock back does so together with its last look at the counter.
-/

namespace Rsctf

namespace KingOfTheHill

namespace WeightedAdmission

def usizeCard : ℕ := 2 ^ 64

def checkedAdd (a b : ℕ) : Option ℕ := if a + b < usizeCard then some (a + b) else none

def wrappingSub (a b : ℕ) : ℕ := if b ≤ a then a - b else a + usizeCard - b

/-- What `fetch_update` stores, if it does. -/
def reserve (weight limit active : ℕ) : Option ℕ :=
  (checkedAdd active weight).filter fun next => next ≤ limit

/-- The limits, and the shard of the map in which a scope lies. -/
structure Gate where
  globalLimit : ℕ
  scopeLimit : String → ℕ
  shard : String → ℕ

/-- Where a call or a drop stands while it refers to a counter. -/
inductive Stage
  | cloned
  | scoped
  | rejected
  | holding
  | released
  | idle
  | checking
  | locked
  | zero
  | unique
  | removed
  | leaving
deriving DecidableEq, Repr

inductive Phase
  | entering
  | held (stage : Stage) (counter : ℕ)
  | done
deriving DecidableEq, Repr

/-- A call, and the permit it has given out. -/
structure Process where
  scope : String
  weight : ℕ
  phase : Phase
deriving DecidableEq, Repr

/-- A counter, for the scope for which it was made, and the number of references to it. -/
structure Counter where
  scope : String
  value : ℕ
  strong : ℕ
deriving DecidableEq, Repr

structure State where
  global : ℕ
  scopes : String → Option ℕ
  counters : List Counter
  locks : ℕ → Bool
  processes : List Process

inductive Event
  | call (scope : String) (weight : ℕ)
  | advance (process : ℕ)
deriving DecidableEq, Repr

/-- What the steps of a process with a counter can read and write. -/
structure View where
  global : ℕ
  counter : Counter
  entry : Option ℕ
  lock : Bool

def init : State := ⟨0, fun _ => none, [], fun _ => false, []⟩

section Steps

variable (gate : Gate)

/-- The next operation of `try_acquire`, of the drop of its permit and of
`remove_idle_scope`. -/
def proceed (p : Process) (id : ℕ) (v : View) : Stage → Option (View × Phase)
  | .cloned =>
    match reserve p.weight (gate.scopeLimit p.scope) v.counter.value with
    | some next => some ({ v with counter := { v.counter with value := next } }, .held .scoped id)
    | none => some (v, .held .idle id)
  | .scoped =>
    match reserve p.weight gate.globalLimit v.global with
    | some next => some ({ v with global := next }, .held .holding id)
    | none => some (v, .held .rejected id)
  | .rejected | .released =>
    some ({ v with counter := { v.counter with value := wrappingSub v.counter.value p.weight } },
      .held .idle id)
  | .holding => some ({ v with global := wrappingSub v.global p.weight }, .held .released id)
  | .idle =>
    if v.counter.value ≠ 0 then some (v, .held .leaving id) else some (v, .held .checking id)
  | .checking =>
    if v.lock then none
    else if v.entry = some id then some ({ v with lock := true }, .held .locked id)
    else some (v, .held .leaving id)
  | .locked =>
    if v.counter.value = 0 then some (v, .held .zero id)
    else some ({ v with lock := false }, .held .leaving id)
  | .zero =>
    if v.counter.strong = 2 then some (v, .held .unique id)
    else some ({ v with lock := false }, .held .leaving id)
  | .unique => some ({ v with entry := none, lock := false }, .held .removed id)
  -- the reference which the map has given up
  | .removed =>
    some ({ v with counter := { v.counter with strong := v.counter.strong - 1 } },
      .held .leaving id)
  | .leaving =>
    some ({ v with counter := { v.counter with strong := v.counter.strong - 1 } }, .done)

namespace State

variable (s : State)

def view (scope : String) (counter : Counter) : View :=
  ⟨s.global, counter, s.scopes scope, s.locks (gate.shard scope)⟩

def write (pid : ℕ) (p : Process) (id : ℕ) (v : View) (phase : Phase) : State where
  global := v.global
  scopes := Function.update s.scopes p.scope v.entry
  counters := s.counters.set id v.counter
  locks := Function.update s.locks (gate.shard p.scope) v.lock
  processes := s.processes.set pid { p with phase := phase }

def call (scope : String) (weight : ℕ) : State :=
  let refused := weight = 0 ∨ gate.scopeLimit scope < weight ∨ gate.globalLimit < weight
  { s with processes := s.processes ++ [⟨scope, weight, if refused then .done else .entering⟩] }

/-- A new counter, to which the map refers. -/
def insert (scope : String) : State :=
  { s with
    scopes := Function.update s.scopes scope (some s.counters.length)
    counters := s.counters ++ [⟨scope, 0, 1⟩] }

def orInsert (scope : String) : State × ℕ :=
  match s.scopes scope with
  | some id => (s, id)
  | none => (s.insert scope, s.counters.length)

/-- The section of a call under the lock of its entry. -/
def enter (pid : ℕ) (p : Process) : Option State :=
  if s.locks (gate.shard p.scope) then none
  else
    let (s, id) := s.orInsert p.scope
    s.counters[id]?.map fun counter =>
      let counter := { counter with strong := counter.strong + 1 }
      s.write gate pid p id (s.view gate p.scope counter) (.held .cloned id)

def advance (pid : ℕ) : Option State :=
  s.processes[pid]?.bind fun p =>
    match p.phase with
    | .entering => s.enter gate pid p
    | .held stage id =>
      s.counters[id]?.bind fun counter =>
        (proceed gate p id (s.view gate p.scope counter) stage).map fun (v, phase) =>
          s.write gate pid p id v phase
    | .done => none

def step : Event → Option State
  | .call scope weight => some (s.call gate scope weight)
  | .advance pid => s.advance gate pid

end State

/-- The step relation of the calls and drops. -/
def Step (s : State) (event : Event) (t : State) : Prop := s.step gate event = some t

end Steps

/-- The weight is counted on the counter of the scope. -/
def Stage.counted : Stage → Bool
  | .scoped | .rejected | .holding | .released => true
  | _ => false

/-- The references of a process; after the removal it has that of the map, too. -/
def Stage.refs : Stage → ℕ
  | .removed => 2
  | _ => 1

def Stage.locking : Stage → Bool
  | .locked | .zero | .unique => true
  | _ => false

/-- The process has still to look for an idle counter. -/
def Stage.pending : Stage → Bool
  | .removed | .leaving => false
  | _ => true

namespace Process

variable (gate : Gate) (shard id : ℕ) (p : Process)

def onCounter : ℕ :=
  match p.phase with
  | .held stage c => if c = id ∧ stage.counted = true then p.weight else 0
  | _ => 0

def refs : ℕ :=
  match p.phase with
  | .held stage c => if c = id then stage.refs else 0
  | _ => 0

/-- The weight of a live permit. -/
def live : ℕ :=
  match p.phase with
  | .held .holding _ => p.weight
  | _ => 0

def locking : ℕ :=
  match p.phase with
  | .held stage _ => if gate.shard p.scope = shard ∧ stage.locking = true then 1 else 0
  | _ => 0

end Process

def total (f : Process → ℕ) (s : State) : ℕ := (s.processes.map f).sum

namespace State

def Holds (s : State) (pid : ℕ) (p : Process) (stage : Stage) (id : ℕ) : Prop :=
  s.processes[pid]? = some p ∧ p.phase = .held stage id

end State

/-- The reference of the map to a counter. -/
def mapRefs (entry : Option ℕ) (id : ℕ) : ℕ := if entry = some id then 1 else 0

/-- What the counters, the references and the locks stand for. -/
structure Sound (gate : Gate) (s : State) : Prop where
  alive : ∀ {pid p stage id}, s.Holds pid p stage id →
    ∃ counter, s.counters[id]? = some counter ∧ counter.scope = p.scope
  entered : ∀ {scope} {id : ℕ}, s.scopes scope = some id →
    ∃ counter, s.counters[id]? = some counter ∧ counter.scope = scope
  mapped : ∀ {pid p stage id}, s.Holds pid p stage id → stage.pending = true →
    s.scopes p.scope = some id
  value : ∀ {id : ℕ} {counter : Counter}, s.counters[id]? = some counter →
    counter.value = total (Process.onCounter id) s
  value_le : ∀ {id : ℕ} {counter : Counter}, s.counters[id]? = some counter →
    counter.value ≤ gate.scopeLimit counter.scope ∧ counter.value < usizeCard
  strong : ∀ {id : ℕ} {counter : Counter}, s.counters[id]? = some counter →
    counter.strong = mapRefs (s.scopes counter.scope) id + total (Process.refs id) s
  global : s.global = total Process.live s
  global_le : s.global ≤ gate.globalLimit ∧ s.global < usizeCard
  locks : ∀ shard, (s.locks shard).toNat = total (Process.locking gate shard) s
  alone : ∀ {pid p id}, s.Holds pid p .unique id →
    ∀ {pid' p' stage}, s.Holds pid' p' stage id → pid' = pid

/-- A step of one process with one counter, which keeps the books. -/
structure Turn (gate : Gate) (s : State) (pid : ℕ) (p : Process) (id : ℕ) (counter : Counter)
    (v : View) (phase : Phase) : Prop where
  process : s.processes[pid]? = some p
  found : s.counters[id]? = some counter
  named : counter.scope = p.scope
  renamed : v.counter.scope = p.scope
  before : ∀ {stage c}, p.phase = .held stage c → c = id
  after : ∀ {stage c}, phase = .held stage c → c = id
  entry : v.entry = s.scopes p.scope ∨ v.entry = none ∧ p.phase = .held .unique id
  mapped : ∀ {stage c}, phase = .held stage c → stage.pending = true → v.entry = some id
  value : v.counter.value + p.onCounter id =
    counter.value + Process.onCounter id { p with phase := phase }
  value_le : v.counter.value ≤ gate.scopeLimit p.scope ∧ v.counter.value < usizeCard
  strong : v.counter.strong + mapRefs (s.scopes p.scope) id + p.refs id =
    counter.strong + mapRefs v.entry id + Process.refs id { p with phase := phase }
  global : v.global + p.live = s.global + Process.live { p with phase := phase }
  global_le : v.global ≤ gate.globalLimit ∧ v.global < usizeCard
  lock : v.lock.toNat + p.locking gate (gate.shard p.scope) =
    (s.locks (gate.shard p.scope)).toNat +
      Process.locking gate (gate.shard p.scope) { p with phase := phase }
  alone : phase = .held .unique id → ∀ {pid' p' stage}, s.Holds pid' p' stage id → pid' = pid
  last : ∀ {pid' p'}, s.Holds pid' p' .unique id → pid' = pid

variable {gate : Gate} {s t : State} {pid pid' id c shard : ℕ} {p p' : Process}
  {counter counter' : Counter} {stage : Stage} {phase : Phase} {v : View} {scope : String}

namespace Process

theorem onCounter_of_held (h : p.phase = .held stage id) :
    p.onCounter id = if stage.counted = true then p.weight else 0 := by
  simp only [onCounter, h, true_and]

theorem refs_of_held (h : p.phase = .held stage id) : p.refs id = stage.refs := by
  simp only [refs, h, reduceIte]

theorem live_of_held (h : p.phase = .held stage id) :
    p.live = if stage = .holding then p.weight else 0 := by
  rw [live, h]
  cases stage <;> rfl

theorem locking_of_held (h : p.phase = .held stage id) :
    p.locking gate (gate.shard p.scope) = if stage.locking = true then 1 else 0 := by
  simp only [locking, h, true_and]

theorem held_of_onCounter (h : 0 < p.onCounter id) :
    ∃ stage, p.phase = .held stage id ∧ stage.counted = true := by
  unfold onCounter at h
  split at h
  next stage c hphase =>
    split at h
    next hc => exact ⟨stage, hc.1 ▸ hphase, hc.2⟩
    next => exact absurd h (lt_irrefl 0)
  next => exact absurd h (lt_irrefl 0)

theorem held_of_refs (h : 0 < p.refs id) : ∃ stage, p.phase = .held stage id := by
  unfold refs at h
  split at h
  next stage c hphase =>
    split at h
    next hc => exact ⟨stage, hc ▸ hphase⟩
    next => exact absurd h (lt_irrefl 0)
  next => exact absurd h (lt_irrefl 0)

theorem onCounter_of_ne (h : ∀ {stage c}, p.phase = .held stage c → c = id) (hne : c ≠ id) :
    p.onCounter c = 0 := by
  unfold onCounter
  split
  next stage d hphase =>
    obtain rfl := h hphase
    exact if_neg fun hd => hne hd.1.symm
  next => rfl

theorem refs_of_ne (h : ∀ {stage c}, p.phase = .held stage c → c = id) (hne : c ≠ id) :
    p.refs c = 0 := by
  unfold refs
  split
  next stage d hphase =>
    obtain rfl := h hphase
    exact if_neg hne.symm
  next => rfl

theorem locking_of_ne (hne : shard ≠ gate.shard p.scope) : p.locking gate shard = 0 := by
  unfold locking
  split
  next => exact if_neg fun hd => hne hd.1.symm
  next => rfl

end Process

namespace Turn

theorem holds_write (turn : Turn gate s pid p id counter v phase) :
    (s.write gate pid p id v phase).Holds pid' p' stage c ↔
      pid' = pid ∧ { p with phase := phase } = p' ∧ phase = .held stage c ∨
        pid' ≠ pid ∧ s.Holds pid' p' stage c := by
  have hset := Tally.getElem?_set_eq_some (b := { p with phase := phase }) (j := pid') (c := p')
    turn.process
  rw [State.Holds, State.write, hset]
  constructor
  · rintro ⟨⟨rfl, rfl⟩ | ⟨hne, hp'⟩, hphase⟩
    · exact .inl ⟨rfl, rfl, hphase⟩
    · exact .inr ⟨hne, hp', hphase⟩
  · rintro (⟨rfl, rfl, hphase⟩ | ⟨hne, hp', hphase⟩)
    · exact ⟨.inl ⟨rfl, rfl⟩, hphase⟩
    · exact ⟨.inr ⟨hne, hp'⟩, hphase⟩

theorem counters_write (turn : Turn gate s pid p id counter v phase) :
    (s.write gate pid p id v phase).counters[c]? = some counter' ↔
      c = id ∧ v.counter = counter' ∨ c ≠ id ∧ s.counters[c]? = some counter' :=
  Tally.getElem?_set_eq_some turn.found

theorem total_write (f : Process → ℕ) (turn : Turn gate s pid p id counter v phase) :
    total f (s.write gate pid p id v phase) + f p = total f s + f { p with phase := phase } :=
  Tally.sum_map_set f turn.process

theorem total_write_of_zero {f : Process → ℕ} (turn : Turn gate s pid p id counter v phase)
    (hp : f p = 0) (hp' : f { p with phase := phase } = 0) :
    total f (s.write gate pid p id v phase) = total f s := by
  have htotal := turn.total_write f
  rwa [hp, hp'] at htotal

theorem counter_kept (turn : Turn gate s pid p id counter v phase)
    (hc : s.counters[c]? = some counter') :
    ∃ counter'', (s.write gate pid p id v phase).counters[c]? = some counter'' ∧
      counter''.scope = counter'.scope := by
  by_cases h : c = id
  · rw [h, turn.found] at hc
    obtain rfl := Option.some.inj hc
    exact ⟨v.counter, turn.counters_write.mpr (.inl ⟨h, rfl⟩), turn.renamed.trans turn.named.symm⟩
  · exact ⟨counter', turn.counters_write.mpr (.inr ⟨h, hc⟩), rfl⟩

theorem scopes_write_self : (s.write gate pid p id v phase).scopes p.scope = v.entry :=
  Function.update_self ..

theorem scopes_write_of_ne (hne : scope ≠ p.scope) :
    (s.write gate pid p id v phase).scopes scope = s.scopes scope :=
  Function.update_of_ne hne ..

theorem locks_write_self :
    (s.write gate pid p id v phase).locks (gate.shard p.scope) = v.lock :=
  Function.update_self ..

theorem locks_write_of_ne (hne : shard ≠ gate.shard p.scope) :
    (s.write gate pid p id v phase).locks shard = s.locks shard :=
  Function.update_of_ne hne ..

theorem scopes_of_write (turn : Turn gate s pid p id counter v phase)
    (hc : (s.write gate pid p id v phase).scopes scope = some c) : s.scopes scope = some c := by
  by_cases h : scope = p.scope
  · rw [h, scopes_write_self] at hc
    rcases turn.entry with hentry | ⟨hentry, _⟩
    · rw [h, ← hentry, hc]
    · rw [hentry] at hc
      cases hc
  · rwa [scopes_write_of_ne h] at hc

/-- An entry is kept unless the process is the only one with its counter. -/
theorem scopes_write (turn : Turn gate s pid p id counter v phase) (h : Sound gate s)
    (hc : s.scopes scope = some c) :
    (s.write gate pid p id v phase).scopes scope = some c ∨
      c = id ∧ ∀ {pid' p' stage}, s.Holds pid' p' stage id → pid' = pid := by
  by_cases hscope : scope = p.scope
  · rw [hscope, scopes_write_self]
    rw [hscope] at hc
    rcases turn.entry with hentry | ⟨_, hunique⟩
    · exact .inl (hentry.trans hc)
    · have hholds : s.Holds pid p .unique id := ⟨turn.process, hunique⟩
      rw [h.mapped hholds rfl] at hc
      exact .inr ⟨(Option.some.inj hc).symm, h.alone hholds⟩
  · exact .inl ((scopes_write_of_ne hscope).trans hc)

end Turn

namespace Sound

theorem init (gate : Gate) : Sound gate init where
  alive h := by cases h.1
  entered h := by cases h
  mapped h := by cases h.1
  value h := by cases h
  value_le h := by cases h
  strong h := by cases h
  global := rfl
  global_le := ⟨Nat.zero_le _, by decide⟩
  locks _ := rfl
  alone h := by cases h.1

/-- A step of one process with one counter. -/
theorem write (h : Sound gate s) (turn : Turn gate s pid p id counter v phase) :
    Sound gate (s.write gate pid p id v phase) where
  alive := by
    intro pid' p' stage c hholds
    rcases turn.holds_write.mp hholds with ⟨_, rfl, hphase⟩ | ⟨_, hold⟩
    · obtain rfl := turn.after hphase
      exact ⟨v.counter, turn.counters_write.mpr (.inl ⟨rfl, rfl⟩), turn.renamed⟩
    · obtain ⟨counter', hc, hscope⟩ := h.alive hold
      obtain ⟨counter'', hc', hscope'⟩ := turn.counter_kept hc
      exact ⟨counter'', hc', hscope'.trans hscope⟩
  entered := by
    intro scope c hentry
    obtain ⟨counter', hc, hscope⟩ := h.entered (turn.scopes_of_write hentry)
    obtain ⟨counter'', hc', hscope'⟩ := turn.counter_kept hc
    exact ⟨counter'', hc', hscope'.trans hscope⟩
  mapped := by
    intro pid' p' stage c hholds hpending
    rcases turn.holds_write.mp hholds with ⟨_, rfl, hphase⟩ | ⟨hne, hold⟩
    · obtain rfl := turn.after hphase
      exact Turn.scopes_write_self.trans (turn.mapped hphase hpending)
    · rcases turn.scopes_write h (h.mapped hold hpending) with hkept | ⟨rfl, hlast⟩
      · exact hkept
      · exact absurd (hlast hold) hne
  value := by
    intro c counter' hc
    rcases turn.counters_write.mp hc with ⟨rfl, rfl⟩ | ⟨hne, hold⟩
    · have htotal := turn.total_write (Process.onCounter c)
      have hvalue := h.value turn.found
      have hturn := turn.value
      omega
    · rw [h.value hold]
      exact (turn.total_write_of_zero (Process.onCounter_of_ne turn.before hne)
        (Process.onCounter_of_ne turn.after hne)).symm
  value_le := by
    intro c counter' hc
    rcases turn.counters_write.mp hc with ⟨rfl, rfl⟩ | ⟨_, hold⟩
    · rw [turn.renamed]
      exact turn.value_le
    · exact h.value_le hold
  strong := by
    intro c counter' hc
    rcases turn.counters_write.mp hc with ⟨rfl, rfl⟩ | ⟨hne, hold⟩
    · have htotal := turn.total_write (Process.refs c)
      have hstrong := h.strong turn.found
      have hturn := turn.strong
      rw [turn.named] at hstrong
      rw [turn.renamed, Turn.scopes_write_self]
      omega
    · have hrefs : mapRefs ((s.write gate pid p id v phase).scopes counter'.scope) c =
          mapRefs (s.scopes counter'.scope) c := by
        refine if_congr ⟨turn.scopes_of_write, fun hentry => ?_⟩ rfl rfl
        rcases turn.scopes_write h hentry with hkept | ⟨hc, _⟩
        · exact hkept
        · exact absurd hc hne
      rw [hrefs, h.strong hold, turn.total_write_of_zero (Process.refs_of_ne turn.before hne)
        (Process.refs_of_ne turn.after hne)]
  global := by
    have htotal := turn.total_write Process.live
    have hglobal := h.global
    have hturn := turn.global
    change v.global = _
    omega
  global_le := turn.global_le
  locks := by
    intro shard
    have htotal := turn.total_write (Process.locking gate shard)
    have hlocks := h.locks shard
    by_cases hshard : shard = gate.shard p.scope
    · subst hshard
      have hturn := turn.lock
      rw [Turn.locks_write_self]
      omega
    · rw [Turn.locks_write_of_ne hshard, hlocks]
      exact (turn.total_write_of_zero (Process.locking_of_ne hshard)
        (Process.locking_of_ne hshard)).symm
  alone := by
    intro pid₁ p₁ c hunique pid₂ p₂ stage hholds
    rcases turn.holds_write.mp hunique with ⟨hpid₁, _, hphase₁⟩ | ⟨hne₁, hold₁⟩
    · rcases turn.holds_write.mp hholds with ⟨hpid₂, _, _⟩ | ⟨_, hold₂⟩
      · exact hpid₂.trans hpid₁.symm
      · obtain rfl := turn.after hphase₁
        exact (turn.alone hphase₁ hold₂).trans hpid₁.symm
    · rcases turn.holds_write.mp hholds with ⟨_, _, hphase₂⟩ | ⟨_, hold₂⟩
      · obtain rfl := turn.after hphase₂
        exact absurd (turn.last hold₁) hne₁
      · exact h.alone hold₁ hold₂

end Sound

/-- What a step of a process needs to know of the counter which it uses. -/
structure Ready (gate : Gate) (p : Process) (id : ℕ) (stage : Stage) (v : View) : Prop where
  phase : p.phase = .held stage id
  named : v.counter.scope = p.scope
  value : (if stage.counted = true then p.weight else 0) ≤ v.counter.value
  value_le : v.counter.value ≤ gate.scopeLimit p.scope ∧ v.counter.value < usizeCard
  strong : stage.refs ≤ v.counter.strong
  global : (if stage = .holding then p.weight else 0) ≤ v.global
  global_le : v.global ≤ gate.globalLimit ∧ v.global < usizeCard
  lock : stage.locking = true → v.lock = true
  mapped : stage.pending = true → v.entry = some id

namespace Ready

variable {w : View}

theorem reserve_eq_some {weight limit active next : ℕ}
    (h : reserve weight limit active = some next) :
    next = active + weight ∧ next ≤ limit ∧ next < usizeCard := by
  obtain ⟨hadd, hle⟩ := Option.filter_eq_some_iff.mp h
  unfold checkedAdd at hadd
  split at hadd
  next hlt =>
    obtain rfl := Option.some.inj hadd
    exact ⟨rfl, by simpa using hle, hlt⟩
  next => cases hadd

theorem value_proceed (h : Ready gate p id stage w)
    (hstep : proceed gate p id w stage = some (v, phase)) :
    v.counter.value + p.onCounter id =
      w.counter.value + Process.onCounter id { p with phase := phase } ∧
    v.counter.value ≤ gate.scopeLimit p.scope ∧ v.counter.value < usizeCard := by
  have hvalue := h.value
  have hle := h.value_le
  revert hstep
  fun_cases proceed gate p id w stage <;> intro hstep <;> cases hstep
  all_goals simp only [Process.onCounter, h.phase, Stage.counted, reduceIte, true_and, and_true,
    Bool.false_eq_true, add_zero] at hvalue ⊢
  case case1.refl next hreserve =>
    obtain ⟨rfl, hbounds⟩ := reserve_eq_some hreserve
    exact ⟨rfl, hbounds⟩
  case case5.refl =>
    rw [wrappingSub, if_pos hvalue]
    omega
  case case6.refl =>
    rw [wrappingSub, if_pos hvalue]
    omega
  all_goals exact hle

theorem global_proceed (h : Ready gate p id stage w)
    (hstep : proceed gate p id w stage = some (v, phase)) :
    v.global + p.live = w.global + Process.live { p with phase := phase } ∧
      v.global ≤ gate.globalLimit ∧ v.global < usizeCard := by
  have hglobal := h.global
  have hle := h.global_le
  revert hstep
  fun_cases proceed gate p id w stage <;> intro hstep <;> cases hstep
  all_goals simp only [Process.live, h.phase, reduceIte, true_and, add_zero] at hglobal ⊢
  case case3.refl next hreserve =>
    obtain ⟨rfl, hbounds⟩ := reserve_eq_some hreserve
    exact ⟨rfl, hbounds⟩
  case case7.refl =>
    rw [wrappingSub, if_pos hglobal]
    omega
  all_goals exact hle

theorem strong_proceed (h : Ready gate p id stage w)
    (hstep : proceed gate p id w stage = some (v, phase)) :
    v.counter.strong + mapRefs w.entry id + p.refs id =
      w.counter.strong + mapRefs v.entry id + Process.refs id { p with phase := phase } := by
  have hstrong := h.strong
  have hmapped := h.mapped
  revert hstep
  fun_cases proceed gate p id w stage <;> intro hstep <;> cases hstep
  all_goals simp only [Process.refs, h.phase, Stage.refs, reduceIte, add_zero] at hstrong ⊢
  case case17.refl => simp [mapRefs, hmapped rfl]
  all_goals omega

theorem lock_proceed (h : Ready gate p id stage w)
    (hstep : proceed gate p id w stage = some (v, phase)) :
    v.lock.toNat + p.locking gate (gate.shard p.scope) =
      w.lock.toNat + Process.locking gate (gate.shard p.scope) { p with phase := phase } := by
  have hlock := h.lock
  revert hstep
  fun_cases proceed gate p id w stage <;> intro hstep <;> cases hstep
  all_goals simp_all [Process.locking, h.phase, Stage.locking]

theorem entry_proceed (h : Ready gate p id stage w)
    (hstep : proceed gate p id w stage = some (v, phase)) :
    (v.entry = w.entry ∨ v.entry = none ∧ p.phase = .held .unique id) ∧
      ∀ {stage c}, phase = .held stage c → c = id ∧ (stage.pending = true → v.entry = some id) := by
  have hmapped := h.mapped
  revert hstep
  fun_cases proceed gate p id w stage <;> intro hstep <;> cases hstep
  all_goals simp only [Stage.pending, forall_const, h.phase, and_self, or_true, true_or, true_and]
    at hmapped ⊢
  all_goals intro stage c hphase
  all_goals cases hphase
  all_goals simp [hmapped]

theorem unique_proceed (hstep : proceed gate p id w stage = some (v, .held .unique c)) :
    w.counter.strong = 2 ∧ stage = .zero := by
  revert hstep
  fun_cases proceed gate p id w stage <;> intro hstep <;> cases hstep
  exact ⟨‹_›, rfl⟩

theorem scope_proceed (hstep : proceed gate p id w stage = some (v, phase)) :
    v.counter.scope = w.counter.scope := by
  revert hstep
  fun_cases proceed gate p id w stage <;> intro hstep <;> cases hstep
  all_goals rfl

end Ready

theorem holds_call {weight : ℕ} :
    (s.call gate scope weight).Holds pid p stage id ↔ s.Holds pid p stage id := by
  rw [State.Holds, State.call, Tally.getElem?_concat_eq_some]
  refine and_congr_left fun hphase => or_iff_right ?_
  rintro ⟨_, rfl⟩
  dsimp only at hphase
  split at hphase <;> cases hphase

theorem total_call (f : Process → ℕ) {weight : ℕ} (hentering : f ⟨scope, weight, .entering⟩ = 0)
    (hdone : f ⟨scope, weight, .done⟩ = 0) : total f (s.call gate scope weight) = total f s := by
  rw [total, State.call, List.map_append, List.sum_append, List.map_singleton, List.sum_singleton]
  split
  next => rw [hdone, add_zero, total]
  next => rw [hentering, add_zero, total]

theorem State.orInsert_processes (scope : String) :
    (s.orInsert scope).1.processes = s.processes := by
  unfold State.orInsert
  split <;> rfl

theorem State.orInsert_locks (scope : String) : (s.orInsert scope).1.locks = s.locks := by
  unfold State.orInsert
  split <;> rfl

theorem counters_insert :
    (s.insert scope).counters[c]? = some counter' ↔
      c = s.counters.length ∧ ⟨scope, 0, 1⟩ = counter' ∨ s.counters[c]? = some counter' :=
  Tally.getElem?_concat_eq_some

theorem scopes_insert {k : String} (hfree : s.scopes scope = none) :
    (s.insert scope).scopes k = some c ↔
      k = scope ∧ c = s.counters.length ∨ s.scopes k = some c := by
  by_cases hk : k = scope
  · subst hk
    simp [State.insert, hfree, eq_comm]
  · simp [State.insert, hk]

namespace Sound

theorem locks_of_locking (h : Sound gate s) (hholds : s.Holds pid p stage id)
    (hlocking : stage.locking = true) : s.locks (gate.shard p.scope) = true := by
  have hle := Tally.le_sum_map (Process.locking gate (gate.shard p.scope)) hholds.1
  rw [Process.locking_of_held hholds.2, if_pos hlocking] at hle
  have hlocks := hle.trans_eq (h.locks (gate.shard p.scope)).symm
  by_contra hfree
  rw [Bool.not_eq_true] at hfree
  rw [hfree] at hlocks
  exact absurd hlocks (by decide)

theorem ready (h : Sound gate s) (hholds : s.Holds pid p stage id)
    (hcounter : s.counters[id]? = some counter) :
    Ready gate p id stage (s.view gate p.scope counter) := by
  obtain ⟨hp, hphase⟩ := hholds
  have hnamed : counter.scope = p.scope := by
    obtain ⟨counter', hcounter', hscope⟩ := h.alive ⟨hp, hphase⟩
    rw [hcounter] at hcounter'
    rwa [Option.some.inj hcounter']
  refine ⟨hphase, hnamed, ?_, hnamed ▸ h.value_le hcounter, ?_, ?_, h.global_le, fun hlocking => ?_,
    h.mapped ⟨hp, hphase⟩⟩
  · rw [← Process.onCounter_of_held hphase]
    exact (Tally.le_sum_map _ hp).trans_eq (h.value hcounter).symm
  · rw [← Process.refs_of_held hphase]
    have hle := Tally.le_sum_map (Process.refs id) hp
    exact (hle.trans (Nat.le_add_left ..)).trans_eq (h.strong hcounter).symm
  · rw [← Process.live_of_held hphase]
    exact (Tally.le_sum_map _ hp).trans_eq h.global.symm
  · exact h.locks_of_locking ⟨hp, hphase⟩ hlocking

/-- A counter with one reference besides that of the map has one holder. -/
theorem alone_of_strong (h : Sound gate s) (hholds : s.Holds pid p stage id)
    (hmapped : s.scopes p.scope = some id) (hcounter : s.counters[id]? = some counter)
    (hnamed : counter.scope = p.scope) (hstrong : counter.strong = 2) :
    ∀ {pid' p' stage'}, s.Holds pid' p' stage' id → pid' = pid := by
  intro pid' p' stage' hholds'
  by_contra hne
  have hrefs : ∀ {q : Process} {stage : Stage}, q.phase = .held stage id → 1 ≤ q.refs id := by
    intro q stage hphase
    rw [Process.refs_of_held hphase]
    cases stage <;> decide
  have htwo := Tally.add_le_sum_map (Process.refs id) hne hholds'.1 hholds.1
  have hone := hrefs hholds.2
  have hone' := hrefs hholds'.2
  have hsum := h.strong hcounter
  rw [hstrong, hnamed, hmapped, mapRefs, if_pos rfl] at hsum
  rw [total] at hsum
  omega

theorem turn_of_proceed (h : Sound gate s) (hholds : s.Holds pid p stage id)
    (hcounter : s.counters[id]? = some counter)
    (hstep : proceed gate p id (s.view gate p.scope counter) stage = some (v, phase)) :
    Turn gate s pid p id counter v phase where
  process := hholds.1
  found := hcounter
  named := (h.ready hholds hcounter).named
  renamed := (Ready.scope_proceed hstep).trans (h.ready hholds hcounter).named
  before hphase := by
    rw [hholds.2] at hphase
    cases hphase
    rfl
  after hphase := (((h.ready hholds hcounter).entry_proceed hstep).2 hphase).1
  entry := ((h.ready hholds hcounter).entry_proceed hstep).1
  mapped hphase := (((h.ready hholds hcounter).entry_proceed hstep).2 hphase).2
  value := ((h.ready hholds hcounter).value_proceed hstep).1
  value_le := ((h.ready hholds hcounter).value_proceed hstep).2
  strong := (h.ready hholds hcounter).strong_proceed hstep
  global := ((h.ready hholds hcounter).global_proceed hstep).1
  global_le := ((h.ready hholds hcounter).global_proceed hstep).2
  lock := (h.ready hholds hcounter).lock_proceed hstep
  alone := by
    rintro rfl
    obtain ⟨hstrong, rfl⟩ := Ready.unique_proceed hstep
    have hready := h.ready hholds hcounter
    intro pid' p' stage' hholds'
    exact h.alone_of_strong hholds (hready.mapped rfl) hcounter hready.named hstrong hholds'
  last hunique := (h.alone hunique hholds).symm

/-- A process without a counter joins. -/
theorem call (h : Sound gate s) (scope : String) (weight : ℕ) :
    Sound gate (s.call gate scope weight) where
  alive hholds := h.alive (holds_call.mp hholds)
  entered := h.entered
  mapped hholds := h.mapped (holds_call.mp hholds)
  value hcounter := by
    rw [total_call _ rfl rfl]
    exact h.value hcounter
  value_le := h.value_le
  strong hcounter := by
    rw [total_call _ rfl rfl]
    exact h.strong hcounter
  global := by
    rw [total_call _ rfl rfl]
    exact h.global
  global_le := h.global_le
  locks shard := by
    rw [total_call _ rfl rfl]
    exact h.locks shard
  alone hunique := by
    intro pid' p' stage hholds
    exact h.alone (holds_call.mp hunique) (holds_call.mp hholds)

/-- Nobody holds a counter which has not been made. -/
theorem total_eq_zero {f : Process → ℕ} (h : Sound gate s)
    (hf : ∀ {p}, 0 < f p → ∃ stage, p.phase = .held stage id) (hid : s.counters.length ≤ id) :
    total f s = 0 := by
  by_contra hpos
  obtain ⟨pid, p, hp, hfp⟩ := Tally.exists_of_sum_map_pos (Nat.pos_of_ne_zero hpos)
  obtain ⟨stage, hphase⟩ := hf hfp
  obtain ⟨counter, hcounter, _⟩ := h.alive ⟨hp, hphase⟩
  exact absurd (List.getElem?_eq_some_iff.mp hcounter).1 (not_lt.mpr hid)

/-- A new counter has no holder yet. -/
theorem insert (h : Sound gate s) (hfree : s.scopes scope = none) :
    Sound gate (s.insert scope) where
  alive hholds := by
    obtain ⟨counter, hcounter, hscope⟩ := h.alive hholds
    exact ⟨counter, Tally.getElem?_concat_eq_some.mpr (.inr hcounter), hscope⟩
  entered hentry := by
    rcases (scopes_insert hfree).mp hentry with ⟨rfl, rfl⟩ | hold
    · exact ⟨_, counters_insert.mpr (.inl ⟨rfl, rfl⟩), rfl⟩
    · obtain ⟨counter, hcounter, hscope⟩ := h.entered hold
      exact ⟨counter, counters_insert.mpr (.inr hcounter), hscope⟩
  mapped hholds hpending := (scopes_insert hfree).mpr (.inr (h.mapped hholds hpending))
  value hcounter := by
    rcases counters_insert.mp hcounter with ⟨rfl, rfl⟩ | hold
    · have hheld : ∀ {p : Process}, 0 < p.onCounter s.counters.length →
          ∃ stage, p.phase = .held stage s.counters.length :=
        fun hp => (Process.held_of_onCounter hp).imp fun _ => And.left
      exact (h.total_eq_zero hheld le_rfl).symm
    · exact h.value hold
  value_le hcounter := by
    rcases counters_insert.mp hcounter with ⟨_, rfl⟩ | hold
    · exact ⟨Nat.zero_le _, Nat.two_pow_pos 64⟩
    · exact h.value_le hold
  strong := by
    intro c counter' hcounter
    rcases counters_insert.mp hcounter with ⟨rfl, rfl⟩ | hold
    · have htotal := h.total_eq_zero Process.held_of_refs le_rfl
      have hentry := (scopes_insert hfree).mpr (.inl ⟨rfl, rfl⟩)
      rw [hentry, mapRefs, if_pos rfl]
      exact congrArg (1 + ·) htotal.symm
    · have hlt := (List.getElem?_eq_some_iff.mp hold).1
      have hrefs : mapRefs ((s.insert scope).scopes counter'.scope) c =
          mapRefs (s.scopes counter'.scope) c :=
        if_congr ((scopes_insert hfree).trans (or_iff_right fun hc => hlt.ne hc.2)) rfl rfl
      rw [hrefs]
      exact h.strong hold
  global := h.global
  global_le := h.global_le
  locks := h.locks
  alone := h.alone

/-- A call takes a reference to the counter of its entry. -/
theorem turn_of_clone (h : Sound gate s) (hp : s.processes[pid]? = some p)
    (hphase : p.phase = .entering) (hlock : s.locks (gate.shard p.scope) = false)
    (hmapped : s.scopes p.scope = some id) (hcounter : s.counters[id]? = some counter) :
    Turn gate s pid p id counter
      (s.view gate p.scope { counter with strong := counter.strong + 1 }) (.held .cloned id) := by
  have hnamed : counter.scope = p.scope := by
    obtain ⟨counter', hcounter', hscope⟩ := h.entered hmapped
    rw [hcounter] at hcounter'
    rwa [Option.some.inj hcounter']
  have hle := h.value_le hcounter
  rw [hnamed] at hle
  exact {
    process := hp
    found := hcounter
    named := hnamed
    renamed := hnamed
    before := fun h => by rw [hphase] at h; cases h
    after := fun h => by cases h; rfl
    entry := .inl rfl
    mapped := fun h _ => by cases h; exact hmapped
    value := by simp [Process.onCounter, hphase, Stage.counted, State.view]
    value_le := hle
    strong := by
      have hrefs : p.refs id = 0 := by rw [Process.refs, hphase]
      rw [Process.refs_of_held (p := { p with phase := .held .cloned id }) rfl, hrefs]
      exact Nat.add_right_comm counter.strong 1 _
    global := by simp [Process.live, hphase, State.view]
    global_le := h.global_le
    lock := by simp [Process.locking, hphase, Stage.locking, State.view]
    alone := nofun
    last := by
      intro pid' p' hunique
      have hlocked := h.locks_of_locking hunique rfl
      obtain ⟨counter', hcounter', hscope⟩ := h.alive hunique
      rw [hcounter] at hcounter'
      rw [← hscope, ← Option.some.inj hcounter', hnamed, hlock] at hlocked
      cases hlocked }

theorem orInsert (h : Sound gate s) (scope : String) :
    Sound gate (s.orInsert scope).1 ∧
      (s.orInsert scope).1.scopes scope = some (s.orInsert scope).2 := by
  unfold State.orInsert
  split
  next id hentry => exact ⟨h, hentry⟩
  next hfree => exact ⟨h.insert hfree, (scopes_insert hfree).mpr (.inl ⟨rfl, rfl⟩)⟩

/-- A step of a process is one with one counter, after a new one has been made if there is
none in the map. -/
theorem turn_of_advance (h : Sound gate s) (hstep : s.advance gate pid = some t) :
    ∃ p, s.processes[pid]? = some p ∧
      (p.phase = .entering ∧ (∃ counter v, Turn gate (s.orInsert p.scope).1 pid p
          (s.orInsert p.scope).2 counter v (.held .cloned (s.orInsert p.scope).2) ∧
        t = (s.orInsert p.scope).1.write gate pid p (s.orInsert p.scope).2 v
          (.held .cloned (s.orInsert p.scope).2)) ∨
      ∃ stage id counter v phase, p.phase = .held stage id ∧ s.counters[id]? = some counter ∧
        WeightedAdmission.proceed gate p id (s.view gate p.scope counter) stage = some (v, phase) ∧
        t = s.write gate pid p id v phase) := by
  obtain ⟨p, hp, hstep⟩ := Option.bind_eq_some_iff.mp hstep
  refine ⟨p, hp, ?_⟩
  split at hstep
  next hphase =>
    refine .inl ⟨hphase, ?_⟩
    unfold State.enter at hstep
    split at hstep
    next => cases hstep
    next hlock =>
      obtain ⟨counter, hcounter, rfl⟩ := Option.map_eq_some_iff.mp hstep
      obtain ⟨hsound, hmapped⟩ := h.orInsert p.scope
      rw [← State.orInsert_processes p.scope] at hp
      rw [← State.orInsert_locks p.scope, Bool.not_eq_true] at hlock
      exact ⟨counter, _, hsound.turn_of_clone hp hphase hlock hmapped hcounter, rfl⟩
  next stage id hphase =>
    obtain ⟨counter, hcounter, hstep⟩ := Option.bind_eq_some_iff.mp hstep
    obtain ⟨⟨v, phase⟩, hproceed, rfl⟩ := Option.map_eq_some_iff.mp hstep
    exact .inr ⟨stage, id, counter, v, phase, hphase, hcounter, hproceed, rfl⟩
  next => cases hstep

theorem step {event : Event} (h : Sound gate s) (hstep : Step gate s event t) : Sound gate t := by
  cases event with
  | call scope weight =>
      obtain rfl := Option.some.inj hstep
      exact h.call scope weight
  | advance pid =>
      obtain ⟨p, hp, ⟨_, counter, v, turn, rfl⟩ | ⟨stage, id, counter, v, phase, hphase, hcounter,
        hproceed, rfl⟩⟩ := h.turn_of_advance hstep
      · exact (h.orInsert p.scope).1.write turn
      · exact h.write (h.turn_of_proceed ⟨hp, hphase⟩ hcounter hproceed)

theorem of_run {events : List Event} (h : StepPath (Step gate) WeightedAdmission.init events s) :
    Sound gate s :=
  h.invariant (fun _ _ _ hsound hstep => hsound.step hstep) (init gate)

end Sound

end WeightedAdmission

end KingOfTheHill

end Rsctf
