import Rsctf.KingOfTheHill.WeightedAdmission

/-!
# What is left of an admission

The weights of the live permits stay below the limits in every run.  A counter leaves the map
when the last call or permit with it is gone, provided that this one sees that it is the
last: when two of them look for an idle counter at the same time, each finds the reference
of the other and leaves the counter in the map.
-/

namespace Rsctf

namespace KingOfTheHill

namespace WeightedAdmission

/-- The weight of a live permit of the scope. -/
def Process.liveIn (scope : String) (p : Process) : ℕ := if p.scope = scope then p.live else 0

theorem Process.held_of_liveIn {p : Process} {scope : String} (h : 0 < p.liveIn scope) :
    p.scope = scope ∧ ∃ id, p.phase = .held .holding id := by
  unfold liveIn at h
  split at h
  next hscope =>
    unfold live at h
    split at h
    next id hphase => exact ⟨hscope, id, hphase⟩
    next => exact absurd h (lt_irrefl 0)
  next => exact absurd h (lt_irrefl 0)

/-- The limits hold, and the live permits of a scope count on the counter of its entry. -/
structure Accounted (gate : Gate) (s : State) : Prop where
  scope_le : ∀ scope, total (Process.liveIn scope) s ≤ gate.scopeLimit scope
  global_le : total Process.live s ≤ gate.globalLimit
  entry : ∀ {pid p id}, s.Holds pid p .holding id → s.scopes p.scope = some id ∧
    ∃ counter, s.counters[id]? = some counter ∧
      total (Process.liveIn p.scope) s ≤ counter.value

/-- Nothing is left when no permit is live and no call or drop is going on. -/
structure Released (s : State) : Prop where
  global : (∀ p ∈ s.processes, p.phase = .done) → s.global = 0
  scopes : (∀ p ∈ s.processes, p.phase = .done) → ∀ scope, s.scopes scope = none

/-- Every counter in the map has a holder that has still to look for an idle counter. -/
def Attended (s : State) : Prop :=
  ∀ {scope id}, s.scopes scope = some id →
    ∃ pid p stage, s.Holds pid p stage id ∧ stage.pending = true

/-- A process which finds more than two references to an idle counter is not the last one
that looks for it. -/
def Timely (s : State) : Event → Prop
  | .call _ _ => True
  | .advance pid => ∀ {p id counter}, s.Holds pid p .zero id → s.counters[id]? = some counter →
    counter.strong ≠ 2 →
    ∃ pid' p' stage, pid' ≠ pid ∧ s.Holds pid' p' stage id ∧ stage.pending = true

def TimelyStep (gate : Gate) (s : State) (event : Event) (t : State) : Prop :=
  Step gate s event t ∧ Timely s event

variable {gate : Gate} {s t : State} {pid pid' id c : ℕ} {p p' : Process}
  {counter counter' : Counter} {stage : Stage} {phase : Phase} {v : View} {scope : String}

namespace Sound

/-- The live permits of a scope count on the counter of its entry. -/
theorem liveIn_le (h : Sound gate s) (hentry : s.scopes scope = some id)
    (hcounter : s.counters[id]? = some counter) :
    total (Process.liveIn scope) s ≤ counter.value := by
  rw [h.value hcounter]
  refine List.sum_le_sum fun p hp => ?_
  rcases Nat.eq_zero_or_pos (p.liveIn scope) with hzero | hpos
  · rw [hzero]
    exact Nat.zero_le _
  · obtain ⟨hscope, c, hphase⟩ := Process.held_of_liveIn hpos
    obtain ⟨pid, hpid⟩ := List.mem_iff_getElem?.mp hp
    have hmapped := h.mapped ⟨hpid, hphase⟩ rfl
    rw [hscope, hentry] at hmapped
    obtain rfl := Option.some.inj hmapped
    rw [Process.onCounter_of_held hphase, Process.liveIn, if_pos hscope,
      Process.live_of_held hphase]
    rfl

theorem accounted (h : Sound gate s) : Accounted gate s where
  scope_le scope := by
    rcases Nat.eq_zero_or_pos (total (Process.liveIn scope) s) with hzero | hpos
    · rw [hzero]
      exact Nat.zero_le _
    · obtain ⟨pid, p, hp, hlive⟩ := Tally.exists_of_sum_map_pos hpos
      obtain ⟨rfl, id, hphase⟩ := Process.held_of_liveIn hlive
      have hentry := h.mapped ⟨hp, hphase⟩ rfl
      obtain ⟨counter, hcounter, hscope⟩ := h.entered hentry
      exact (h.liveIn_le hentry hcounter).trans (hscope ▸ (h.value_le hcounter).1)
  global_le := h.global ▸ h.global_le.1
  entry hholds := by
    have hentry := h.mapped hholds rfl
    obtain ⟨counter, hcounter, _⟩ := h.alive hholds
    exact ⟨hentry, counter, hcounter, h.liveIn_le hentry hcounter⟩

theorem released (h : Sound gate s) (hattended : Attended s) : Released s where
  global hdone := by
    rw [h.global]
    by_contra hpos
    obtain ⟨pid, p, hp, hlive⟩ := Tally.exists_of_sum_map_pos (Nat.pos_of_ne_zero hpos)
    rw [Process.live, hdone p (List.mem_of_getElem? hp)] at hlive
    exact absurd hlive (lt_irrefl 0)
  scopes hdone scope := by
    cases hentry : s.scopes scope with
    | none => rfl
    | some id =>
        obtain ⟨pid, p, stage, hholds, _⟩ := hattended hentry
        have hphase := hdone p (List.mem_of_getElem? hholds.1)
        rw [hholds.2] at hphase
        cases hphase

end Sound

/-- Where a process stops looking although its counter may still be in the map. -/
theorem Ready.pending_proceed {w : View} (h : Ready gate p id stage w)
    (hstep : proceed gate p id w stage = some (v, phase)) (hentry : v.entry = some id) :
    (∃ stage', phase = .held stage' id ∧ stage'.pending = true) ∨
      (stage.counted = false ∧ w.counter.value ≠ 0) ∨
      (stage = .zero ∧ w.counter.strong ≠ 2) ∨ stage.pending = false := by
  have hmapped := h.mapped
  revert hstep
  fun_cases proceed gate p id w stage <;> intro hstep <;> cases hstep
  all_goals simp_all [Stage.pending, Stage.counted]

namespace Attended

/-- The counter of the process which takes a step has to be looked after. -/
theorem write (hattended : ∀ {scope c}, s.scopes scope = some c → c ≠ id →
      ∃ pid p stage, s.Holds pid p stage c ∧ stage.pending = true)
    (h : Sound gate s) (turn : Turn gate s pid p id counter v phase)
    (hkept : v.entry = some id → (∃ stage, phase = .held stage id ∧ stage.pending = true) ∨
      ∃ pid' p' stage, pid' ≠ pid ∧ s.Holds pid' p' stage id ∧ stage.pending = true) :
    Attended (s.write gate pid p id v phase) := by
  intro scope c hentry
  have hold := turn.scopes_of_write hentry
  by_cases hc : c = id
  · subst hc
    obtain ⟨counter', hcounter', hscope⟩ := h.entered hold
    rw [turn.found] at hcounter'
    obtain rfl := Option.some.inj hcounter'
    rw [← hscope, turn.named, Turn.scopes_write_self] at hentry
    rcases hkept hentry with ⟨stage, hphase, hpending⟩ | ⟨pid', p', stage, hne, hholds, hpending⟩
    · exact ⟨pid, _, stage, turn.holds_write.mpr (.inl ⟨rfl, rfl, hphase⟩), hpending⟩
    · exact ⟨pid', p', stage, turn.holds_write.mpr (.inr ⟨hne, hholds⟩), hpending⟩
  · obtain ⟨pid', p', stage, hholds, hpending⟩ := hattended hold hc
    have hne : pid' ≠ pid := by
      rintro rfl
      have hp' := hholds.1
      rw [turn.process] at hp'
      obtain rfl := Option.some.inj hp'
      exact hc (turn.before hholds.2)
    exact ⟨pid', p', stage, turn.holds_write.mpr (.inr ⟨hne, hholds⟩), hpending⟩

/-- A counter with a weight has a holder. -/
theorem exists_of_value (h : Sound gate s) (hcounter : s.counters[id]? = some counter)
    (hvalue : counter.value ≠ 0) :
    ∃ pid p stage, s.Holds pid p stage id ∧ stage.counted = true := by
  rw [h.value hcounter] at hvalue
  obtain ⟨pid, p, hp, hpos⟩ := Tally.exists_of_sum_map_pos (Nat.pos_of_ne_zero hvalue)
  obtain ⟨stage, hphase, hcounted⟩ := Process.held_of_onCounter hpos
  exact ⟨pid, p, stage, ⟨hp, hphase⟩, hcounted⟩

theorem call (h : Attended s) (scope : String) (weight : ℕ) :
    Attended (s.call gate scope weight) := by
  intro k id hentry
  obtain ⟨pid, p, stage, hholds, hpending⟩ := h hentry
  exact ⟨pid, p, stage, holds_call.mpr hholds, hpending⟩

theorem proceed (hattended : Attended s) (h : Sound gate s) (hholds : s.Holds pid p stage id)
    (hcounter : s.counters[id]? = some counter)
    (hstep : WeightedAdmission.proceed gate p id (s.view gate p.scope counter) stage =
      some (v, phase)) (htimely : Timely s (.advance pid)) :
    Attended (s.write gate pid p id v phase) := by
  refine write (fun hentry _ => hattended hentry) h (h.turn_of_proceed hholds hcounter hstep)
    fun hentry => ?_
  have hother : ∀ {pid' p' stage'}, s.Holds pid' p' stage' id → stage' ≠ stage → pid' ≠ pid := by
    rintro pid' p' stage' hholds' hne rfl
    have hphase := hholds.2
    rw [Option.some.inj (hholds.1.symm.trans hholds'.1), hholds'.2] at hphase
    exact hne (Phase.held.inj hphase).1
  rcases (h.ready hholds hcounter).pending_proceed hstep hentry with
    hpending | ⟨hcounted, hvalue⟩ | ⟨rfl, hstrong⟩ | hpending
  · exact .inl hpending
  · obtain ⟨pid', p', stage', hholds', hcounted'⟩ := exists_of_value h hcounter hvalue
    refine .inr ⟨pid', p', stage', hother hholds' ?_, hholds', ?_⟩
    · rintro rfl
      exact absurd hcounted' (by simp [hcounted])
    · cases stage' <;> simp_all [Stage.counted, Stage.pending]
  · exact .inr (htimely hholds hcounter hstrong)
  · have turn := h.turn_of_proceed hholds hcounter hstep
    have hscope : s.scopes p.scope = some id :=
      turn.scopes_of_write (Turn.scopes_write_self.trans hentry)
    obtain ⟨pid', p', stage', hholds', hpending'⟩ := hattended hscope
    refine .inr ⟨pid', p', stage', hother hholds' ?_, hholds', hpending'⟩
    rintro rfl
    rw [hpending] at hpending'
    cases hpending'

theorem scopes_of_orInsert {k : String} (hentry : (s.orInsert k).1.scopes scope = some c)
    (hne : c ≠ (s.orInsert k).2) : s.scopes scope = some c := by
  unfold State.orInsert at hentry hne
  split at hentry
  next => exact hentry
  next hfree =>
    rcases (scopes_insert hfree).mp hentry with ⟨_, hc⟩ | hold
    · simp only [hfree] at hne
      exact absurd hc hne
    · exact hold

theorem step {event : Event} (hattended : Attended s) (h : Sound gate s)
    (hstep : TimelyStep gate s event t) : Attended t := by
  obtain ⟨hstep, htimely⟩ := hstep
  cases event with
  | call scope weight =>
      obtain rfl := Option.some.inj hstep
      exact hattended.call scope weight
  | advance pid =>
      obtain ⟨p, hp, ⟨hphase, counter, v, turn, rfl⟩ | ⟨stage, id, counter, v, phase, hphase,
        hcounter, hproceed, rfl⟩⟩ := h.turn_of_advance hstep
      · refine write (fun hentry hne => ?_) (h.orInsert p.scope).1 turn fun _ => .inl ⟨_, rfl, rfl⟩
        obtain ⟨pid', p', stage, hholds, hpending⟩ := hattended (scopes_of_orInsert hentry hne)
        rw [State.Holds, ← State.orInsert_processes] at hholds
        exact ⟨pid', p', stage, hholds, hpending⟩
      · exact hattended.proceed h ⟨hp, hphase⟩ hcounter hproceed htimely

end Attended

/-- The limits hold in every run. -/
theorem accounted_of_run {events : List Event} (h : StepPath (Step gate) init events s) :
    Accounted gate s :=
  (Sound.of_run h).accounted

structure AdmissionLaw (gate : Gate) (s : State) : Prop extends Accounted gate s, Released s

/-- Nothing is left behind after a run whose steps are timely. -/
theorem law_of_timely_run {events : List Event}
    (h : StepPath (TimelyStep gate) init events s) : AdmissionLaw gate s := by
  have hboth : Sound gate s ∧ Attended s := by
    refine h.invariant (P := fun s => Sound gate s ∧ Attended s) ?_ ⟨Sound.init gate, ?_⟩
    · rintro s event t ⟨hsound, hattended⟩ hstep
      exact ⟨hsound.step hstep.1, hattended.step hsound hstep⟩
    · intro scope id hentry
      cases hentry
  exact ⟨hboth.1.accounted, hboth.1.released hboth.2⟩

/-- Nobody is about to count references, or no counter has a reference too many. -/
def State.quiet (s : State) : Bool :=
  (s.processes.all fun p => match p.phase with
    | .held .zero _ => false
    | _ => true) || s.counters.all fun counter => counter.strong = 2

def State.quietStep (gate : Gate) (s : State) (event : Event) : Option State :=
  if s.quiet then s.step gate event else none

theorem timely_of_quiet (h : s.quiet = true) (event : Event) : Timely s event := by
  cases event with
  | call scope weight => trivial
  | advance pid =>
      intro p id counter hholds hcounter hstrong
      rcases Bool.or_eq_true_iff.mp h with hphase | hcount
      · have hp := List.all_eq_true.mp hphase p (List.mem_of_getElem? hholds.1)
        rw [hholds.2] at hp
        cases hp
      · have hc := List.all_eq_true.mp hcount counter (List.mem_of_getElem? hcounter)
        exact absurd (of_decide_eq_true hc) hstrong

theorem timelyStep_of_quietStep {event : Event} (h : s.quietStep gate event = some t) :
    TimelyStep gate s event t := by
  unfold State.quietStep at h
  split at h
  next hquiet => exact ⟨h, timely_of_quiet hquiet event⟩
  next => cases h

def smallGate : Gate := ⟨8, fun _ => 4, fun _ => 0⟩

/-- A call and the drop of its permit. -/
def acquireAndDrop : List Event :=
  .call "challenge:7:9" 3 :: List.replicate 12 (.advance 0)

theorem law_of_timely_run_dropped :
    ∃ s, StepPath (TimelyStep smallGate) init acquireAndDrop s ∧
      (∀ p ∈ s.processes, p.phase = .done) ∧ AdmissionLaw smallGate s := by
  have hrun : (acquireAndDrop.foldlM (State.quietStep smallGate) init).map (·.processes) =
      some [⟨"challenge:7:9", 3, .done⟩] := by decide +kernel
  obtain ⟨s, hs, hprocesses⟩ := Option.map_eq_some_iff.mp hrun
  have hpath := (StepPath.of_foldlM hs).mono fun _ _ _ => timelyStep_of_quietStep
  refine ⟨s, hpath, ?_, law_of_timely_run hpath⟩
  simp [hprocesses]

/-- Two permits of one scope are dropped side by side. -/
def overlappingDrops : List Event :=
  [.call "challenge:7:9" 2, .call "challenge:7:9" 2] ++ List.replicate 3 (.advance 0) ++
    List.replicate 5 (.advance 1) ++ List.replicate 6 (.advance 0) ++
    List.replicate 4 (.advance 1) ++ [.advance 0, .advance 1]

/-- The entry of the scope is left in the map. -/
theorem not_released_of_run :
    ¬ ∀ (gate : Gate) (events : List Event) (s : State),
      StepPath (Step gate) init events s → AdmissionLaw gate s := by
  have hrun : (overlappingDrops.foldlM (State.step smallGate) init).map
      (fun s => (s.processes, s.scopes "challenge:7:9")) =
      some ([⟨"challenge:7:9", 2, .done⟩, ⟨"challenge:7:9", 2, .done⟩], some 0) := by
    decide +kernel
  obtain ⟨s, hs, hseen⟩ := Option.map_eq_some_iff.mp hrun
  obtain ⟨hprocesses, hentry⟩ := Prod.mk.inj hseen
  intro hlaw
  have hscopes := (hlaw smallGate overlappingDrops s (StepPath.of_foldlM hs)).scopes
    (by simp [hprocesses]) "challenge:7:9"
  rw [hentry] at hscopes
  cases hscopes

end WeightedAdmission

end KingOfTheHill

end Rsctf
