import Mathlib.Data.Fintype.EquivFin
import Mathlib.Logic.Function.Basic
import Rsctf.Data.Path

/-!
# Programs interleaved on a shared state

A program runs one statement at a time; between two statements of one process the others
run.  A statement may have to wait, and at any statement the process may stop, with the
statement done or not; what it holds is then given up.

A discipline says what holds of the shared state at every moment and what every process
can rely on while the others run.  A program is sound when each of its statements keeps to
the discipline, whatever the others did before it.  Sound programs keep to the discipline
together, and each ends in a state of which its result is true.
-/

universe u v w

/-- A program which ends with a result, or runs one statement and goes on with what it saw. -/
inductive Script (σ : Type u) (α : Type v)
  | done (result : α)
  | step (ready : σ → Bool) (effect : σ → σ) (next : σ → Script σ α)

/-- A statement which may fail: the program then gives up what it holds and ends with the error. -/
def Script.exec {σ : Type u} {ε β : Type*} {α : Type v} (abandon : σ → σ) (ready : σ → Bool)
    (f : σ → Except ε (σ × β)) (next : β → Script σ (Except ε α)) : Script σ (Except ε α) :=
  .step ready
    (fun s => match f s with
      | .ok (t, _) => t
      | .error _ => abandon s)
    (fun s => match f s with
      | .ok (_, b) => next b
      | .error e => .done (.error e))

/-- Some statements of a program, with nothing in between. -/
def Script.drive {σ : Type u} {α : Type v} : ℕ → Script σ α → σ → Option (Script σ α × σ)
  | 0, script, s => some (script, s)
  | _ + 1, .done _, _ => none
  | n + 1, .step ready effect next, s => if ready s then (next s).drive n (effect s) else none

namespace Interleaving

variable {σ : Type u} {ρ : Type v} {α : Type w}

/-- The shared state and the processes, each with its request and the rest of its program. -/
structure System (σ : Type u) (ρ : Type v) (α : Type w) where
  shared : σ
  running : ℕ → Option (ρ × Script σ α)

inductive Event (ρ : Type v)
  | start (p : ℕ) (request : ρ)
  | step (p : ℕ)
  | stop (p : ℕ)
  | environment

/-- The process which an event is about. -/
def Event.actor {ρ : Type v} : Event ρ → Option ℕ
  | .start p _ | .step p | .stop p => some p
  | .environment => none

/-- What runs: the program of every request, what a process which stops gives up, and what
happens to the shared state besides. -/
structure Setting (σ : Type u) (ρ : Type v) (α : Type w) where
  program : ℕ → ρ → Script σ α
  abandon : ℕ → σ → σ
  environment : σ → σ → Prop

inductive Setting.Step (setting : Setting σ ρ α) :
    System σ ρ α → Event ρ → System σ ρ α → Prop
  | start {s : System σ ρ α} {p : ℕ} (request : ρ) (hfree : s.running p = none) :
      Step setting s (.start p request)
        ⟨s.shared, Function.update s.running p (some (request, setting.program p request))⟩
  | step {s : System σ ρ α} {p : ℕ} {request : ρ} {ready : σ → Bool} {effect : σ → σ}
      {next : σ → Script σ α} (hp : s.running p = some (request, .step ready effect next))
      (hready : ready s.shared = true) :
      Step setting s (.step p)
        ⟨effect s.shared, Function.update s.running p (some (request, next s.shared))⟩
  | stopBefore {s : System σ ρ α} {p : ℕ} {request : ρ} {ready : σ → Bool} {effect : σ → σ}
      {next : σ → Script σ α} (hp : s.running p = some (request, .step ready effect next)) :
      Step setting s (.stop p)
        ⟨setting.abandon p s.shared, Function.update s.running p none⟩
  | stopAfter {s : System σ ρ α} {p : ℕ} {request : ρ} {ready : σ → Bool} {effect : σ → σ}
      {next : σ → Script σ α} (hp : s.running p = some (request, .step ready effect next))
      (hready : ready s.shared = true) :
      Step setting s (.stop p)
        ⟨setting.abandon p (effect s.shared), Function.update s.running p none⟩
  | environment {s : System σ ρ α} {shared : σ} (h : setting.environment s.shared shared) :
      Step setting s .environment ⟨shared, s.running⟩

/-- A process which runs alone to its end. -/
theorem ends_of_drive (setting : Setting σ ρ α) {p n : ℕ} {request : ρ} {shared shared' : σ}
    {script : Script σ α} {result : α} {running : ℕ → Option (ρ × Script σ α)}
    (hp : running p = some (request, script))
    (h : script.drive (n + 1) shared = some (.done result, shared')) :
    ∃ s t, StepPath setting.Step ⟨shared, running⟩ (List.replicate n (.step p)) s ∧
      setting.Step s (.step p) t ∧ t.shared = shared' ∧
      t.running p = some (request, .done result) := by
  induction n generalizing shared script running with
  | zero =>
      cases script with
      | done result => cases h
      | step ready effect next =>
          rw [Script.drive] at h
          split at h
          next hready =>
            obtain ⟨hnext, heffect⟩ := Prod.mk.inj (Option.some.inj h)
            refine ⟨_, _, .nil _, .step hp hready, heffect, ?_⟩
            exact (Function.update_self ..).trans (congrArg (fun c => some (request, c)) hnext)
          next => cases h
  | succ n ih =>
      cases script with
      | done result => cases h
      | step ready effect next =>
          rw [Script.drive] at h
          split at h
          next hready =>
            obtain ⟨s, t, hpath, hrest⟩ := ih (Function.update_self p
              (some (request, next shared)) running) h
            exact ⟨s, t, .cons (.step hp hready) hpath, hrest⟩
          next => cases h

/-- What holds at every moment, and what a process relies on while the others run. -/
structure Discipline (setting : Setting σ ρ α) where
  inv : σ → Prop
  rely : ℕ → σ → σ → Prop
  rely_refl : ∀ p s, rely p s s
  rely_trans : ∀ p s t u, rely p s t → rely p t u → rely p s u
  inv_abandon : ∀ p s, inv s → inv (setting.abandon p s)
  rely_abandon : ∀ p q s, q ≠ p → inv s → rely q s (setting.abandon p s)
  inv_environment : ∀ s t, inv s → setting.environment s t → inv t
  rely_environment : ∀ p s t, inv s → setting.environment s t → rely p s t

namespace Discipline

variable {setting : Setting σ ρ α} (d : Discipline setting)

/-- A change which a process may make. -/
def Allowed (p : ℕ) (s t : σ) : Prop :=
  d.inv t ∧ ∀ q, q ≠ p → d.rely q s t

/-- From here on every statement is allowed, and the result is true when the program ends. -/
def Sound (p : ℕ) (Q : α → σ → Prop) : Script σ α → σ → Prop
  | .done result, s => Q result s
  | .step ready effect next, s => ∀ t, d.rely p s t → d.inv t → ready t = true →
      d.Allowed p t (effect t) ∧ Sound p Q (next t) (effect t)

variable {d} {p : ℕ} {s t : σ} {Q : ρ → α → σ → Prop}

theorem allowed_refl (h : d.inv s) : d.Allowed p s s := ⟨h, fun q _ => d.rely_refl q s⟩

theorem allowed_abandon (h : d.inv s) : d.Allowed p s (setting.abandon p s) :=
  ⟨d.inv_abandon p s h, fun q hq => d.rely_abandon p q s hq h⟩

theorem Allowed.trans {u : σ} (hst : d.Allowed p s t) (htu : d.Allowed p t u) : d.Allowed p s u :=
  ⟨htu.1, fun q hq => d.rely_trans q s t u (hst.2 q hq) (htu.2 q hq)⟩

/-- The others do not disturb a sound program. -/
theorem Sound.of_rely {Q : α → σ → Prop} {ready : σ → Bool} {effect : σ → σ}
    {next : σ → Script σ α} (h : d.Sound p Q (.step ready effect next) s) (hrely : d.rely p s t) :
    d.Sound p Q (.step ready effect next) t :=
  fun u hu => h u (d.rely_trans p s t u hrely hu)

/-- A statement which may fail is sound when it is allowed and its error is true. -/
theorem sound_exec {ε β γ : Type*} {setting : Setting σ ρ (Except ε γ)} {d : Discipline setting}
    {p : ℕ} {Q : Except ε γ → σ → Prop} {ready : σ → Bool} {f : σ → Except ε (σ × β)}
    {next : β → Script σ (Except ε γ)} {s : σ}
    (hok : ∀ t u b, d.rely p s t → d.inv t → ready t = true → f t = .ok (u, b) →
      d.Allowed p t u ∧ d.Sound p Q (next b) u)
    (herror : ∀ t e, d.rely p s t → d.inv t → ready t = true → f t = .error e →
      Q (.error e) (setting.abandon p t)) :
    d.Sound p Q (.exec (setting.abandon p) ready f next) s := by
  intro t hrely hinv hready
  cases hf : f t with
  | ok result =>
      simp only [hf]
      exact hok t result.1 result.2 hrely hinv hready hf
  | error e =>
      simp only [hf]
      exact ⟨allowed_abandon hinv, herror t e hrely hinv hready hf⟩

/-- Every process which has not ended is sound. -/
structure Keeps (d : Discipline setting) (Q : ρ → α → σ → Prop) (s : System σ ρ α) : Prop where
  inv : d.inv s.shared
  sound : ∀ p request ready effect next,
    s.running p = some (request, Script.step ready effect next) →
      d.Sound p (Q request) (.step ready effect next) s.shared

variable {a b : System σ ρ α} {event : Event ρ}

/-- A change of the shared state by one process leaves the others sound. -/
theorem Keeps.others (h : d.Keeps Q a) {shared : σ} (hrely : ∀ q, q ≠ p → d.rely q a.shared shared)
    {q : ℕ} (hq : q ≠ p) {request : ρ} {ready : σ → Bool} {effect : σ → σ}
    {next : σ → Script σ α} (hrun : a.running q = some (request, .step ready effect next)) :
    d.Sound q (Q request) (.step ready effect next) shared :=
  (h.sound q request ready effect next hrun).of_rely (hrely q hq)

/-- The process `p` moved to `state`, which is sound unless it has ended. -/
theorem Keeps.update (h : d.Keeps Q a) {shared : σ} {state : Option (ρ × Script σ α)}
    (hallowed : d.Allowed p a.shared shared)
    (hstate : ∀ request ready effect next,
      state = some (request, Script.step ready effect next) →
        d.Sound p (Q request) (.step ready effect next) shared) :
    d.Keeps Q ⟨shared, Function.update a.running p state⟩ := by
  refine ⟨hallowed.1, fun q request ready effect next hrun => ?_⟩
  by_cases hq : q = p
  · subst hq
    exact hstate request ready effect next (by simpa using hrun)
  · exact h.others hallowed.2 hq (by simpa [hq] using hrun)

/-- What a statement of a sound process does. -/
theorem Keeps.next (h : d.Keeps Q a) {request : ρ} {ready : σ → Bool} {effect : σ → σ}
    {next : σ → Script σ α} (hp : a.running p = some (request, .step ready effect next))
    (hready : ready a.shared = true) :
    d.Allowed p a.shared (effect a.shared) ∧
      d.Sound p (Q request) (next a.shared) (effect a.shared) :=
  h.sound p request ready effect next hp a.shared (d.rely_refl p _) h.inv hready

theorem Keeps.step (hprogram : ∀ p request s, d.inv s →
      d.Sound p (Q request) (setting.program p request) s)
    (h : d.Keeps Q a) (hstep : setting.Step a event b) : d.Keeps Q b := by
  cases hstep with
  | start request hfree =>
      refine h.update (allowed_refl h.inv) fun request' ready effect next heq => ?_
      obtain ⟨rfl, hscript⟩ := Prod.mk.inj (Option.some.inj heq)
      exact hscript ▸ hprogram _ request a.shared h.inv
  | step hp hready =>
      obtain ⟨hallowed, hsound⟩ := h.next hp hready
      refine h.update hallowed fun request' ready effect next heq => ?_
      obtain ⟨rfl, hscript⟩ := Prod.mk.inj (Option.some.inj heq)
      exact hscript ▸ hsound
  | stopBefore hp =>
      refine h.update (allowed_abandon h.inv) fun request ready effect next heq => ?_
      cases heq
  | stopAfter hp hready =>
      obtain ⟨hallowed, -⟩ := h.next hp hready
      refine h.update (hallowed.trans (allowed_abandon hallowed.1)) ?_
      intro request ready effect next heq
      cases heq
  | environment henv =>
      refine ⟨d.inv_environment _ _ h.inv henv, fun q request ready effect next hrun => ?_⟩
      exact (h.sound q request ready effect next hrun).of_rely (d.rely_environment q _ _ h.inv henv)

/-- Sound programs keep to the discipline in every run. -/
theorem Keeps.run (hprogram : ∀ p request s, d.inv s →
      d.Sound p (Q request) (setting.program p request) s)
    {events : List (Event ρ)} (hrun : StepPath setting.Step a events b) (h : d.Keeps Q a) :
    d.Keeps Q b :=
  hrun.invariant (P := d.Keeps Q) (fun _ _ _ hk hstep => hk.step hprogram hstep) h

/-- A process sees of the others what it relies on. -/
theorem Keeps.relied (h : d.Keeps Q a) (hstep : setting.Step a event b) {q : ℕ}
    (hq : event.actor ≠ some q) : d.rely q a.shared b.shared := by
  have hne : ∀ {p}, event.actor = some p → q ≠ p := fun hp heq => hq (heq ▸ hp)
  cases hstep with
  | start request hfree => exact d.rely_refl q a.shared
  | step hp hready => exact (h.next hp hready).1.2 q (hne rfl)
  | stopBefore hp => exact d.rely_abandon _ q _ (hne rfl) h.inv
  | stopAfter hp hready =>
      obtain ⟨hinv, hrely⟩ := (h.next hp hready).1
      exact d.rely_trans q _ _ _ (hrely q (hne rfl)) (d.rely_abandon _ q _ (hne rfl) hinv)
  | environment henv => exact d.rely_environment q _ _ h.inv henv

theorem Keeps.relied_run (hprogram : ∀ p request s, d.inv s →
      d.Sound p (Q request) (setting.program p request) s)
    {events : List (Event ρ)} (hrun : StepPath setting.Step a events b) (h : d.Keeps Q a) {q : ℕ}
    (hq : ∀ event ∈ events, event.actor ≠ some q) : d.rely q a.shared b.shared := by
  induction hrun with
  | nil s => exact d.rely_refl q s.shared
  | cons hstep _ ih =>
      have hfirst := h.relied hstep (hq _ List.mem_cons_self)
      exact d.rely_trans q _ _ _ hfirst
        (ih (h.step hprogram hstep) fun event hevent => hq event (List.mem_cons_of_mem _ hevent))

/-- Some process has no part in a run. -/
theorem exists_bystander (events : List (Event ρ)) :
    ∃ q, ∀ event ∈ events, event.actor ≠ some q := by
  obtain ⟨q, hq⟩ := Infinite.exists_notMem_finset (events.filterMap Event.actor).toFinset
  refine ⟨q, fun event hevent hactor => hq ?_⟩
  exact List.mem_toFinset.mpr (List.mem_filterMap.mpr ⟨event, hevent, hactor⟩)

/-- A process which ends does so in a state of which its result is true. -/
theorem Keeps.ends (h : d.Keeps Q a) (hstep : setting.Step a (.step p) b) {request : ρ} {result : α}
    (hend : b.running p = some (request, .done result)) : Q request result b.shared := by
  cases hstep with
  | step hp hready =>
      obtain ⟨-, hsound⟩ := h.next hp hready
      simp only [Function.update_self] at hend
      obtain ⟨rfl, hscript⟩ := Prod.mk.inj (Option.some.inj hend)
      rw [hscript] at hsound
      exact hsound

/-- Before anything runs there is nothing to keep but the invariant. -/
theorem keeps_start (h : d.inv s) : d.Keeps Q ⟨s, fun _ => none⟩ :=
  ⟨h, fun _ _ _ _ _ hrun => by cases hrun⟩

end Discipline

end Interleaving
