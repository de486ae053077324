import Mathlib.Data.List.Nodup
import Rsctf.Byoc.Endpoint

/-!
# What an endpoint exposes

Over every history of an endpoint, the exposed session is the last one attached and has
acknowledged the newest flag, flags only move forward, a retired endpoint exposes nothing,
and an idle endpoint is only retired when nobody used it since its epoch was handed out.
-/

namespace Rsctf

namespace Byoc

namespace Event

/-- The session which an event published. -/
def attached : Event → Option TunnelHandle
  | attach handle (.ok _) => some handle
  | _ => none

/-- The connection which an event detached. -/
def detached : Event → Option ℕ
  | detachIf connectionId (some _) => some connectionId
  | _ => none

/-- The flag which an event retained. -/
def accepted : Event → Option RetainedFlag
  | retainFlag _ _ (.ok (.accepted flag)) => some flag
  | _ => none

/-- The retained flag which an event showed. -/
def exposed : Event → Option RetainedFlag
  | retainFlag _ _ (.ok (.accepted flag)) => some flag
  | retainFlag _ _ (.ok (.stale flag)) => some flag
  | retainedFlag flag => flag
  | _ => none

/-- The connection which an event marked ready, with the sequence of the flag. -/
def readied : Event → Option (ℕ × ℕ)
  | markFlagReady connectionId flag true => some (connectionId, flag.sequence)
  | _ => none

def retires : Event → Bool
  | retireIfIdle _ true => true
  | revokeStore => true
  | _ => false

/-- The epoch which an event handed out. -/
def epoch : Event → Option ℕ
  | claim epoch => epoch
  | detachIf _ epoch => epoch
  | _ => none

/-- The endpoint was claimed, attached or detached. -/
def touches : Event → Bool
  | claim _ => true
  | attach _ _ => true
  | detachIf _ epoch => epoch.isSome
  | _ => false

end Event

/-- The flag `later` may follow the flag `earlier`. -/
def RetainedFlag.Precedes (earlier later : RetainedFlag) : Prop :=
  earlier.sequence ≤ later.sequence ∧ (earlier.sequence = later.sequence → earlier = later)

theorem RetainedFlag.precedes_refl (flag : RetainedFlag) : flag.Precedes flag :=
  ⟨Nat.le_refl _, fun _ => rfl⟩

theorem RetainedFlag.Precedes.trans {a b c : RetainedFlag} (hab : a.Precedes b)
    (hbc : b.Precedes c) : a.Precedes c := by
  refine ⟨Nat.le_trans hab.1 hbc.1, fun h => ?_⟩
  have hb : a = b := hab.2 (Nat.le_antisymm hab.1 (h ▸ hbc.1))
  subst hb
  exact hbc.2 h

/-- What a step can do to an endpoint. -/
inductive Change (endpoint : RelayEndpoint) : Event → RelayEndpoint → Prop
  | quiet {event : Event} {epoch : ℕ} (hepoch : endpoint.idleEpoch ≤ epoch) (hattached : event.attached = none)
      (hdetached : event.detached = none) (haccepted : event.accepted = none)
      (hexposed : event.exposed = none) (hreadied : event.readied = none)
      (hretires : event.retires = false) :
      Change endpoint event { endpoint with idleEpoch := epoch }
  | shown {event : Event} {flag : RetainedFlag} {readiness : SessionReadiness}
      (hlive : endpoint.retired = false) (hflag : endpoint.flag = some flag)
      (hattached : event.attached = none) (hdetached : event.detached = none)
      (haccepted : event.accepted = none ∨ event.accepted = some flag)
      (hexposed : event.exposed = some flag) (hreadied : event.readied = none)
      (hretires : event.retires = false)
      (hreadiness : readiness = endpoint.readiness ∨ readiness = .pending) :
      Change endpoint event { endpoint with readiness }
  | retained {sequence : ℕ} {value : String} {readiness : SessionReadiness}
      (hlive : endpoint.retired = false)
      (hnewer : ∀ flag, endpoint.flag = some flag → flag.sequence < sequence)
      (hreadiness : readiness = .pending ∨
        readiness = .flag sequence ∧ endpoint.readiness = .flag sequence) :
      Change endpoint (.retainFlag sequence value (.ok (.accepted ⟨sequence, value⟩)))
        { endpoint with flag := some ⟨sequence, value⟩, readiness }
  | dropped {event : Event} {session : Option TunnelHandle}
      (hretired : endpoint.retired = true)
      (hsession : session = endpoint.session ∨ session = none)
      (hattached : event.attached = none) (hdetached : event.detached = none)
      (haccepted : event.accepted = none) (hexposed : event.exposed = none)
      (hreadied : event.readied = none) (hretires : event.retires = false) :
      Change endpoint event { endpoint with session, flag := none, readiness := .pending }
  | attached {handle : TunnelHandle} (hlive : endpoint.retired = false) :
      Change endpoint (.attach handle (.ok endpoint.session))
        { endpoint with
          session := some handle
          readiness := if endpoint.flag.isSome then .pending else .noFlag
          idleEpoch := endpoint.idleEpoch + 1 }
  | readied {handle : TunnelHandle} {flag current : RetainedFlag}
      (hlive : endpoint.retired = false) (hsession : endpoint.session = some handle)
      (hflag : endpoint.flag = some current) (hsequence : current.sequence = flag.sequence) :
      Change endpoint (.markFlagReady handle.id flag true)
        { endpoint with readiness := .flag flag.sequence }
  | detached {handle : TunnelHandle} (hsession : endpoint.session = some handle) :
      Change endpoint (.detachIf handle.id (some (endpoint.idleEpoch + 1)))
        { endpoint with
          session := none
          readiness := .pending
          idleEpoch := endpoint.idleEpoch + 1 }
  | retired {event : Event} {flag : FlagState} {readiness : SessionReadiness} {epoch : ℕ}
      (hepoch : endpoint.idleEpoch ≤ epoch)
      (hattached : event.attached = none) (hdetached : event.detached = none)
      (haccepted : event.accepted = none) (hexposed : event.exposed = none)
      (hreadied : event.readied = none) (hretires : event.retires = true)
      (hflag : flag = endpoint.flag ∧ readiness = endpoint.readiness ∨
        flag = none ∧ readiness = .pending) :
      Change endpoint event
        { endpoint with flag, readiness, idleEpoch := epoch, retired := true }

section Operations

variable {endpoint next : RelayEndpoint}

theorem retain_cases {current flag : FlagState} {sequence : ℕ} {value : String}
    {result : Except FlagRetentionError FlagRetention}
    (h : current.retain sequence value = (result, flag)) :
    (∃ error, result = .error error) ∧ flag = current ∨
    (∃ retained, current = some retained ∧ flag = current ∧
      (result = .ok (.stale retained) ∨ result = .ok (.accepted retained))) ∨
    result = .ok (.accepted ⟨sequence, value⟩) ∧ flag = some ⟨sequence, value⟩ ∧
      ∀ retained, current = some retained → retained.sequence < sequence := by
  unfold FlagState.retain at h
  split at h
  · obtain ⟨rfl, rfl⟩ := Prod.mk.inj h
    exact .inl ⟨⟨_, rfl⟩, rfl⟩
  split at h
  · obtain ⟨rfl, rfl⟩ := Prod.mk.inj h
    exact .inl ⟨⟨_, rfl⟩, rfl⟩
  cases current with
  | none =>
      obtain ⟨rfl, rfl⟩ := Prod.mk.inj h
      exact .inr (.inr ⟨rfl, rfl, by simp⟩)
  | some retained =>
      dsimp only at h
      split at h
      · obtain ⟨rfl, rfl⟩ := Prod.mk.inj h
        exact .inr (.inl ⟨retained, rfl, rfl, .inl rfl⟩)
      next hge =>
        split at h
        · split at h
          · obtain ⟨rfl, rfl⟩ := Prod.mk.inj h
            exact .inr (.inl ⟨retained, rfl, rfl, .inr rfl⟩)
          · obtain ⟨rfl, rfl⟩ := Prod.mk.inj h
            exact .inl ⟨⟨_, rfl⟩, rfl⟩
        next hne =>
          obtain ⟨rfl, rfl⟩ := Prod.mk.inj h
          refine .inr (.inr ⟨rfl, rfl, ?_⟩)
          rintro _ ⟨⟩
          omega

theorem retainFlag_change {sequence : ℕ} {value : String}
    {result : Except FlagRetentionError FlagRetention}
    (h : endpoint.retainFlag sequence value = (result, next)) :
    Change endpoint (.retainFlag sequence value result) next := by
  unfold RelayEndpoint.retainFlag at h
  cases hretain : endpoint.flag.retain sequence value with
  | mk retention flag =>
      rw [hretain] at h
      obtain ⟨⟨error, rfl⟩, rfl⟩ | ⟨retained, hcurrent, rfl, hresult⟩ | ⟨rfl, rfl, hnewer⟩ :=
        retain_cases hretain
      · obtain ⟨rfl, rfl⟩ := Prod.mk.inj h
        exact .quiet (Nat.le_refl _) rfl rfl rfl rfl rfl rfl
      · by_cases hretired : endpoint.retired = true
        · have herror : result = .error .retired ∧
              next = { endpoint with flag := none, readiness := .pending } := by
            obtain rfl | rfl := hresult <;> simpa [hretired, eq_comm] using h
          obtain ⟨rfl, rfl⟩ := herror
          exact .dropped hretired (.inl rfl) rfl rfl rfl rfl rfl rfl
        · have hlive : endpoint.retired = false := Bool.eq_false_iff.mpr hretired
          obtain rfl | rfl := hresult
          · simp only [if_neg hretired] at h
            obtain ⟨rfl, rfl⟩ := Prod.mk.inj h
            exact .shown hlive hcurrent rfl rfl (.inl rfl) rfl rfl rfl (.inl rfl)
          · simp only [if_neg hretired] at h
            obtain ⟨rfl, rfl⟩ := Prod.mk.inj h
            refine .shown hlive hcurrent rfl rfl (.inr rfl) rfl rfl rfl ?_
            split
            · exact .inl rfl
            · exact .inr rfl
      · by_cases hretired : endpoint.retired = true
        · simp only [if_pos hretired] at h
          obtain ⟨rfl, rfl⟩ := Prod.mk.inj h
          exact .dropped hretired (.inl rfl) rfl rfl rfl rfl rfl rfl
        · simp only [if_neg hretired] at h
          obtain ⟨rfl, rfl⟩ := Prod.mk.inj h
          refine .retained (Bool.eq_false_iff.mpr hretired) hnewer ?_
          split
          next hready => exact .inr ⟨hready, hready⟩
          · exact .inl rfl

theorem exists_of_all_ne {α : Type} {o : Option α} {key : α → ℕ} {k : ℕ}
    (h : o.all (fun a => key a ≠ k) = false) : ∃ a, o = some a ∧ key a = k := by
  cases o with
  | none => simp at h
  | some a => exact ⟨a, rfl, by simpa using h⟩

/-- Every step is one of the changes. -/
theorem change_of_step {event : Event} (h : endpoint.Step event next) :
    Change endpoint event next := by
  cases event with
  | claim epoch =>
      simp only [RelayEndpoint.Step, RelayEndpoint.claim] at h
      split at h
      all_goals obtain ⟨rfl, rfl⟩ := Prod.mk.inj h
      · exact .quiet (Nat.le_refl _) rfl rfl rfl rfl rfl rfl
      · exact .quiet (Nat.le_succ _) rfl rfl rfl rfl rfl rfl
  | isIdleAt epoch idle =>
      obtain ⟨-, rfl⟩ := h
      exact .quiet (Nat.le_refl _) rfl rfl rfl rfl rfl rfl
  | current handle =>
      obtain ⟨-, rfl⟩ := h
      exact .quiet (Nat.le_refl _) rfl rfl rfl rfl rfl rfl
  | rawCurrent handle =>
      obtain ⟨-, rfl⟩ := h
      exact .quiet (Nat.le_refl _) rfl rfl rfl rfl rfl rfl
  | retainFlag sequence value result =>
      obtain h | ⟨-, rfl, rfl⟩ := h
      · exact retainFlag_change h
      · exact .quiet (Nat.le_refl _) rfl rfl rfl rfl rfl rfl
  | retainedFlag flag =>
      obtain ⟨hflag, rfl⟩ := h
      cases flag with
      | none => exact .quiet (Nat.le_refl _) rfl rfl rfl rfl rfl rfl
      | some flag =>
          have hread : next.retired = false ∧ next.flag = some flag := by
            simpa [RelayEndpoint.retainedFlag] using hflag
          exact .shown hread.1 hread.2 rfl rfl (.inl rfl) rfl rfl rfl (.inl rfl)
  | attach handle result =>
      simp only [RelayEndpoint.Step, RelayEndpoint.attach] at h
      split at h
      · obtain ⟨rfl, rfl⟩ := Prod.mk.inj h
        exact .quiet (Nat.le_refl _) rfl rfl rfl rfl rfl rfl
      next hretired =>
        obtain ⟨rfl, rfl⟩ := Prod.mk.inj h
        exact .attached (Bool.eq_false_iff.mpr hretired)
  | markFlagReady connectionId flag ready =>
      simp only [RelayEndpoint.Step, RelayEndpoint.markFlagReady] at h
      split at h
      · obtain ⟨rfl, rfl⟩ := Prod.mk.inj h
        exact .quiet (Nat.le_refl _) rfl rfl rfl rfl rfl rfl
      next hfence =>
        obtain ⟨rfl, rfl⟩ := Prod.mk.inj h
        simp only [Bool.or_eq_true, not_or, Bool.not_eq_true] at hfence
        obtain ⟨⟨hlive, hsession⟩, hflag⟩ := hfence
        obtain ⟨handle, hhandle, rfl⟩ := exists_of_all_ne hsession
        obtain ⟨current, hcurrent, hsequence⟩ := exists_of_all_ne hflag
        exact .readied hlive hhandle hcurrent hsequence
  | detachIf connectionId epoch =>
      simp only [RelayEndpoint.Step, RelayEndpoint.detachIf] at h
      split at h
      · obtain ⟨rfl, rfl⟩ := Prod.mk.inj h
        exact .quiet (Nat.le_refl _) rfl rfl rfl rfl rfl rfl
      next hfence =>
        obtain ⟨rfl, rfl⟩ := Prod.mk.inj h
        obtain ⟨handle, hhandle, rfl⟩ := exists_of_all_ne (Bool.eq_false_iff.mpr hfence)
        exact .detached hhandle
  | retireIfIdle epoch retired =>
      simp only [RelayEndpoint.Step, RelayEndpoint.retireIfIdle] at h
      split at h
      all_goals obtain ⟨rfl, rfl⟩ := Prod.mk.inj h
      · exact .quiet (Nat.le_refl _) rfl rfl rfl rfl rfl rfl
      · exact .retired (Nat.le_succ _) rfl rfl rfl rfl rfl rfl (.inr ⟨rfl, rfl⟩)
  | revokeStore =>
      obtain rfl := h
      exact .retired (Nat.le_refl _) rfl rfl rfl rfl rfl rfl (.inl ⟨rfl, rfl⟩)
  | revokeEpoch =>
      obtain rfl := h
      exact .quiet (Nat.le_succ _) rfl rfl rfl rfl rfl rfl
  | revokeSection handle =>
      obtain ⟨hretired, h⟩ := h
      obtain ⟨rfl, rfl⟩ := Prod.mk.inj h
      exact .dropped hretired (.inr rfl) rfl rfl rfl rfl rfl rfl

end Operations

section Invariants

variable {events : List Event} {endpoint next : RelayEndpoint}

theorem filterMap_snoc_none {α : Type} {f : Event → Option α} {event : Event}
    (h : f event = none) : (events ++ [event]).filterMap f = events.filterMap f := by
  simp [h]

theorem filterMap_snoc_some {α : Type} {f : Event → Option α} {event : Event} {a : α}
    (h : f event = some a) : (events ++ [event]).filterMap f = events.filterMap f ++ [a] := by
  simp [h]

/-- The endpoint is retired exactly when an event retired it. -/
theorem retired_eq_any (h : RelayEndpoint.History events endpoint) :
    endpoint.retired = events.any Event.retires := by
  refine h.history (P := fun es t => t.retired = es.any Event.retires) rfl ?_
  intro es t event u ih hstep
  rw [List.any_append, ← ih, List.any_cons, List.any_nil, Bool.or_false]
  cases change_of_step hstep with
  | quiet _ _ _ _ _ _ hretires => simp [hretires]
  | shown _ _ _ _ _ _ _ hretires _ => simp [hretires]
  | retained _ _ _ => simp [Event.retires]
  | dropped _ _ _ _ _ _ _ hretires => simp [hretires]
  | attached _ => simp [Event.retires]
  | readied _ _ _ _ => simp [Event.retires]
  | detached _ => simp [Event.retires]
  | retired _ _ _ _ _ _ hretires _ => simp [hretires]

/-- The retained flag is the newest one of a history whose flags only move forward. -/
structure FlagInvariant (events : List Event) (endpoint : RelayEndpoint) : Prop where
  forward : (events.filterMap Event.exposed).Pairwise RetainedFlag.Precedes
  newest : ∀ flag, endpoint.flag = some flag →
    ∀ earlier ∈ events.filterMap Event.exposed, earlier.Precedes flag
  accepted : ∀ flag, endpoint.flag = some flag → flag ∈ events.filterMap Event.accepted
  shown : ∀ flag ∈ events.filterMap Event.accepted, flag ∈ events.filterMap Event.exposed
  fresh : endpoint.retired = false → endpoint.flag = none → events.filterMap Event.exposed = []

/-- A step which shows no flag keeps the retained one, or drops it for good. -/
theorem FlagInvariant.keep {event : Event} (h : FlagInvariant events endpoint)
    (haccepted : event.accepted = none) (hexposed : event.exposed = none)
    (hflag : next.flag = endpoint.flag ∨ next.flag = none)
    (hlive : next.retired = false → next.flag = endpoint.flag ∧ endpoint.retired = false) :
    FlagInvariant (events ++ [event]) next := by
  have hkept : ∀ flag, next.flag = some flag → endpoint.flag = some flag := by
    intro flag hsome
    obtain hflag | hflag := hflag
    · exact hflag ▸ hsome
    · exact absurd (hflag.symm.trans hsome) (by simp)
  constructor
  all_goals simp only [filterMap_snoc_none haccepted, filterMap_snoc_none hexposed]
  · exact h.forward
  · exact fun flag hsome => h.newest flag (hkept flag hsome)
  · exact fun flag hsome => h.accepted flag (hkept flag hsome)
  · exact h.shown
  · intro hretired hnone
    obtain ⟨hsame, hbefore⟩ := hlive hretired
    exact h.fresh hbefore (hsame ▸ hnone)

theorem flagInvariant_step {event : Event} (h : FlagInvariant events endpoint)
    (hchange : Change endpoint event next) : FlagInvariant (events ++ [event]) next := by
  cases hchange with
  | quiet _ _ _ haccepted hexposed _ _ =>
      exact h.keep haccepted hexposed (.inl rfl) fun hlive => ⟨rfl, hlive⟩
  | @shown _ flag _ hlive hflag _ _ haccepted hexposed _ _ _ =>
      have hin : flag ∈ (events ++ [event]).filterMap Event.accepted := by
        rw [List.filterMap_append]
        exact List.mem_append_left _ (h.accepted flag hflag)
      constructor
      all_goals simp only [filterMap_snoc_some hexposed]
      · exact List.pairwise_append.mpr ⟨h.forward, List.pairwise_singleton _ _,
          fun a ha b hb => List.mem_singleton.mp hb ▸ h.newest flag hflag a ha⟩
      · intro current hcurrent earlier hearlier
        obtain rfl := Option.some.inj (hflag.symm.trans hcurrent)
        obtain hearlier | hearlier := List.mem_append.mp hearlier
        · exact h.newest _ hflag earlier hearlier
        · exact List.mem_singleton.mp hearlier ▸ RetainedFlag.precedes_refl _
      · intro current hcurrent
        obtain rfl := Option.some.inj (hflag.symm.trans hcurrent)
        exact hin
      · intro current hcurrent
        rw [List.filterMap_append, List.mem_append] at hcurrent
        obtain hold | hnew := hcurrent
        · exact List.mem_append_left _ (h.shown current hold)
        · obtain haccepted | haccepted := haccepted
          · simp [haccepted] at hnew
          · obtain rfl : current = flag := by simpa [haccepted] using hnew
            simp
      · intro _ hnone
        exact absurd (hflag.symm.trans hnone) (by simp)
  | @retained sequence value _ hlive hnewer _ =>
      have hlater : ∀ earlier ∈ events.filterMap Event.exposed,
          earlier.Precedes ⟨sequence, value⟩ := by
        intro earlier hearlier
        cases hflag : endpoint.flag with
        | none => exact absurd hearlier (by simp [h.fresh hlive hflag])
        | some flag =>
            have hle := (h.newest flag hflag earlier hearlier).1
            have hlt := hnewer flag hflag
            refine ⟨by dsimp only; omega, fun heq => ?_⟩
            dsimp only at heq
            omega
      have hexposed : (Event.retainFlag sequence value
          (.ok (.accepted ⟨sequence, value⟩))).exposed = some ⟨sequence, value⟩ := rfl
      have haccepted : (Event.retainFlag sequence value
          (.ok (.accepted ⟨sequence, value⟩))).accepted = some ⟨sequence, value⟩ := rfl
      constructor
      all_goals simp only [filterMap_snoc_some hexposed, filterMap_snoc_some haccepted]
      · exact List.pairwise_append.mpr ⟨h.forward, List.pairwise_singleton _ _,
          fun a ha b hb => List.mem_singleton.mp hb ▸ hlater a ha⟩
      · intro current hcurrent earlier hearlier
        obtain rfl := Option.some.inj hcurrent
        obtain hearlier | hearlier := List.mem_append.mp hearlier
        · exact hlater earlier hearlier
        · exact List.mem_singleton.mp hearlier ▸ RetainedFlag.precedes_refl _
      · intro current hcurrent
        obtain rfl := Option.some.inj hcurrent
        simp
      · intro current hcurrent
        obtain hold | hnew := List.mem_append.mp hcurrent
        · exact List.mem_append_left _ (h.shown current hold)
        · exact List.mem_append_right _ hnew
      · intro _ hnone
        exact absurd hnone (by simp)
  | dropped hretired _ _ _ haccepted hexposed _ _ =>
      exact h.keep haccepted hexposed (.inr rfl) fun hlive =>
        absurd (hretired.symm.trans hlive) (by simp)
  | attached hlive => exact h.keep rfl rfl (.inl rfl) fun _ => ⟨rfl, hlive⟩
  | readied hlive _ _ _ => exact h.keep rfl rfl (.inl rfl) fun _ => ⟨rfl, hlive⟩
  | detached _ => exact h.keep rfl rfl (.inl rfl) fun hlive => ⟨rfl, hlive⟩
  | retired _ _ _ haccepted hexposed _ _ hflag =>
      refine h.keep haccepted hexposed ?_ fun hlive => absurd hlive (by simp)
      exact hflag.imp And.left And.left

theorem flagInvariant (h : RelayEndpoint.History events endpoint) :
    FlagInvariant events endpoint :=
  h.history ⟨.nil, by simp [RelayEndpoint.bind], by simp [RelayEndpoint.bind], by simp, by simp⟩
    fun _ _ _ _ ih hstep => flagInvariant_step ih (change_of_step hstep)

/-- The session is the last one attached, and what it is ready for was acknowledged by it. -/
structure SessionInvariant (events : List Event) (endpoint : RelayEndpoint) : Prop where
  last : ∀ handle, endpoint.session = some handle →
    (events.filterMap Event.attached).getLast? = some handle
  kept : ∀ handle, endpoint.session = some handle → handle.id ∉ events.filterMap Event.detached
  once : ∀ id ∈ events.filterMap Event.detached,
    id ∈ (events.filterMap Event.attached).map (·.id)
  ready : ∀ sequence, endpoint.readiness = .flag sequence → ∀ handle,
    endpoint.session = some handle → (handle.id, sequence) ∈ events.filterMap Event.readied
  noFlag : endpoint.readiness = .noFlag → endpoint.flag = none

/-- A step which leaves the sessions alone. -/
theorem SessionInvariant.keep {event : Event} (h : SessionInvariant events endpoint)
    (hattached : event.attached = none) (hdetached : event.detached = none)
    (hsession : next.session = endpoint.session ∨ next.session = none)
    (hready : ∀ sequence, next.readiness = .flag sequence →
      endpoint.readiness = .flag sequence ∨ ∀ handle, next.session = some handle →
        event.readied = some (handle.id, sequence))
    (hnoFlag : next.readiness = .noFlag → next.flag = none) :
    SessionInvariant (events ++ [event]) next := by
  have hkept : ∀ handle, next.session = some handle → endpoint.session = some handle := by
    intro handle hsome
    obtain hsession | hsession := hsession
    · exact hsession ▸ hsome
    · exact absurd (hsession.symm.trans hsome) (by simp)
  constructor
  · rw [filterMap_snoc_none hattached]
    exact fun handle hsome => h.last handle (hkept handle hsome)
  · rw [filterMap_snoc_none hdetached]
    exact fun handle hsome => h.kept handle (hkept handle hsome)
  · rw [filterMap_snoc_none hattached, filterMap_snoc_none hdetached]
    exact h.once
  · intro sequence hsequence handle hsome
    rw [List.filterMap_append]
    obtain hbefore | hnow := hready sequence hsequence
    · exact List.mem_append_left _ (h.ready sequence hbefore handle (hkept handle hsome))
    · simp [hnow handle hsome]
  · exact hnoFlag

theorem sessionInvariant_step {event : Event} (h : SessionInvariant events endpoint)
    (hunique : (((events ++ [event]).filterMap Event.attached).map (·.id)).Nodup)
    (hchange : Change endpoint event next) : SessionInvariant (events ++ [event]) next := by
  cases hchange with
  | quiet _ hattached hdetached _ _ _ _ =>
      exact h.keep hattached hdetached (.inl rfl) (fun _ hready => .inl hready) h.noFlag
  | shown _ hflag hattached hdetached _ _ _ _ hreadiness =>
      refine h.keep hattached hdetached (.inl rfl) ?_ ?_
      · rintro sequence hready
        obtain rfl | rfl := hreadiness
        · exact .inl hready
        · exact absurd hready (by simp)
      · rintro hnone
        obtain rfl | rfl := hreadiness
        · exact h.noFlag hnone
        · exact absurd hnone (by simp)
  | retained _ _ hreadiness =>
      refine h.keep rfl rfl (.inl rfl) ?_ ?_
      · rintro sequence hready
        obtain rfl | ⟨rfl, hbefore⟩ := hreadiness
        · exact absurd hready (by simp)
        · exact .inl (hbefore.trans hready)
      · rintro hnone
        obtain rfl | ⟨rfl, -⟩ := hreadiness <;> exact absurd hnone (by simp)
  | dropped _ hsession hattached hdetached _ _ _ _ =>
      exact h.keep hattached hdetached hsession (fun _ hready => absurd hready (by simp))
        fun hnone => absurd hnone (by simp)
  | @attached handle hlive =>
      have hattached : (Event.attach handle (.ok endpoint.session)).attached = some handle := rfl
      have hdetached : (Event.attach handle (.ok endpoint.session)).detached = none := rfl
      rw [filterMap_snoc_some hattached, List.map_append, List.nodup_append] at hunique
      constructor
      · rintro _ ⟨⟩
        rw [filterMap_snoc_some hattached]
        exact List.getLast?_concat
      · rintro _ ⟨⟩ hmem
        rw [filterMap_snoc_none hdetached] at hmem
        exact hunique.2.2 _ (h.once _ hmem) _ (by simp) rfl
      · intro id hid
        rw [filterMap_snoc_none hdetached] at hid
        rw [filterMap_snoc_some hattached, List.map_append]
        exact List.mem_append_left _ (h.once id hid)
      · intro sequence hready
        split at hready <;> exact absurd hready (by simp)
      · intro hready
        split at hready
        · exact absurd hready (by simp)
        next hnone => simpa using hnone
  | readied hlive hsession hflag _ =>
      refine h.keep rfl rfl (.inl rfl) ?_ ?_
      · rintro sequence ⟨⟩
        right
        intro handle hsome
        obtain rfl := Option.some.inj (hsession.symm.trans hsome)
        rfl
      · intro hnone
        exact absurd hnone (by simp)
  | @detached handle hsession =>
      have hattached : (Event.detachIf handle.id (some (endpoint.idleEpoch + 1))).attached = none :=
        rfl
      have hdetached : (Event.detachIf handle.id (some (endpoint.idleEpoch + 1))).detached =
        some handle.id := rfl
      constructor
      · simp
      · simp
      · intro id hid
        rw [filterMap_snoc_some hdetached] at hid
        rw [filterMap_snoc_none hattached]
        obtain hid | hid := List.mem_append.mp hid
        · exact h.once id hid
        · obtain rfl := List.mem_singleton.mp hid
          exact List.mem_map_of_mem (List.mem_of_getLast? (h.last handle hsession))
      · simp
      · simp
  | retired _ hattached hdetached _ _ _ _ hflag =>
      refine h.keep hattached hdetached (.inl rfl) ?_ ?_
      · rintro sequence hready
        obtain ⟨-, rfl⟩ | ⟨-, rfl⟩ := hflag
        · exact .inl hready
        · exact absurd hready (by simp)
      · rintro hnone
        obtain ⟨rfl, rfl⟩ | ⟨rfl, rfl⟩ := hflag
        · exact h.noFlag hnone
        · rfl

theorem sessionInvariant (h : RelayEndpoint.History events endpoint)
    (hunique : ((events.filterMap Event.attached).map (·.id)).Nodup) :
    SessionInvariant events endpoint := by
  refine h.history (P := fun es t => ((es.filterMap Event.attached).map (·.id)).Nodup →
    SessionInvariant es t) ?_ ?_ hunique
  · exact fun _ => ⟨by simp [RelayEndpoint.bind], by simp [RelayEndpoint.bind], by simp,
      by simp [RelayEndpoint.bind], by simp [RelayEndpoint.bind]⟩
  · intro es t event u ih hstep hnd
    refine sessionInvariant_step (ih ?_) hnd (change_of_step hstep)
    rw [List.filterMap_append, List.map_append] at hnd
    exact hnd.of_append_left

end Invariants

section Epochs

variable {events : List Event} {endpoint next : RelayEndpoint} {event : Event}

/-- Epochs only advance, and a retired endpoint stays retired. -/
theorem epoch_step (h : endpoint.Step event next) :
    endpoint.idleEpoch ≤ next.idleEpoch ∧ (endpoint.retired = true → next.retired = true) := by
  cases change_of_step h with
  | quiet hepoch _ _ _ _ _ _ => exact ⟨hepoch, id⟩
  | shown _ _ _ _ _ _ _ _ _ => exact ⟨Nat.le_refl _, id⟩
  | retained _ _ _ => exact ⟨Nat.le_refl _, id⟩
  | dropped _ _ _ _ _ _ _ _ => exact ⟨Nat.le_refl _, id⟩
  | attached _ => exact ⟨Nat.le_succ _, id⟩
  | readied _ _ _ _ => exact ⟨Nat.le_refl _, id⟩
  | detached _ => exact ⟨Nat.le_succ _, id⟩
  | retired hepoch _ _ _ _ _ _ _ => exact ⟨hepoch, fun _ => rfl⟩

theorem epoch_run (h : StepPath RelayEndpoint.Step endpoint events next) :
    endpoint.idleEpoch ≤ next.idleEpoch ∧ (endpoint.retired = true → next.retired = true) := by
  induction h with
  | nil => exact ⟨Nat.le_refl _, id⟩
  | cons hstep _ ih =>
      have hfirst := epoch_step hstep
      exact ⟨Nat.le_trans hfirst.1 ih.1, fun hretired => ih.2 (hfirst.2 hretired)⟩

/-- The endpoint carries the epoch which was just handed out. -/
theorem idleEpoch_of_epoch {epoch : ℕ} (h : endpoint.Step event next)
    (hepoch : event.epoch = some epoch) : next.idleEpoch = epoch := by
  cases event with
  | claim handed =>
      obtain rfl : handed = some epoch := hepoch
      simp only [RelayEndpoint.Step, RelayEndpoint.claim] at h
      split at h
      · exact absurd (Prod.mk.inj h).1 (by simp)
      · obtain ⟨hsome, rfl⟩ := Prod.mk.inj h
        exact Option.some.inj hsome
  | detachIf connectionId handed =>
      obtain rfl : handed = some epoch := hepoch
      simp only [RelayEndpoint.Step, RelayEndpoint.detachIf] at h
      split at h
      · exact absurd (Prod.mk.inj h).1 (by simp)
      · obtain ⟨hsome, rfl⟩ := Prod.mk.inj h
        exact Option.some.inj hsome
  | _ => exact absurd hepoch (by simp [Event.epoch])

/-- A use of the endpoint advances its epoch, unless it was retired before. -/
theorem epoch_lt_of_touches (h : endpoint.Step event next) (htouches : event.touches = true) :
    endpoint.idleEpoch < next.idleEpoch ∨ next.retired = true := by
  cases event with
  | claim handed =>
      simp only [RelayEndpoint.Step, RelayEndpoint.claim] at h
      split at h
      next hretired =>
        obtain ⟨-, rfl⟩ := Prod.mk.inj h
        exact .inr hretired
      · obtain ⟨-, rfl⟩ := Prod.mk.inj h
        exact .inl (Nat.lt_succ_self _)
  | attach handle result =>
      simp only [RelayEndpoint.Step, RelayEndpoint.attach] at h
      split at h
      next hretired =>
        obtain ⟨-, rfl⟩ := Prod.mk.inj h
        exact .inr hretired
      · obtain ⟨-, rfl⟩ := Prod.mk.inj h
        exact .inl (Nat.lt_succ_self _)
  | detachIf connectionId handed =>
      simp only [RelayEndpoint.Step, RelayEndpoint.detachIf] at h
      split at h
      · obtain ⟨rfl, -⟩ := Prod.mk.inj h
        exact absurd htouches (by simp [Event.touches])
      · obtain ⟨-, rfl⟩ := Prod.mk.inj h
        exact .inl (Nat.lt_succ_self _)
  | _ => exact absurd htouches (by simp [Event.touches])

theorem retireIfIdle_eq_true {epoch : ℕ} (h : endpoint.retireIfIdle epoch = (true, next)) :
    endpoint.retired = false ∧ endpoint.idleEpoch = epoch := by
  unfold RelayEndpoint.retireIfIdle at h
  split at h
  · exact absurd (Prod.mk.inj h).1 (by simp)
  next hcond =>
    simp only [Bool.or_eq_true, not_or, decide_eq_true_eq, not_not, Bool.not_eq_true] at hcond
    exact hcond.1

/-- Nobody used an endpoint between two moments with the same epoch before its
retirement. -/
theorem untouched_of_epoch_eq (h : StepPath RelayEndpoint.Step endpoint events next)
    (hlive : next.retired = false) (hepoch : next.idleEpoch = endpoint.idleEpoch) :
    ∀ event ∈ events, event.touches = false := by
  intro event hevent
  obtain ⟨before, after, rfl⟩ := List.append_of_mem hevent
  obtain ⟨s, t, hbefore, hstep, hafter⟩ := h.of_middle
  by_contra htouches
  obtain hlt | hretired := epoch_lt_of_touches hstep (eq_true_of_ne_false htouches)
  · have hstart := (epoch_run hbefore).1
    have hend := (epoch_run hafter).1
    omega
  · exact absurd ((epoch_run hafter).2 hretired) (by simp [hlive])

end Epochs

/-- What holds of an endpoint after a history. -/
structure Safe (events : List Event) (endpoint : RelayEndpoint) : Prop where
  /-- A session is only exposed while it is the last one attached, was not detached and is
  ready for the newest flag. -/
  exposed : ∀ handle, endpoint.current = some handle →
    (events.filterMap Event.attached).getLast? = some handle ∧
    handle.id ∉ events.filterMap Event.detached ∧
    (∀ event ∈ events, event.retires = false) ∧
    (events.filterMap Event.accepted = [] ∨
      ∃ flag ∈ events.filterMap Event.accepted,
        (handle.id, flag.sequence) ∈ events.filterMap Event.readied ∧
        ∀ other ∈ events.filterMap Event.accepted, other.sequence ≤ flag.sequence)
  /-- The flags which were shown move forward, and one sequence has one flag. -/
  forward : (events.filterMap Event.exposed).Pairwise fun earlier later =>
    earlier.sequence ≤ later.sequence ∧ (earlier.sequence = later.sequence → earlier = later)
  /-- A retired endpoint exposes nothing and retains nothing. -/
  silent : (∃ event ∈ events, event.retires = true) →
    endpoint.current = none ∧ endpoint.rawCurrent = none ∧ endpoint.retainedFlag = none ∧
    ∀ sequence value retention, (endpoint.retainFlag sequence value).1 ≠ .ok retention
  /-- An endpoint is only retired as idle when nobody used it since the epoch was handed
  out, by an event or when the endpoint was bound. -/
  idle : ∀ epoch, (endpoint.retireIfIdle epoch).1 = true → ∀ before since,
    events = before ++ since →
    (before = [] ∧ epoch = 1 ∨ ∃ event, before.getLast? = some event ∧ event.epoch = some epoch) →
    ∀ event ∈ since, event.touches = false

theorem current_eq_some {endpoint : RelayEndpoint} {handle : TunnelHandle}
    (h : endpoint.current = some handle) :
    endpoint.retired = false ∧ endpoint.session = some handle ∧
      match endpoint.flag with
      | some flag => endpoint.readiness = .flag flag.sequence
      | none => endpoint.readiness = .noFlag := by
  unfold RelayEndpoint.current at h
  split at h
  · exact absurd h (by simp)
  next hretired =>
    refine ⟨Bool.eq_false_iff.mpr hretired, ?_⟩
    unfold RelayEndpoint.readyHandle at h
    cases hflag : endpoint.flag with
    | none =>
        simp only [hflag, decide_eq_true_eq] at h
        split at h
        next hready => exact ⟨h, hready⟩
        · exact absurd h (by simp)
    | some flag =>
        simp only [hflag, decide_eq_true_eq] at h
        split at h
        next hready => exact ⟨h, hready⟩
        · exact absurd h (by simp)

theorem exposed_of_current {events : List Event} {endpoint : RelayEndpoint}
    (h : RelayEndpoint.History events endpoint)
    (hunique : ((events.filterMap Event.attached).map (·.id)).Nodup) {handle : TunnelHandle}
    (hcurrent : endpoint.current = some handle) :
    (events.filterMap Event.attached).getLast? = some handle ∧
    handle.id ∉ events.filterMap Event.detached ∧
    (∀ event ∈ events, event.retires = false) ∧
    (events.filterMap Event.accepted = [] ∨
      ∃ flag ∈ events.filterMap Event.accepted,
        (handle.id, flag.sequence) ∈ events.filterMap Event.readied ∧
        ∀ other ∈ events.filterMap Event.accepted, other.sequence ≤ flag.sequence) := by
  have hflags := flagInvariant h
  have hsessions := sessionInvariant h hunique
  obtain ⟨hlive, hsession, hready⟩ := current_eq_some hcurrent
  refine ⟨hsessions.last handle hsession, hsessions.kept handle hsession, ?_, ?_⟩
  · intro event hevent
    by_contra hretires
    have hany : events.any Event.retires = true :=
      List.any_eq_true.mpr ⟨event, hevent, eq_true_of_ne_false hretires⟩
    rw [← retired_eq_any h, hlive] at hany
    exact absurd hany (by simp)
  · cases hflag : endpoint.flag with
    | none =>
        left
        have hexposed := hflags.fresh hlive hflag
        rw [List.eq_nil_iff_forall_not_mem]
        intro flag hmem
        exact absurd (hflags.shown flag hmem) (by simp [hexposed])
    | some flag =>
        right
        rw [hflag] at hready
        refine ⟨flag, hflags.accepted flag hflag, hsessions.ready _ hready handle hsession, ?_⟩
        intro other hother
        exact (hflags.newest flag hflag other (hflags.shown other hother)).1

theorem retainFlag_ne_ok {endpoint : RelayEndpoint} (h : endpoint.retired = true)
    (sequence : ℕ) (value : String) (retention : FlagRetention) :
    (endpoint.retainFlag sequence value).1 ≠ .ok retention := by
  unfold RelayEndpoint.retainFlag
  split
  · simp
  · simp [h]

/-- Every endpoint is safe after every history in which no connection id is attached
twice. -/
theorem endpoint_safe {events : List Event} {endpoint : RelayEndpoint}
    (h : RelayEndpoint.History events endpoint)
    (hunique : ((events.filterMap Event.attached).map (·.id)).Nodup) : Safe events endpoint where
  exposed _ hcurrent := exposed_of_current h hunique hcurrent
  forward := (flagInvariant h).forward
  silent := by
    intro hretires
    have hretired : endpoint.retired = true := by
      rw [retired_eq_any h]
      exact List.any_eq_true.mpr hretires
    refine ⟨if_pos hretired, if_pos hretired, if_pos hretired, ?_⟩
    exact retainFlag_ne_ok hretired
  idle := by
    rintro epoch hretire before since rfl hhanded
    obtain ⟨hlive, hepoch⟩ := retireIfIdle_eq_true (Prod.ext hretire rfl)
    obtain ⟨s, hbefore, hsince⟩ := h.of_append
    have hstart : s.idleEpoch = epoch := by
      obtain ⟨rfl, rfl⟩ | ⟨event, hlast, hevent⟩ := hhanded
      · cases hbefore
        rfl
      · obtain ⟨front, rfl⟩ := List.getLast?_eq_some_iff.mp hlast
        obtain ⟨r, -, hstep⟩ := hbefore.of_append
        cases hstep with
        | cons hfirst hrest =>
            cases hrest
            exact idleEpoch_of_epoch hfirst hevent
    exact untouched_of_epoch_eq hsince hlive (hepoch.trans hstart.symm)

def sampleFlag : RetainedFlag := ⟨7, "flag{AAAAAAAAAAAAAAAAAAAAAAAAAAAAAAAA}"⟩

/-- A session attaches, acknowledges the retained flag, is exposed, and is replaced. -/
def reconnection : List Event :=
  [.retainFlag 7 sampleFlag.value (.ok (.accepted sampleFlag)), .attach ⟨1⟩ (.ok none),
    .markFlagReady 1 sampleFlag true, .current (some ⟨1⟩), .attach ⟨2⟩ (.ok (some ⟨1⟩)),
    .detachIf 1 none]

def reconnected : RelayEndpoint := ⟨some ⟨2⟩, some sampleFlag, .pending, 3, false⟩

theorem reconnection_history : RelayEndpoint.History reconnection reconnected := by
  have hflag : RelayEndpoint.bind.Step (.retainFlag 7 sampleFlag.value (.ok (.accepted sampleFlag)))
      ⟨none, some sampleFlag, .pending, 1, false⟩ := .inl (by decide +kernel)
  have hready : RelayEndpoint.Step ⟨some ⟨1⟩, some sampleFlag, .pending, 2, false⟩
      (.markFlagReady 1 sampleFlag true) ⟨some ⟨1⟩, some sampleFlag, .flag 7, 2, false⟩ := rfl
  have hcurrent : RelayEndpoint.Step ⟨some ⟨1⟩, some sampleFlag, .flag 7, 2, false⟩
      (.current (some ⟨1⟩)) ⟨some ⟨1⟩, some sampleFlag, .flag 7, 2, false⟩ := ⟨rfl, rfl⟩
  have hattach : RelayEndpoint.Step ⟨some ⟨1⟩, some sampleFlag, .flag 7, 2, false⟩
      (.attach ⟨2⟩ (.ok (some ⟨1⟩))) reconnected := rfl
  have hdetach : RelayEndpoint.Step reconnected (.detachIf 1 none) reconnected := rfl
  exact .cons hflag (.cons rfl (.cons hready (.cons hcurrent (.cons hattach
    (.cons hdetach (.nil _))))))

theorem endpoint_safe_reconnection : Safe reconnection reconnected :=
  endpoint_safe reconnection_history (by decide)

end Byoc

end Rsctf
