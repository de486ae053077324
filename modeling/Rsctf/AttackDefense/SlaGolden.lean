import Rsctf.AttackDefense.SlaTimeline

/-!
# The golden SLA policy

The policy of the tests adjudicates one sample at a time from the outcome of the
previous one.  It forgets the verdict before a missing sample, while the windows
of the evidence query look past it.  The two give the same credits as long as no
missing sample stands between a verdict and a round for which it matters.
-/

open Ledger Window

namespace Rsctf

namespace AttackDefense

/-- The outcome of one sample under the golden policy. -/
@[ext] structure Adjudicated where
  credit : Option ℚ
  effective : Option AdCheckStatus
deriving DecidableEq, Repr

/-- One step of the golden policy. -/
def adjudicate (previous : Option Adjudicated) (current : Option AdCheckStatus) :
    Adjudicated :=
  match current with
  | none => { credit := some 0, effective := none }
  | some .internalError => previous.getD { credit := none, effective := none }
  | some .ok =>
    { credit :=
        if previous.any fun sample => penalized sample.effective then some (1 / 2) else some 1
      effective := some .ok }
  | some status => { credit := some 0, effective := some status }

/-- The outcome of the last sample, by folding the policy from the first one. -/
def adjudicateAll (samples : List (Option AdCheckStatus)) : Option Adjudicated :=
  samples.foldl (fun previous current => some (adjudicate previous current)) none

/-- The credit of every sample under the golden policy. -/
def goldenCredits (samples : List (Option AdCheckStatus)) : List (Option ℚ) :=
  record (fun before current => (adjudicate (adjudicateAll before) current).credit) [] samples

/-- A check without platform void outside event-end settlement. -/
def plainSample (sample : Option AdCheckStatus) : Option CheckSample :=
  sample.map fun status => ⟨status, false, false⟩

/-- The credit of every sample under the windows of the evidence query. -/
def effectiveCredits (samples : List (Option AdCheckStatus)) : List (Option ℚ) :=
  (slaTimeline .empty (samples.map plainSample)).map (·.effectiveCredit)

/-- The last verdict about the service. -/
def lastVerdict (before : List (Option AdCheckStatus)) : Option AdCheckStatus :=
  lastSome (before.map (Option.filter (·.noninfra)))

/-- Some sample after the last verdict, or since the start, is missing. -/
def MissingSinceVerdict (before : List (Option AdCheckStatus)) : Prop :=
  ∃ l₁ l₂, before = l₁ ++ none :: l₂ ∧ lastVerdict l₂ = none

/-- A missing sample since the last verdict does not matter for the current one: an
infrastructure error carries a zero anyway, a healthy check is not a recovery. -/
def GapHarmless (before : List (Option AdCheckStatus)) (current : Option AdCheckStatus) :
    Prop :=
  MissingSinceVerdict before →
    (current = some .internalError → penalized (lastVerdict before) = true) ∧
      (current = some .ok → penalized (lastVerdict before) = false)

theorem lastVerdict_append_singleton (before : List (Option AdCheckStatus))
    (current : Option AdCheckStatus) :
    lastVerdict (before ++ [current]) =
      (current.filter (·.noninfra)).or (lastVerdict before) := by
  simp [lastVerdict]

theorem missingSinceVerdict_append_singleton (before : List (Option AdCheckStatus))
    (current : Option AdCheckStatus) :
    MissingSinceVerdict (before ++ [current]) ↔
      current = none ∨ (current.filter (·.noninfra) = none ∧ MissingSinceVerdict before) := by
  constructor
  · rintro ⟨l₁, l₂, hl, hl₂⟩
    rcases List.eq_nil_or_concat l₂ with rfl | ⟨l₃, c, rfl⟩
    · exact .inl (List.singleton_inj.mp (List.append_inj' hl rfl).2)
    · rw [List.concat_eq_append] at hl hl₂
      rw [← List.cons_append, ← List.append_assoc] at hl
      obtain ⟨rfl, hc⟩ := List.append_inj' hl rfl
      obtain rfl := List.singleton_inj.mp hc
      rw [lastVerdict_append_singleton, Option.or_eq_none_iff] at hl₂
      exact .inr ⟨hl₂.1, l₁, l₃, rfl, hl₂.2⟩
  · rintro (rfl | ⟨hcurrent, l₁, l₂, rfl, hl₂⟩)
    · exact ⟨before, [], rfl, rfl⟩
    · refine ⟨l₁, l₂ ++ [current], by simp, ?_⟩
      rw [lastVerdict_append_singleton, hcurrent, hl₂]
      rfl

theorem adjudicateAll_append_singleton (before : List (Option AdCheckStatus))
    (current : Option AdCheckStatus) :
    adjudicateAll (before ++ [current]) = some (adjudicate (adjudicateAll before) current) := by
  simp [adjudicateAll]

theorem previousNoninfra_map_plainSample (before : List (Option AdCheckStatus)) :
    previousNoninfra (before.map plainSample) = lastVerdict before := by
  rw [previousNoninfra, lastVerdict, List.map_map]
  congr 1
  refine List.map_congr_left fun sample _ => ?_
  cases sample <;> rfl

/-- The credit which a plain sample earns by its own verdict. -/
def plainCredit (before : List (Option AdCheckStatus)) (current : Option AdCheckStatus) :
    Option ℚ :=
  noninfraCredit .empty (before.map plainSample) (plainSample current)

theorem previousCredit_append_singleton (before : List (Option AdCheckStatus))
    (current : Option AdCheckStatus) :
    previousCredit .empty ((before ++ [current]).map plainSample) =
      (plainCredit before current).or (previousCredit .empty (before.map plainSample)) := by
  rw [previousCredit, List.map_append, List.map_singleton, record_append_singleton,
    lastSome_append, lastSome_singleton, previousCredit, List.nil_append, plainCredit]

theorem plainCredit_ok (before : List (Option AdCheckStatus)) :
    plainCredit before (some .ok) =
      if penalized (lastVerdict before) then some (1 / 2) else some 1 := by
  simp only [plainCredit, plainSample, Option.map_some, noninfraCredit,
    previousNoninfra_map_plainSample, SeedState.empty, Option.or_none]
  rfl

/-- The carried credit is zero exactly after a penalized verdict. -/
theorem previousCredit_eq_zero_iff (before : List (Option AdCheckStatus)) :
    previousCredit .empty (before.map plainSample) = some 0 ↔
      penalized (lastVerdict before) = true := by
  induction before using List.reverseRecOn with
  | nil => decide
  | append_singleton before current ih =>
      rw [previousCredit_append_singleton, lastVerdict_append_singleton]
      match current with
      | none => exact ih
      | some .internalError => exact ih
      | some .ok =>
          rw [plainCredit_ok]
          split <;> simp [penalized, Option.filter, AdCheckStatus.noninfra]
      | some .mumble => exact iff_of_true rfl rfl
      | some .offline => exact iff_of_true rfl rfl

theorem penalized_none : penalized none = false := rfl

/-- The outcome carried by the golden policy, which starts without one. -/
def goldenState (before : List (Option AdCheckStatus)) : Adjudicated :=
  (adjudicateAll before).getD ⟨none, none⟩

theorem adjudicate_goldenState (before : List (Option AdCheckStatus))
    (current : Option AdCheckStatus) :
    adjudicate (adjudicateAll before) current =
      adjudicate (some (goldenState before)) current := by
  unfold goldenState
  cases adjudicateAll before with
  | some outcome => rfl
  | none =>
      match current with
      | none | some .ok | some .mumble | some .offline | some .internalError => rfl

theorem goldenState_append_singleton (before : List (Option AdCheckStatus))
    (current : Option AdCheckStatus) :
    goldenState (before ++ [current]) = adjudicate (some (goldenState before)) current := by
  rw [goldenState, adjudicateAll_append_singleton, Option.getD_some, adjudicate_goldenState]

/-- The credit of a plain sample under the windows of the evidence query. -/
def windowCredit (before : List (Option AdCheckStatus)) (current : Option AdCheckStatus) :
    Option ℚ :=
  (slaCell .empty (before.map plainSample) (plainSample current)).effectiveCredit

/-- The golden state agrees with the windows, except that a missing sample resets it. -/
structure StateAgrees (before : List (Option AdCheckStatus)) : Prop where
  missing : MissingSinceVerdict before → goldenState before = ⟨some 0, none⟩
  present : ¬MissingSinceVerdict before →
    goldenState before =
      ⟨previousCredit .empty (before.map plainSample), lastVerdict before⟩

/-- From an agreeing state, the credits of a sample agree when its gap is harmless. -/
theorem StateAgrees.credit_eq_iff {before : List (Option AdCheckStatus)}
    (h : StateAgrees before) (current : Option AdCheckStatus) :
    (adjudicate (some (goldenState before)) current).credit = windowCredit before current ↔
      GapHarmless before current := by
  match current with
  | none => exact iff_of_true rfl fun _ => ⟨nofun, nofun⟩
  | some .mumble => exact iff_of_true rfl fun _ => ⟨nofun, nofun⟩
  | some .offline => exact iff_of_true rfl fun _ => ⟨nofun, nofun⟩
  | some .internalError =>
      have hwindow : windowCredit before (some .internalError) =
          previousCredit .empty (before.map plainSample) := Option.or_none
      have hgolden : adjudicate (some (goldenState before)) (some .internalError) =
          goldenState before := rfl
      rw [hwindow, hgolden]
      by_cases hmissing : MissingSinceVerdict before
      · rw [h.missing hmissing, eq_comm, previousCredit_eq_zero_iff]
        simp [GapHarmless, hmissing]
      · rw [h.present hmissing]
        exact iff_of_true rfl fun hm => absurd hm hmissing
  | some .ok =>
      have hwindow : windowCredit before (some .ok) =
          if penalized (lastVerdict before) then some (1 / 2) else some 1 :=
        plainCredit_ok before
      have hgolden : (adjudicate (some (goldenState before)) (some .ok)).credit =
          if penalized (goldenState before).effective then some (1 / 2) else some 1 := rfl
      rw [hwindow, hgolden]
      by_cases hmissing : MissingSinceVerdict before
      · rw [h.missing hmissing]
        cases hlast : penalized (lastVerdict before) <;>
          simp [GapHarmless, hmissing, hlast, penalized_none]
      · rw [h.present hmissing]
        exact iff_of_true rfl fun hm => absurd hm hmissing

/-- One sample with equal credits keeps the state in agreement. -/
theorem StateAgrees.append_singleton {before : List (Option AdCheckStatus)}
    (h : StateAgrees before) {current : Option AdCheckStatus}
    (hcredit : (adjudicate (some (goldenState before)) current).credit =
      windowCredit before current) :
    StateAgrees (before ++ [current]) := by
  constructor
  · intro hmissing
    rw [goldenState_append_singleton]
    rcases (missingSinceVerdict_append_singleton before current).mp hmissing with
      rfl | ⟨hnone, hbefore⟩
    · rfl
    · match current with
      | none => rfl
      | some .internalError => exact h.missing hbefore
  · intro hpresent
    rw [missingSinceVerdict_append_singleton, not_or, not_and] at hpresent
    rw [goldenState_append_singleton, previousCredit_append_singleton,
      lastVerdict_append_singleton]
    match current with
    | none => exact absurd rfl hpresent.1
    | some .internalError => exact h.present (hpresent.2 rfl)
    | some .mumble => rfl
    | some .offline => rfl
    | some .ok =>
        refine Adjudicated.ext ?_ rfl
        have hwindow : windowCredit before (some .ok) = plainCredit before (some .ok) := rfl
        rw [hcredit, hwindow, plainCredit_ok]
        split <;> rfl

theorem stateAgrees_nil : StateAgrees [] :=
  ⟨fun ⟨l₁, l₂, hl, _⟩ => by simp at hl, fun _ => rfl⟩

theorem goldenCredits_eq_iff (samples : List (Option AdCheckStatus)) :
    goldenCredits samples = effectiveCredits samples ↔
      ∀ l₁ current l₂, samples = l₁ ++ current :: l₂ →
        (adjudicate (some (goldenState l₁)) current).credit = windowCredit l₁ current := by
  have heffective : effectiveCredits samples = record windowCredit [] samples := by
    rw [effectiveCredits, slaTimeline, map_record_eq]
    exact record_map _ plainSample [] samples
  rw [goldenCredits, heffective, record_eq_record_iff]
  simp only [List.nil_append, adjudicate_goldenState]

/-- The credits agree exactly when every gap is harmless, and then so does the state. -/
theorem credits_eq_iff_and_stateAgrees (samples : List (Option AdCheckStatus)) :
    ((∀ l₁ current l₂, samples = l₁ ++ current :: l₂ →
        (adjudicate (some (goldenState l₁)) current).credit = windowCredit l₁ current) ↔
      ∀ l₁ current l₂, samples = l₁ ++ current :: l₂ → GapHarmless l₁ current) ∧
    ((∀ l₁ current l₂, samples = l₁ ++ current :: l₂ →
        (adjudicate (some (goldenState l₁)) current).credit = windowCredit l₁ current) →
      StateAgrees samples) := by
  induction samples using List.reverseRecOn with
  | nil => exact ⟨by simp, fun _ => stateAgrees_nil⟩
  | append_singleton samples current ih =>
      obtain ⟨hiff, hstate⟩ := ih
      rw [forall_split_append_singleton, forall_split_append_singleton]
      constructor
      · rw [← hiff]
        exact and_congr_right fun h => (hstate h).credit_eq_iff current
      · rintro ⟨hinit, hlast⟩
        exact (hstate hinit).append_singleton hlast

/-- **When the query follows the golden policy.**  The effective credits of the evidence
query are the credits of the golden policy exactly when, after a missing sample
and before the next verdict, infrastructure errors only follow a penalized
verdict and the next verdict is no recovery from one. -/
theorem effectiveCredits_eq_goldenCredits_iff (samples : List (Option AdCheckStatus)) :
    effectiveCredits samples = goldenCredits samples ↔
      ∀ l₁ current l₂, samples = l₁ ++ current :: l₂ → GapHarmless l₁ current := by
  rw [eq_comm, goldenCredits_eq_iff]
  exact (credits_eq_iff_and_stateAgrees samples).1

/-- A recovery with a missing sample before it earns half a credit in the query and a
whole one under the golden policy. -/
theorem effectiveCredits_ne_goldenCredits :
    ¬∀ samples : List (Option AdCheckStatus), effectiveCredits samples = goldenCredits samples := by
  intro h
  have hquery : effectiveCredits [some .offline, none, some .ok] =
      [some 0, some 0, some (1 / 2)] := by decide +kernel
  have hgolden : goldenCredits [some .offline, none, some .ok] =
      [some 0, some 0, some 1] := by decide +kernel
  have heq := (hquery.symm.trans (h [some .offline, none, some .ok])).trans hgolden
  norm_num at heq

end AttackDefense

end Rsctf
