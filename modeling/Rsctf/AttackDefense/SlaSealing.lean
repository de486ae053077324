import Rsctf.AttackDefense.SlaTimeline

/-!
# Sealing epochs and the SLA timeline

A range of rounds can be evaluated at once, or epoch by epoch with every epoch
seeded by the closing state of the one before.  The two evaluations keep
different verdicts of the earlier rounds: the window over the preceding rounds
also sees the verdicts of platform voids, the stored closing state does not.
-/

open Ledger Window

namespace Rsctf

namespace AttackDefense

/-- A completed check outside event-end settlement. -/
structure LiveCheck where
  status : AdCheckStatus
  platformVoid : Bool
deriving DecidableEq, Repr

def LiveCheck.sample (check : LiveCheck) : CheckSample :=
  ⟨check.status, check.platformVoid, false⟩

def liveTimeline (checks : List (Option LiveCheck)) : List (Option CheckSample) :=
  checks.map (Option.map LiveCheck.sample)

/-- Evaluate the epochs one at a time, each seeded by the closing state stored with
the previous one. -/
def sealedTimeline : SeedState → List (List (Option LiveCheck)) → List SlaCell
  | _, [] => []
  | seed, epoch :: epochs =>
    slaTimeline seed (liveTimeline epoch)
      ++ sealedTimeline (closingSla seed (liveTimeline epoch)) epochs

/-- The verdict with which a round may close an epoch. -/
def scoredStatus (sample : Option CheckSample) : Option AdCheckStatus :=
  (sample.filter fun sample =>
    !sample.platformVoid && (sample.forcedZero || sample.status.noninfra)).map (·.status)

/-- The last verdict before a boundary which the closing state can remember. -/
def lastScored (before : List (Option CheckSample)) : Option AdCheckStatus :=
  lastSome (before.map scoredStatus)

/-- The first check of an epoch with a verdict about the service, void or not. -/
def firstVerdict (epoch : List (Option CheckSample)) : Option CheckSample :=
  firstSome (epoch.map (Option.filter (·.status.noninfra)))

/-- The boundary before an epoch is harmless: when the first verdict of the epoch is a
healthy check that counts, the last verdict before the boundary is penalized
exactly when the last one that was not void is. -/
def BoundaryAgrees (before epoch : List (Option LiveCheck)) : Prop :=
  firstVerdict (liveTimeline epoch) = some ⟨.ok, false, false⟩ →
    penalized (previousNoninfra (liveTimeline before)) =
      penalized (lastScored (liveTimeline before))

theorem previousNoninfra_append (l₁ l₂ : List (Option CheckSample)) :
    previousNoninfra (l₁ ++ l₂) = (previousNoninfra l₂).or (previousNoninfra l₁) := by
  simp [previousNoninfra]

theorem lastScored_append (l₁ l₂ : List (Option CheckSample)) :
    lastScored (l₁ ++ l₂) = (lastScored l₂).or (lastScored l₁) := by
  simp [lastScored]

theorem closingSample_fst (seed : SeedState) (before : List (Option CheckSample))
    (current : Option CheckSample) :
    (closingSample seed before current).map Prod.fst = scoredStatus current := by
  cases current with
  | none => rfl
  | some sample =>
      obtain ⟨status, platformVoid, forcedZero⟩ := sample
      cases status <;> cases platformVoid <;> cases forcedZero <;>
        simp [closingSample, scoredStatus, noninfraCredit, AdCheckStatus.noninfra]
      split <;> rfl

theorem closingSample_snd (seed : SeedState) (before : List (Option CheckSample))
    {current : Option CheckSample} (hlive : ∀ sample ∈ current, sample.forcedZero = false) :
    (closingSample seed before current).map Prod.snd = noninfraCredit seed before current := by
  cases current with
  | none => rfl
  | some sample =>
      have hforced := hlive sample rfl
      by_cases hvoid : sample.platformVoid
      · simp [closingSample, noninfraCredit, hvoid]
      · simp [closingSample, hvoid, hforced, Function.comp_def]

theorem closingSlaStatus_closingSla (seed : SeedState) (timeline : List (Option CheckSample)) :
    (closingSla seed timeline).closingSlaStatus =
      (lastScored timeline).or seed.closingSlaStatus := by
  have hmap : (record (closingSample seed) [] timeline).map (Option.map Prod.fst) =
      timeline.map scoredStatus := map_record (closingSample_fst seed) [] timeline
  rw [lastScored, ← hmap, lastSome_map_map]
  rfl

/-- No check of the timeline was replaced by an event-end zero. -/
def NoForcedZero (timeline : List (Option CheckSample)) : Prop :=
  ∀ current ∈ timeline, ∀ sample ∈ current, sample.forcedZero = false

theorem noForcedZero_liveTimeline (checks : List (Option LiveCheck)) :
    NoForcedZero (liveTimeline checks) := by
  intro current hcurrent sample hsample
  obtain ⟨check, -, rfl⟩ := List.mem_map.mp hcurrent
  obtain ⟨live, -, rfl⟩ := Option.map_eq_some_iff.mp hsample
  rfl

theorem closingSlaCredit_closingSla (seed : SeedState) {timeline : List (Option CheckSample)}
    (hlive : NoForcedZero timeline) :
    (closingSla seed timeline).closingSlaCredit =
      (previousCredit seed timeline).or seed.closingSlaCredit := by
  have hmap : (record (closingSample seed) [] timeline).map (Option.map Prod.snd) =
      record (noninfraCredit seed) [] timeline := by
    rw [map_record_eq, record_eq_record_iff]
    rintro l₁ current l₂ rfl
    exact closingSample_snd seed _ (hlive current (by simp))
  rw [previousCredit, ← hmap, lastSome_map_map]
  rfl

/-- Away from a recovery across the boundary, the credit of a round only needs the
closing state of the rounds before its epoch. -/
theorem noninfraCredit_append {before b : List (Option CheckSample)}
    {current : Option CheckSample}
    (h : current = some ⟨.ok, false, false⟩ → previousNoninfra b = none →
      penalized (previousNoninfra before) = penalized (lastScored before))
    (hlive : ∀ sample ∈ current, sample.forcedZero = false) :
    noninfraCredit .empty (before ++ b) current =
      noninfraCredit (closingSla .empty before) b current := by
  cases current with
  | none => rfl
  | some sample =>
      obtain ⟨status, platformVoid, forcedZero⟩ := sample
      obtain rfl : forcedZero = false := hlive _ rfl
      cases status <;> cases platformVoid <;> try rfl
      have hpenalized :
          penalized ((previousNoninfra (before ++ b)).or none) =
            penalized ((previousNoninfra b).or
              (closingSla .empty before).closingSlaStatus) := by
        rw [closingSlaStatus_closingSla, previousNoninfra_append]
        cases hb : previousNoninfra b with
        | none => simpa [SeedState.empty] using h rfl hb
        | some status => rfl
      simp only [noninfraCredit, SeedState.empty] at hpenalized ⊢
      rw [hpenalized]

theorem previousNoninfra_eq_none_iff {before : List (Option CheckSample)} :
    previousNoninfra before = none ↔
      lastSome (before.map (Option.filter (·.status.noninfra))) = none := by
  have hstatus : before.map noninfraStatus =
      (before.map (Option.filter (·.status.noninfra))).map (Option.map (·.status)) := by
    rw [List.map_map]
    refine List.map_congr_left fun sample _ => ?_
    cases sample with
    | none => rfl
    | some sample => cases h : sample.status.noninfra <;> simp [noninfraStatus, Option.filter, h]
  rw [previousNoninfra, hstatus, lastSome_map_map, Option.map_eq_none_iff]

/-- The first verdict of an epoch has no verdict before it. -/
theorem firstVerdict_eq_some_iff {epoch : List (Option CheckSample)} {sample : CheckSample} :
    firstVerdict epoch = some sample ↔
      ∃ b d, epoch = b ++ some sample :: d ∧ sample.status.noninfra = true ∧
        previousNoninfra b = none := by
  rw [firstVerdict, firstSome_eq_some_iff]
  constructor
  · rintro ⟨l₁, l₂, hl, hl₁⟩
    obtain ⟨b, e, rfl, rfl, he⟩ := List.map_eq_append_iff.mp hl
    obtain ⟨current, d, rfl, hcurrent, rfl⟩ := List.map_eq_cons_iff.mp he
    obtain ⟨rfl, hstatus⟩ := Option.filter_eq_some_iff.mp hcurrent
    exact ⟨b, d, rfl, hstatus, previousNoninfra_eq_none_iff.mpr hl₁⟩
  · rintro ⟨b, d, rfl, hstatus, hb⟩
    refine ⟨b.map (Option.filter (·.status.noninfra)), d.map (Option.filter (·.status.noninfra)),
      ?_, previousNoninfra_eq_none_iff.mp hb⟩
    simp [Option.filter, hstatus]

/-- At a harmless boundary the credit of every round of the epoch can be computed from
the closing state. -/
theorem BoundaryAgrees.noninfraCredit_eq {before epoch : List (Option LiveCheck)}
    (h : BoundaryAgrees before epoch) {b d : List (Option CheckSample)}
    {current : Option CheckSample} (hepoch : liveTimeline epoch = b ++ current :: d) :
    noninfraCredit .empty (liveTimeline before ++ b) current =
      noninfraCredit (closingSla .empty (liveTimeline before)) b current := by
  refine noninfraCredit_append (fun hcurrent hb => h ?_) ?_
  · rw [firstVerdict_eq_some_iff]
    exact ⟨b, d, by rw [hepoch, hcurrent], rfl, hb⟩
  · exact noForcedZero_liveTimeline epoch current (by simp [hepoch])

theorem BoundaryAgrees.previousCredit_eq {before epoch : List (Option LiveCheck)}
    (h : BoundaryAgrees before epoch) {b d : List (Option CheckSample)}
    (hepoch : liveTimeline epoch = b ++ d) :
    previousCredit .empty (liveTimeline before ++ b) =
      (previousCredit (closingSla .empty (liveTimeline before)) b).or
        (closingSla .empty (liveTimeline before)).closingSlaCredit := by
  have hrecord : record (noninfraCredit .empty) (liveTimeline before) b =
      record (noninfraCredit (closingSla .empty (liveTimeline before))) [] b := by
    rw [record_eq_record_iff]
    rintro l₁ current l₂ rfl
    exact h.noninfraCredit_eq (d := l₂ ++ d) (by rw [hepoch]; simp)
  rw [previousCredit, record_append, lastSome_append, List.nil_append, hrecord,
    closingSlaCredit_closingSla .empty (noForcedZero_liveTimeline before)]
  simp [SeedState.empty, previousCredit]

/-- Sealing the rounds before an epoch leaves its SLA cells unchanged exactly when the
boundary is harmless. -/
theorem record_slaCell_eq_iff (before epoch : List (Option LiveCheck)) :
    record (slaCell .empty) (liveTimeline before) (liveTimeline epoch) =
        slaTimeline (closingSla .empty (liveTimeline before)) (liveTimeline epoch) ↔
      BoundaryAgrees before epoch := by
  rw [slaTimeline, record_eq_record_iff]
  constructor
  · intro h hfirst
    obtain ⟨b, d, hepoch, -, hb⟩ := firstVerdict_eq_some_iff.mp hfirst
    have hcell := congrArg SlaCell.effectiveCredit (h b _ d hepoch)
    simp only [slaCell, noninfraCredit, AdCheckStatus.noninfra, previousNoninfra_append, hb,
      List.nil_append, closingSlaStatus_closingSla, SeedState.empty] at hcell
    cases hwindow : penalized (previousNoninfra (liveTimeline before)) <;>
      cases hclosing : penalized (lastScored (liveTimeline before)) <;>
      simp [hwindow, hclosing] at hcell ⊢
  · intro h b current d hepoch
    have hown := h.noninfraCredit_eq hepoch
    have hprevious := h.previousCredit_eq hepoch
    cases current with
    | none => rfl
    | some sample =>
        simp only [slaCell, List.nil_append, hown, hprevious]
        simp [SeedState.empty, Bool.and_assoc]

/-- The closing state carried over a harmless boundary is the one of all rounds. -/
theorem BoundaryAgrees.closingSla_eq {before epoch : List (Option LiveCheck)}
    (h : BoundaryAgrees before epoch) :
    closingSla (closingSla .empty (liveTimeline before)) (liveTimeline epoch) =
      closingSla .empty (liveTimeline (before ++ epoch)) := by
  have happend : liveTimeline (before ++ epoch) = liveTimeline before ++ liveTimeline epoch :=
    List.map_append
  have hlive := noForcedZero_liveTimeline
  have hstatus : (closingSla (closingSla .empty (liveTimeline before))
      (liveTimeline epoch)).closingSlaStatus =
      (closingSla .empty (liveTimeline (before ++ epoch))).closingSlaStatus := by
    rw [closingSlaStatus_closingSla, closingSlaStatus_closingSla, closingSlaStatus_closingSla,
      happend, lastScored_append]
    simp [SeedState.empty]
  have hcredit : (closingSla (closingSla .empty (liveTimeline before))
      (liveTimeline epoch)).closingSlaCredit =
      (closingSla .empty (liveTimeline (before ++ epoch))).closingSlaCredit := by
    have hprevious := h.previousCredit_eq (b := liveTimeline epoch) (d := []) (by simp)
    rw [closingSlaCredit_closingSla _ (hlive epoch),
      closingSlaCredit_closingSla .empty (hlive (before ++ epoch)), happend, hprevious]
    simp [SeedState.empty]
  cases hclosing : closingSla (closingSla .empty (liveTimeline before)) (liveTimeline epoch)
  cases hall : closingSla .empty (liveTimeline (before ++ epoch))
  simp_all

theorem sealedTimeline_eq_iff (before : List (Option LiveCheck))
    (epochs : List (List (Option LiveCheck))) :
    sealedTimeline (closingSla .empty (liveTimeline before)) epochs =
        record (slaCell .empty) (liveTimeline before) (liveTimeline epochs.flatten) ↔
      ∀ pre epoch post, epochs = pre ++ epoch :: post →
        BoundaryAgrees (before ++ pre.flatten) epoch := by
  induction epochs generalizing before with
  | nil => simp [sealedTimeline, liveTimeline]
  | cons epoch epochs ih =>
      have hflatten : liveTimeline (epoch :: epochs).flatten =
          liveTimeline epoch ++ liveTimeline epochs.flatten := by
        simp [liveTimeline]
      have hlength : (slaTimeline (closingSla .empty (liveTimeline before))
          (liveTimeline epoch)).length =
          (record (slaCell .empty) (liveTimeline before) (liveTimeline epoch)).length := by
        rw [slaTimeline, length_record, length_record]
      have happend : liveTimeline before ++ liveTimeline epoch = liveTimeline (before ++ epoch) :=
        List.map_append.symm
      rw [sealedTimeline, hflatten, record_append, forall_split_cons, happend]
      constructor
      · intro h
        obtain ⟨hhead, htail⟩ := List.append_inj h hlength
        have hagree := (record_slaCell_eq_iff before epoch).mp hhead.symm
        rw [hagree.closingSla_eq, ih] at htail
        exact ⟨by simpa using hagree, by simpa using htail⟩
      · rintro ⟨hagree, hrest⟩
        have hagree : BoundaryAgrees before epoch := by simpa using hagree
        rw [(record_slaCell_eq_iff before epoch).mpr hagree, hagree.closingSla_eq,
          (ih (before ++ epoch)).mpr (by simpa using hrest)]

/-- **When sealing is invisible.**  Evaluating the epochs one at a time, each seeded by
the closing state of the one before, gives every round the cell of one
evaluation over all rounds exactly when every epoch boundary is harmless. -/
theorem sealedTimeline_eq_slaTimeline_iff (epochs : List (List (Option LiveCheck))) :
    sealedTimeline .empty epochs = slaTimeline .empty (liveTimeline epochs.flatten) ↔
      ∀ pre epoch post, epochs = pre ++ epoch :: post → BoundaryAgrees pre.flatten epoch := by
  simpa [slaTimeline, liveTimeline, closingSla, SeedState.empty] using
    sealedTimeline_eq_iff [] epochs

/-- A healthy check after an offline verdict in a void round earns half a credit in one
range, and a whole one when the epoch is sealed between the two rounds. -/
theorem sealedTimeline_ne_slaTimeline :
    ¬∀ epochs : List (List (Option LiveCheck)),
      sealedTimeline .empty epochs = slaTimeline .empty (liveTimeline epochs.flatten) := by
  intro h
  have hrange : slaTimeline .empty (liveTimeline [some ⟨.offline, true⟩, some ⟨.ok, false⟩]) =
      [⟨some 0, true, false⟩, ⟨some (1 / 2), false, false⟩] := by decide +kernel
  have hsealed : sealedTimeline .empty [[some ⟨.offline, true⟩], [some ⟨.ok, false⟩]] =
      [⟨some 0, true, false⟩, ⟨some 1, false, false⟩] := by decide +kernel
  have heq := (hsealed.symm.trans (h [[some ⟨.offline, true⟩], [some ⟨.ok, false⟩]])).trans
    hrange
  norm_num at heq

end AttackDefense

end Rsctf
