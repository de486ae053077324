import Rsctf.ControlJobs.Queue
import Rsctf.Data.Fallible

/-!
# What the statements do to a row

Every statement of a worker or an operator keeps a row the same job and its checks; a pass ends
it only under the lease and with the revision which the claim was given.  A claim and a request
for admission are taken apart.
-/

open Fallible

namespace Rsctf

namespace ControlJobs

variable {encoding : Encoding} {queue next : Queue} {job job' row : Job} {jobId : Uuid}

/-- The input asks for whatever the other one asks for. -/
def JobInput.Covers (input other : JobInput) : Prop :=
  (other.ensureVpn.getD false = true → input.ensureVpn.getD false = true) ∧
    (other.ensureKoth.getD false = true → input.ensureKoth.getD false = true)

theorem JobInput.Covers.refl (input : JobInput) : input.Covers input := ⟨id, id⟩

theorem JobInput.Covers.trans {input₁ input₂ input₃ : JobInput} (h₁ : input₁.Covers input₂)
    (h₂ : input₂.Covers input₃) : input₁.Covers input₃ :=
  ⟨fun h => h₁.1 (h₂.1 h), fun h => h₁.2 (h₂.2 h)⟩

namespace Job

/-- What holds of every row. -/
structure Valid (job : Job) : Prop where
  lease : job.lease.isSome = true ↔ job.status = .running
  finished : job.finishedAtUtc.isSome = true ↔ job.active = false
  revision : 1 ≤ job.inputRevision ∧ job.inputRevision ≤ maxInputRevision
  progress : 0 ≤ job.progressCurrent ∧ job.progressCurrent ≤ job.progressTotal ∧
    job.progressTotal ≤ 1000000
  error : ∀ error ∈ job.error, (error.toList.map Char.utf8Size).sum ≤ maxErrorBytes

/-- What a step leaves of a row: it stays the same job, does not come back to life, and is not
asked for less. -/
structure Kept (job job' : Job) : Prop where
  id : job'.id = job.id
  scope : job'.scope = job.scope
  gameId : job'.gameId = job.gameId
  operationId : job'.operationId = job.operationId
  participationId : job.kind = .adReset → job'.input.participationId = job.input.participationId
  requirements : job.kind = .adReconcile → job'.input.Covers job.input
  revision : job.inputRevision ≤ job'.inputRevision
  frozen : job.active = false → job' = job
  active : job'.active = true → job.active = true
  valid : job.Valid → job'.Valid

theorem Kept.refl (job : Job) : Kept job job where
  id := rfl
  scope := rfl
  gameId := rfl
  operationId := rfl
  participationId _ := rfl
  requirements _ := .refl _
  revision := le_rfl
  frozen _ := rfl
  active h := h
  valid h := h

theorem Kept.kind (h : Kept job job') : job'.kind = job.kind := congrArg Prod.fst h.scope

theorem Kept.resetOf (h : Kept job job') {gameId : ℤ} (hreset : job'.resetOf gameId = true) :
    job.resetOf gameId = true := by
  obtain ⟨hkind, hgame, hactive⟩ := resetOf_iff.mp hreset
  exact resetOf_iff.mpr ⟨h.kind ▸ hkind, h.gameId ▸ hgame, h.active hactive⟩

theorem Kept.resetFor (h : Kept job job') {participationId : ℤ}
    (hreset : job'.resetFor participationId = true) : job.resetFor participationId = true := by
  obtain ⟨hkind, hactive, hparticipation⟩ := resetFor_iff.mp hreset
  rw [h.kind] at hkind
  exact resetFor_iff.mpr ⟨hkind, h.active hactive, h.participationId hkind ▸ hparticipation⟩

/-- What a statement of a worker or an operator leaves of a row.  A pass ends it only under the
lease and with the revision which the claim was given. -/
structure Change (claims : List ClaimedControlJob) (job job' : Job) : Prop
    extends Kept job job' where
  running : job'.status = .running → job.status = .running ∧ job'.lease = job.lease
  input : job'.inputRevision = job.inputRevision → job'.input = job.input
  ended : job'.status = .succeeded ∨ job'.status = .failed → job' = job ∨
    ∃ claim ∈ claims, job.heldBy claim = true ∧ job.inputRevision = claim.inputRevision ∧
      job'.inputRevision = job.inputRevision

theorem Change.refl (claims : List ClaimedControlJob) (job : Job) : Change claims job job where
  toKept := .refl job
  running h := ⟨h, rfl⟩
  input _ := rfl
  ended _ := .inl rfl

end Job
section Statements

variable {claim : ClaimedControlJob} {now : ℤ}

theorem Job.running_of_heldBy (h : job.heldBy claim = true) : job.status = .running := by
  simp only [Job.heldBy, Bool.and_eq_true, decide_eq_true_eq] at h
  exact h.1.2

theorem Job.heldBy_of_endable (h : job.endable claim = true) : job.heldBy claim = true := by
  simp only [Job.endable, Bool.and_eq_true] at h
  exact h.1.1

theorem Job.active_of_running (h : job.status = .running) : job.active = true := by
  rw [Job.active, h]

variable {claims : List ClaimedControlJob}

theorem Job.active_of_status {status : ControlJobStatus} (h : job.status = status)
    (hstatus : status = .queued ∨ status = .running) : job.active = true := by
  rw [Job.active, h]
  rcases hstatus with rfl | rfl <;> rfl

/-- An active job is ended. -/
theorem Job.Kept.finish (hactive : job.active = true) {status : ControlJobStatus}
    (hended : status = .succeeded ∨ status = .failed ∨ status = .cancelled)
    {result : Option JobResult} {error : Option String} {cancelled : Option ℤ} {current : ℤ}
    (hcurrent : current = job.progressCurrent ∨ current = job.progressTotal)
    (herror : error = job.error ∨
      ∀ e ∈ error, (e.toList.map Char.utf8Size).sum ≤ maxErrorBytes) (now : ℤ) :
    job.Kept { job with
      status, result, error, lease := none, finishedAtUtc := some now
      cancelRequestedAtUtc := cancelled, progressCurrent := current } where
  id := rfl
  scope := rfl
  gameId := rfl
  operationId := rfl
  participationId _ := rfl
  requirements _ := .refl _
  revision := le_rfl
  frozen h := absurd (hactive.symm.trans h) (by simp)
  active _ := hactive
  valid h := by
    constructor
    · rcases hended with rfl | rfl | rfl <;> simp
    · rcases hended with rfl | rfl | rfl <;> simp [Job.active]
    · exact h.revision
    · have hprogress := h.progress
      rcases hcurrent with rfl | rfl
      · exact hprogress
      · exact ⟨hprogress.1.trans hprogress.2.1, le_rfl, hprogress.2.2⟩
    · rcases herror with rfl | herror
      · exact h.error
      · exact herror

/-- A running job is queued again. -/
theorem Job.Change.requeue (hrunning : job.status = .running) {error : Option String}
    (herror : error = none ∨ error = job.error) :
    job.Change claims { job with status := .queued, lease := none, error } where
  id := rfl
  scope := rfl
  gameId := rfl
  operationId := rfl
  participationId _ := rfl
  requirements _ := .refl _
  revision := le_rfl
  frozen h := absurd ((Job.active_of_status hrunning (.inr rfl)).symm.trans h) (by simp)
  active _ := Job.active_of_status hrunning (.inr rfl)
  valid h := by
    have hfinished := h.finished
    rw [Job.active_of_status hrunning (.inr rfl)] at hfinished
    refine ⟨by simp, by simpa [Job.active] using hfinished, h.revision, h.progress, ?_⟩
    rcases herror with rfl | rfl
    · simp
    · exact h.error
  running := by simp
  input _ := rfl
  ended := by simp

/-- The input, the revision and the progress of an active row are written. -/
theorem Job.Kept.write (hactive : job.active = true) {input : JobInput} {fingerprint : String}
    {inputRevision current total : ℤ} {cancelled : Option ℤ}
    (hparticipation : job.kind = .adReset → input.participationId = job.input.participationId)
    (hrequirements : job.kind = .adReconcile → input.Covers job.input)
    (hrevision : inputRevision = job.inputRevision ∨
      inputRevision = job.inputRevision + 1 ∧ job.inputRevision < maxInputRevision)
    (hprogress : current = job.progressCurrent ∧ total = job.progressTotal ∨
      0 ≤ current ∧ current ≤ total ∧ total ≤ 1000000) :
    job.Kept { job with
      input, fingerprint, inputRevision, progressCurrent := current, progressTotal := total
      cancelRequestedAtUtc := cancelled } where
  id := rfl
  scope := rfl
  gameId := rfl
  operationId := rfl
  participationId := hparticipation
  requirements := hrequirements
  revision := by
    rcases hrevision with rfl | ⟨rfl, -⟩
    · exact le_rfl
    · exact Int.le_add_one le_rfl
  frozen h := absurd (hactive.symm.trans h) (by simp)
  active h := h
  valid h := by
    have hbounds := h.revision
    refine ⟨h.lease, h.finished, ?_, ?_, h.error⟩
    · rcases hrevision with rfl | ⟨rfl, hlt⟩
      · exact hbounds
      · exact ⟨hbounds.1.trans (Int.le_add_one le_rfl), Int.add_one_le_of_lt hlt⟩
    · rcases hprogress with ⟨rfl, rfl⟩ | hprogress
      · exact h.progress
      · exact hprogress

/-- A write which leaves the input alone, or raises the revision. -/
theorem Job.Change.of_kept (h : job.Kept job') (hstatus : job'.status = job.status)
    (hlease : job'.lease = job.lease) (hactive : job.active = true)
    (hinput : job'.inputRevision = job.inputRevision → job'.input = job.input) :
    job.Change claims job' where
  toKept := h
  running hrunning := ⟨hstatus ▸ hrunning, hlease⟩
  input := hinput
  ended hended := by
    rw [hstatus] at hended
    rcases hended with hended | hended <;> simp [Job.active, hended] at hactive

theorem sum_popUntil_le (reversed : List Char) :
    ((popUntil reversed).map Char.utf8Size).sum ≤ maxErrorBytes := by
  induction reversed with
  | nil => simp [popUntil]
  | cons c reversed ih =>
      rw [popUntil]
      split
      next => exact ih
      next h => exact not_lt.mp h

theorem sum_boundedError_le (error : String) :
    ((boundedError error).toList.map Char.utf8Size).sum ≤ maxErrorBytes := by
  rw [boundedError, String.toList_ofList, List.map_reverse, List.sum_reverse]
  exact sum_popUntil_le _

section Changes

theorem change_completeRow (hclaim : claim ∈ queue.claims) (result : JobResult)
    (h : job.endable claim = true) : job.Change queue.claims
      { job.finish .succeeded (some result) none queue.clock with
        progressCurrent := job.progressTotal } := by
  have hheld := Job.heldBy_of_endable h
  have hactive := Job.active_of_status (Job.running_of_heldBy hheld) (.inr rfl)
  simp only [Job.endable, Bool.and_eq_true, decide_eq_true_eq] at h
  exact {
    toKept := .finish hactive (.inl rfl) (.inr rfl) (.inr (by simp [Job.finish])) queue.clock
    running := by simp [Job.finish]
    input := fun _ => rfl
    ended := fun _ => .inr ⟨claim, hclaim, hheld, h.1.2, rfl⟩ }

theorem change_failRow (hclaim : claim ∈ queue.claims) (error : String)
    (h : job.endable claim = true) : job.Change queue.claims
      (job.finish .failed none (some (boundedError error)) queue.clock) := by
  have hheld := Job.heldBy_of_endable h
  have hactive := Job.active_of_status (Job.running_of_heldBy hheld) (.inr rfl)
  have herror : ∀ e ∈ some (boundedError error),
      (e.toList.map Char.utf8Size).sum ≤ maxErrorBytes := by
    intro e he
    obtain rfl := Option.some.inj he
    exact sum_boundedError_le error
  simp only [Job.endable, Bool.and_eq_true, decide_eq_true_eq] at h
  exact {
    toKept := .finish hactive (.inr (.inl rfl)) (.inl rfl) (.inr herror) queue.clock
    running := by simp [Job.finish]
    input := fun _ => rfl
    ended := fun _ => .inr ⟨claim, hclaim, hheld, h.1.2, rfl⟩ }

theorem change_finishCancellation
    (h : (job.heldBy claim && job.cancelRequestedAtUtc.isSome) = true) :
    job.Change claims (job.finish .cancelled none none now) := by
  simp only [Bool.and_eq_true] at h
  have hactive := Job.active_of_status (Job.running_of_heldBy h.1) (.inr rfl)
  exact {
    toKept := .finish hactive (.inr (.inr rfl)) (.inl rfl) (.inr (by simp)) now
    running := by simp [Job.finish]
    input := fun _ => rfl
    ended := by simp [Job.finish] }

theorem change_releaseUnstarted (h : job.heldBy claim = true) : job.Change claims
    (if job.cancelRequestedAtUtc.isNone then { job with status := .queued, lease := none }
    else { job with status := .cancelled, lease := none, finishedAtUtc := some now }) := by
  have hrunning := Job.running_of_heldBy h
  split
  next => exact .requeue hrunning (.inr rfl)
  next =>
    exact {
      toKept := .finish (Job.active_of_status hrunning (.inr rfl)) (.inr (.inr rfl)) (.inl rfl)
        (.inl rfl) now
      running := by simp
      input := fun _ => rfl
      ended := by simp }

theorem change_requestCancellation
    (h : (decide (job.id = jobId) && (decide (job.status = .queued) ||
      (decide (job.status = .running) && job.kind.cancellableRunning))) = true) :
    job.Change claims
      (let asked := { job with
        cancelRequestedAtUtc := some (job.cancelRequestedAtUtc.getD now) }
      if job.status = .queued then
        { asked with status := .cancelled, lease := none, finishedAtUtc := some now }
      else asked) := by
  simp only [Bool.and_eq_true, Bool.or_eq_true, decide_eq_true_eq] at h
  dsimp only
  split
  next hqueued =>
    exact {
      toKept := .finish (Job.active_of_status hqueued (.inl rfl)) (.inr (.inr rfl)) (.inl rfl)
        (.inl rfl) now
      running := by simp
      input := fun _ => rfl
      ended := by simp }
  next hqueued =>
    have hrunning := (h.2.resolve_left hqueued).1
    have hactive := Job.active_of_status hrunning (.inr rfl)
    exact .of_kept (.write hactive (fun _ => rfl) (fun _ => .refl _) (.inl rfl)
      (.inl ⟨rfl, rfl⟩)) rfl rfl hactive fun _ => rfl

theorem change_mergeReconcileInput {input : JobInput}
    (h : (decide (job.id = jobId) && job.active &&
      ((input.ensureVpn.getD false && !job.input.ensureVpn.getD false) ||
        (input.ensureKoth.getD false && !job.input.ensureKoth.getD false)) &&
      decide (job.inputRevision < maxInputRevision)) = true) :
    job.Change claims { job with
      input := { job.input with
        ensureVpn := some (job.input.ensureVpn.getD false || input.ensureVpn.getD false)
        ensureKoth := some (job.input.ensureKoth.getD false || input.ensureKoth.getD false) }
      inputRevision := job.inputRevision + 1 } := by
  simp only [Bool.and_eq_true, decide_eq_true_eq] at h
  have hactive := h.1.1.2
  refine .of_kept (.write hactive (fun _ => rfl) (fun _ => ⟨?_, ?_⟩) (.inr ⟨rfl, h.2⟩)
    (.inl ⟨rfl, rfl⟩)) rfl rfl hactive fun heq => ?_
  · exact fun hvpn => by simp [hvpn]
  · exact fun hkoth => by simp [hkoth]
  · have hsame : job.inputRevision + 1 = job.inputRevision := heq
    omega

theorem change_setProgress {current total : ℤ} (h : job.heldBy claim = true)
    (hbounds : 0 ≤ current ∧ current ≤ total ∧ total ≤ 1000000) :
    job.Change claims { job with progressCurrent := current, progressTotal := total } := by
  have hactive := Job.active_of_status (Job.running_of_heldBy h) (.inr rfl)
  exact .of_kept (.write hactive (fun _ => rfl) (fun _ => .refl _) (.inl rfl) (.inr hbounds))
    rfl rfl hactive fun _ => rfl

theorem change_continueIfDirty (h : (job.heldBy claim &&
      decide (job.inputRevision = claim.inputRevision) &&
      decide (job.inputRevision < maxInputRevision)) = true) :
    job.Change claims { job with inputRevision := job.inputRevision + 1 } := by
  simp only [Bool.and_eq_true, decide_eq_true_eq] at h
  have hactive := Job.active_of_status (Job.running_of_heldBy h.1.1) (.inr rfl)
  exact .of_kept (.write hactive (fun _ => rfl) (fun _ => .refl _) (.inr ⟨rfl, h.2⟩)
    (.inl ⟨rfl, rfl⟩)) rfl rfl hactive fun _ => rfl

end Changes

end Statements

section Claim

variable {lane : Lane} {requested : List ControlJobKind} {leaseSecs : ℤ} {leaseToken : Uuid}
  {locked : List Uuid} {claim : ClaimedControlJob}

/-- What a worker finds which claims a job. -/
theorem claimMatching_eq_some
    (h : claimMatching lane requested leaseSecs leaseToken locked queue = some (claim, next)) :
    queue.jobs.countP (Job.occupies queue.clock lane) < lane.slots ∧
      ∃ candidate ∈ queue.jobs, candidate.claimable queue.clock requested = true ∧
        claim = ⟨candidate.id, leaseToken, candidate.input, candidate.inputRevision, []⟩ ∧
        next = { queue with
          jobs := queue.jobs.map fun job =>
            if job.id = candidate.id then
              { job with
                status := .running
                lease := some ⟨leaseToken, queue.clock + leaseUs leaseSecs⟩ }
            else job
          claims := queue.claims ++ [claim]
          issued := leaseToken :: queue.issued } := by
  unfold claimMatching at h
  split at h
  next => cases h
  next hslots =>
    refine ⟨not_le.mp hslots, ?_⟩
    obtain ⟨candidate, hcandidate, heq⟩ := Option.map_eq_some_iff.mp h
    obtain ⟨hmem, hclaimable⟩ := List.mem_filter.mp
      ((List.mem_insertionSort _).mp (List.mem_of_mem_head? hcandidate))
    simp only [Bool.and_eq_true] at hclaimable
    obtain ⟨rfl, rfl⟩ := Prod.mk.inj heq
    exact ⟨candidate, hmem, hclaimable.1, rfl, rfl⟩

theorem Job.active_of_claimable {now : ℤ} (h : job.claimable now requested = true) :
    job.active = true := by
  simp only [Job.claimable, Bool.and_eq_true, Bool.or_eq_true, decide_eq_true_eq] at h
  rcases h.2 with hqueued | hrunning
  · rw [Job.active, hqueued]
  · exact Job.active_of_running hrunning.1

/-- The row which a claim leaves. -/
theorem Job.Kept.claimed (hactive : job.active = true) (lease : JobLease) :
    job.Kept { job with status := .running, lease := some lease } where
  id := rfl
  scope := rfl
  gameId := rfl
  operationId := rfl
  participationId _ := rfl
  requirements _ := .refl _
  revision := le_rfl
  frozen h := absurd (hactive.symm.trans h) (by simp)
  active _ := hactive
  valid h := by
    have hfinished := h.finished
    rw [hactive] at hfinished
    exact ⟨by simp, by simpa [Job.active] using hfinished, h.revision, h.progress, h.error⟩

end Claim

section Enqueue

variable {generations : ℤ → Option GenerationState} {request : EnqueueRequest} {input : JobInput}
  {fingerprint : String} {generation : Option GenerationState} {operationId : Uuid} {now : ℤ}

/-- The cases of admission. -/
theorem enqueue_eq_ok (h : enqueue encoding generations jobId request queue = .ok (row, next)) :
    (queue.byOperation request.operationId = some row ∧ request.same row = true ∧ next = queue) ∨
    (queue.byOperation request.operationId = none ∧ ∃ input fingerprint generation,
      bindCurrentGeneration encoding generations request = .ok (input, fingerprint, generation) ∧
      ((∃ active, queue.activeJob request.kind request.scopeKey = some active ∧
          coalesce queue request active input fingerprint generation = .ok (row, next)) ∨
        (queue.activeJob request.kind request.scopeKey = none ∧
          reuseOrInsert queue jobId request input fingerprint generation = .ok (row, next)))) := by
  obtain ⟨-, -, h⟩ := bind_eq_ok_iff.mp h
  cases hop : queue.byOperation request.operationId with
  | some existing =>
      simp only [hop] at h
      split at h
      next hsame =>
        obtain ⟨rfl, rfl⟩ := Prod.mk.inj (Except.ok.inj h)
        exact .inl ⟨rfl, hsame, rfl⟩
      next => cases h
  | none =>
      simp only [hop] at h
      obtain ⟨⟨input, fingerprint, generation⟩, hbind, h⟩ := bind_eq_ok_iff.mp h
      refine .inr ⟨rfl, input, fingerprint, generation, hbind, ?_⟩
      cases hactive : queue.activeJob request.kind request.scopeKey with
      | some active =>
          simp only [hactive] at h
          exact .inl ⟨active, rfl, h⟩
      | none =>
          simp only [hactive] at h
          exact .inr ⟨rfl, h⟩

theorem attachOperationAlias_eq_ok (h : attachOperationAlias queue jobId operationId = .ok next) :
    queue.operations.countP (·.2 = jobId) < maxOperationAliasesPerJob ∧
      next = { queue with operations := queue.operations ++ [(operationId, jobId)] } := by
  unfold attachOperationAlias at h
  split at h
  next => cases h
  next hcount => exact ⟨not_le.mp hcount, (Except.ok.inj h).symm⟩

theorem activeJob_eq_some {kind : ControlJobKind} {scopeKey : String}
    (h : queue.activeJob kind scopeKey = some row) :
    row ∈ queue.jobs ∧ row.active = true ∧ row.scope = (kind, scopeKey) := by
  have hp := List.find?_some h
  simp only [Bool.and_eq_true, decide_eq_true_eq] at hp
  exact ⟨List.mem_of_find?_eq_some h, hp⟩

theorem checkCapacity_eq_ok {u : Unit} (h : checkCapacity queue request input = .ok u) :
    queue.jobs.countP Job.active < maxActiveJobs ∧ (request.kind = .adReset →
      queue.jobs.countP (Job.resetOf request.gameId) < maxActiveResetsPerGame ∧
      ∀ participationId, toI32 participationId = some participationId →
        input.participationId = some participationId →
          queue.jobs.countP (Job.resetFor participationId) < maxActiveResetsPerParticipation) := by
  unfold checkCapacity at h
  split at h
  next => cases h
  next hactive =>
    refine ⟨not_le.mp hactive, fun hkind => ?_⟩
    rw [if_neg (not_not.mpr hkind)] at h
    split at h
    next => cases h
    next hgame =>
      refine ⟨not_le.mp hgame, fun participationId hi32 hparticipation => ?_⟩
      rw [hparticipation, Option.bind_some, hi32] at h
      dsimp only at h
      split at h
      next => cases h
      next hteam => exact not_le.mp hteam

end Enqueue

end ControlJobs

end Rsctf
