import Rsctf.ControlJobs.Bounds

/-!
# The passes over a control job

A worker which claimed a job ends it only while its token and its revision are in the row.  A
job which succeeded or failed was therefore ended by the last worker which claimed it, over the
input which the row still has; what was merged into a job while a pass was running is served by
a later pass.
-/

open Census Fallible Keyed

namespace Rsctf

namespace ControlJobs

variable {encoding : Encoding} {queue next last : Queue} {job job' row : Job} {jobId : Uuid}
  {claim : ClaimedControlJob}

theorem Job.Kept.trans {job₁ job₂ job₃ : Job} (h₁ : job₁.Kept job₂) (h₂ : job₂.Kept job₃) :
    job₁.Kept job₃ where
  id := h₂.id.trans h₁.id
  scope := h₂.scope.trans h₁.scope
  gameId := h₂.gameId.trans h₁.gameId
  operationId := h₂.operationId.trans h₁.operationId
  participationId hkind := (h₂.participationId (h₁.kind ▸ hkind)).trans (h₁.participationId hkind)
  requirements hkind := (h₂.requirements (h₁.kind ▸ hkind)).trans (h₁.requirements hkind)
  revision := h₁.revision.trans h₂.revision
  frozen hended := by
    have hsame := h₁.frozen hended
    rw [← hsame] at hended
    exact (h₂.frozen hended).trans hsame
  active h := h₁.active (h₂.active h)
  valid h := h₂.valid (h₁.valid h)

section Identity

/-- Identifiers stay in use. -/
theorem Effect.issued_subset (h : Effect queue next) : queue.issued ⊆ next.issued := by
  cases h with
  | change _ _ _ _ hnext => rw [hnext]; exact List.Subset.refl _
  | join _ _ _ _ _ _ _ hnext => rw [hnext]; exact List.Subset.refl _
  | insert _ _ _ _ _ _ _ _ hnext => rw [hnext]; exact List.subset_cons_self _ _
  | claim _ _ _ _ _ _ _ _ hnext => rw [hnext]; exact List.subset_cons_self _ _
  | checkpoint _ _ _ _ hnext => rw [hnext]; exact List.Subset.refl _
  | delete _ hnext => rw [hnext]; exact List.Subset.refl _

/-- A job is in the table, as far as the step keeps it, or its row was deleted for good. -/
def Job.Survives (job : Job) (queue : Queue) : Prop :=
  (∃ job' ∈ queue.jobs, job.Kept job') ∨
    (job.id ∈ queue.issued ∧ ∀ job' ∈ queue.jobs, job'.id ≠ job.id)

theorem Job.Survives.step (hsound : Sound queue) (h : job.Survives queue)
    (heffect : Effect queue next) : job.Survives next := by
  have hissued := heffect.issued_subset
  rcases h with ⟨job', hjob', hkept⟩ | ⟨hid, hgone⟩
  · rcases heffect.kept hsound with ⟨f, hf, hjobs⟩ | ⟨doomed, hjobs⟩ | ⟨new, hjobs, -⟩
    · exact .inl ⟨f job', hjobs ▸ List.mem_map_of_mem hjob', hkept.trans (hf job' hjob')⟩
    · by_cases hdoomed : doomed job' = true
      · refine .inr ⟨hissued (hkept.id ▸ hsound.issued job' hjob'), fun other hother hid => ?_⟩
        rw [hjobs] at hother
        obtain ⟨hmem, hspared⟩ := List.mem_filter.mp hother
        rw [hsound.eq_of_id hmem hjob' (hid.trans hkept.id.symm)] at hspared
        simp [hdoomed] at hspared
      · refine .inl ⟨job', ?_, hkept⟩
        rw [hjobs]
        exact List.mem_filter.mpr ⟨hjob', by simpa using hdoomed⟩
    · exact .inl ⟨job', hjobs ▸ List.mem_append_left _ hjob', hkept⟩
  · refine .inr ⟨hissued hid, ?_⟩
    rcases heffect.kept hsound with ⟨f, hf, hjobs⟩ | ⟨doomed, hjobs⟩ | ⟨new, hjobs, hfresh⟩
    · rw [hjobs]
      intro other hother
      obtain ⟨old, hold, rfl⟩ := List.mem_map.mp hother
      rw [(hf old hold).id]
      exact hgone old hold
    · rw [hjobs]
      exact fun other hother => hgone other (List.mem_filter.mp hother).1
    · rw [hjobs]
      intro other hother
      rcases List.mem_append.mp hother with hother | hother
      · exact hgone other hother
      · rw [List.mem_singleton.mp hother]
        exact fun hsame => hfresh (hsame ▸ hid)

theorem Job.Survives.run (hsound : Sound queue) (hjob : job ∈ queue.jobs)
    (hrun : Relation.ReflTransGen (Step encoding) queue last) : job.Survives last := by
  have hboth : Sound last ∧ job.Survives last := by
    induction hrun with
    | refl => exact ⟨hsound, .inl ⟨job, hjob, .refl job⟩⟩
    | tail _ hstep ih => exact ⟨ih.1.step hstep, ih.2.step ih.1 (ih.1.effect hstep)⟩
  exact hboth.2

/-- The row of a job later on, while there is one. -/
theorem Job.Kept.of_run (hsound : Sound queue) (hjob : job ∈ queue.jobs)
    (hrun : Relation.ReflTransGen (Step encoding) queue last) (hjob' : job' ∈ last.jobs)
    (hid : job'.id = job.id) : job.Kept job' := by
  rcases Job.Survives.run hsound hjob hrun with ⟨kept, hmem, hkept⟩ | ⟨-, hgone⟩
  · rwa [(hsound.run hrun).eq_of_id hjob' hmem (hid.trans hkept.id.symm)]
  · exact absurd hid (hgone job' hjob')

end Identity

section Passes

/-- The last claim of a job. -/
def Queue.lastClaim (queue : Queue) (jobId : Uuid) : Option ClaimedControlJob :=
  (queue.claims.filter fun claim => claim.jobId = jobId).getLast?

theorem mem_of_lastClaim (h : queue.lastClaim jobId = some claim) :
    claim ∈ queue.claims ∧ claim.jobId = jobId := by
  have hmem := List.mem_filter.mp (List.mem_of_getLast? h)
  exact ⟨hmem.1, of_decide_eq_true hmem.2⟩

/-- The claims and the rows belong together. -/
structure Attended (queue : Queue) : Prop where
  tokens : (queue.claims.map (·.leaseToken)).Nodup
  issued : ∀ claim ∈ queue.claims, claim.leaseToken ∈ queue.issued
  running : ∀ job ∈ queue.jobs, job.status = .running → ∃ claim,
    queue.lastClaim job.id = some claim ∧ job.lease.map (·.token) = some claim.leaseToken ∧
      claim.inputRevision ≤ job.inputRevision ∧
      (job.inputRevision = claim.inputRevision → job.input = claim.seen)
  ended : ∀ job ∈ queue.jobs, job.status = .succeeded ∨ job.status = .failed → ∃ claim,
    queue.lastClaim job.id = some claim ∧ job.inputRevision = claim.inputRevision ∧
      job.input = claim.seen

namespace Attended

theorem eq_of_token (h : Attended queue) {claim' : ClaimedControlJob}
    (hclaim : claim ∈ queue.claims)
    (hclaim' : claim' ∈ queue.claims) (htoken : claim.leaseToken = claim'.leaseToken) :
    claim = claim' :=
  List.inj_on_of_nodup_map h.tokens hclaim hclaim' htoken

/-- The worker which holds a row is the last one which claimed it. -/
theorem lastClaim_of_heldBy (h : Attended queue) (hjob : job ∈ queue.jobs)
    (hclaim : claim ∈ queue.claims) (hheld : job.heldBy claim = true) :
    queue.lastClaim job.id = some claim ∧ claim.inputRevision ≤ job.inputRevision ∧
      (job.inputRevision = claim.inputRevision → job.input = claim.seen) := by
  obtain ⟨latest, hlatest, htoken, hrest⟩ := h.running job hjob (Job.running_of_heldBy hheld)
  simp only [Job.heldBy, Bool.and_eq_true, decide_eq_true_eq] at hheld
  have hsame : latest.leaseToken = claim.leaseToken :=
    Option.some.inj (htoken.symm.trans hheld.2)
  obtain rfl := h.eq_of_token (mem_of_lastClaim hlatest).1 hclaim hsame
  exact ⟨hlatest, hrest⟩

/-- Statements of workers and operators. -/
theorem change (h : Attended queue) {f : Job → Job}
    (hchange : ∀ job ∈ queue.jobs, job.Change queue.claims (f job))
    (hjobs : next.jobs = queue.jobs.map f) (hclaims : next.claims = queue.claims)
    (hissued : next.issued = queue.issued) : Attended next := by
  have hlast : ∀ id, next.lastClaim id = queue.lastClaim id := by
    intro id
    rw [Queue.lastClaim, hclaims]
    rfl
  refine ⟨hclaims ▸ h.tokens, by rw [hclaims, hissued]; exact h.issued, ?_, ?_⟩
  · rw [hjobs]
    intro job' hjob' hstatus
    obtain ⟨job, hjob, rfl⟩ := List.mem_map.mp hjob'
    have hc := hchange job hjob
    obtain ⟨hrunning, hlease⟩ := hc.running hstatus
    obtain ⟨claim, hclaim, htoken, hle, hseen⟩ := h.running job hjob hrunning
    refine ⟨claim, by rw [hlast, hc.id]; exact hclaim, by rw [hlease]; exact htoken,
      hle.trans hc.revision, fun heq => ?_⟩
    have hsame : (f job).inputRevision = job.inputRevision :=
      le_antisymm (heq.le.trans hle) hc.revision
    rw [hc.input hsame]
    exact hseen (hsame.symm.trans heq)
  · rw [hjobs]
    intro job' hjob' hstatus
    obtain ⟨job, hjob, rfl⟩ := List.mem_map.mp hjob'
    have hc := hchange job hjob
    rw [hlast, hc.id]
    rcases hc.ended hstatus with hsame | ⟨claim, hclaim, hheld, hrevision, hkept⟩
    · rw [hsame] at hstatus ⊢
      exact h.ended job hjob hstatus
    · obtain ⟨hlatest, -, hseen⟩ := h.lastClaim_of_heldBy hjob hclaim hheld
      exact ⟨claim, hlatest, hkept.trans hrevision, by rw [hc.input hkept]; exact hseen hrevision⟩

/-- A claim is handed out. -/
theorem claimed (h : Attended queue) (hsound : Sound queue) {lease : JobLease} {candidate : Job}
    (hcandidate : candidate ∈ queue.jobs) (hactive : candidate.active = true)
    (hfresh : lease.token ∉ queue.issued) (hnext : next = { queue with
      jobs := queue.jobs.map fun job =>
        if job.id = candidate.id then { job with status := .running, lease := some lease }
        else job
      claims := queue.claims ++
        [⟨candidate.id, lease.token, candidate.input, candidate.inputRevision, []⟩]
      issued := lease.token :: queue.issued }) : Attended next := by
  have hlast : ∀ id, id ≠ candidate.id → next.lastClaim id = queue.lastClaim id := by
    intro id hid
    rw [hnext, Queue.lastClaim, List.filter_append, List.filter_singleton]
    simp only [decide_eq_false (Ne.symm hid), Bool.cond_false, List.append_nil]
    rfl
  have hnew : next.lastClaim candidate.id =
      some ⟨candidate.id, lease.token, candidate.input, candidate.inputRevision, []⟩ := by
    rw [hnext, Queue.lastClaim, List.filter_append, List.filter_singleton]
    simp
  constructor
  · rw [hnext]
    refine nodup_map_append_singleton h.tokens fun hmem => hfresh ?_
    obtain ⟨claim, hclaim, htoken⟩ := List.mem_map.mp hmem
    have hissued := h.issued claim hclaim
    rwa [show claim.leaseToken = lease.token from htoken] at hissued
  · rw [hnext]
    intro claim hclaim
    rcases List.mem_append.mp hclaim with hclaim | hclaim
    · exact List.mem_cons_of_mem _ (h.issued claim hclaim)
    · rw [List.mem_singleton.mp hclaim]
      exact List.mem_cons_self
  · intro job' hjob' hstatus
    have hmem : job' ∈ queue.jobs.map fun job =>
        if job.id = candidate.id then { job with status := .running, lease := some lease }
        else job := by
      rw [hnext] at hjob'
      exact hjob'
    obtain ⟨job, hjob, rfl⟩ := List.mem_map.mp hmem
    by_cases hid : job.id = candidate.id
    · obtain rfl := hsound.eq_of_id hjob hcandidate hid
      rw [if_pos rfl]
      exact ⟨_, hnew, rfl, le_rfl, fun _ => rfl⟩
    · rw [if_neg hid] at hstatus ⊢
      rw [hlast job.id hid]
      exact h.running job hjob hstatus
  · intro job' hjob' hstatus
    have hmem : job' ∈ queue.jobs.map fun job =>
        if job.id = candidate.id then { job with status := .running, lease := some lease }
        else job := by
      rw [hnext] at hjob'
      exact hjob'
    obtain ⟨job, hjob, rfl⟩ := List.mem_map.mp hmem
    by_cases hid : job.id = candidate.id
    · rw [if_pos hid] at hstatus
      rcases hstatus with hstatus | hstatus <;> cases hstatus
    · rw [if_neg hid] at hstatus ⊢
      rw [hlast job.id hid]
      exact h.ended job hjob hstatus

theorem seen_wrote (checkpoint : List (String × String)) :
    (claim.wrote checkpoint).seen = claim.seen.patch checkpoint := by
  rw [ClaimedControlJob.wrote, ClaimedControlJob.seen, List.foldl_append]
  rfl

/-- A worker writes a checkpoint into the row which it holds. -/
theorem checkpoint (h : Attended queue) (hsound : Sound queue) (hclaim : claim ∈ queue.claims)
    (hheld : ∃ job ∈ queue.jobs, job.heldBy claim = true) {checkpoint : List (String × String)}
    (hnext : next = { queue with
      jobs := queue.jobs.map fun job =>
        if job.heldBy claim then { job with input := job.input.patch checkpoint } else job
      claims := queue.claims.map fun other =>
        if other.leaseToken = claim.leaseToken then other.wrote checkpoint else other }) :
    Attended next := by
  obtain ⟨held, hmem, hheld⟩ := hheld
  have hwrote : ∀ other ∈ queue.claims, (if other.leaseToken = claim.leaseToken then
      other.wrote checkpoint else other) =
        if other = claim then claim.wrote checkpoint else other := by
    intro other hother
    by_cases hsame : other = claim
    · rw [if_pos hsame, hsame, if_pos rfl]
    · rw [if_neg hsame, if_neg fun htoken => hsame (h.eq_of_token hother hclaim htoken)]
  have hlast : ∀ id, next.lastClaim id = (queue.lastClaim id).map fun other =>
      if other.leaseToken = claim.leaseToken then other.wrote checkpoint else other := by
    intro id
    rw [hnext, Queue.lastClaim, List.filter_map, List.getLast?_map, Queue.lastClaim]
    congr 3
    funext other
    dsimp only [Function.comp]
    split <;> rfl
  have hlatest := (h.lastClaim_of_heldBy hmem hclaim hheld).1
  -- the rows which the worker does not hold are those of other jobs
  have hother : ∀ job ∈ queue.jobs, job.heldBy claim ≠ true → ∀ latest,
      queue.lastClaim job.id = some latest → latest ≠ claim := by
    rintro job hjob hnot latest hlast' rfl
    refine hnot ?_
    have hid : job.id = held.id :=
      (mem_of_lastClaim hlast').2.symm.trans (mem_of_lastClaim hlatest).2
    rwa [hsound.eq_of_id hjob hmem hid]
  constructor
  · rw [hnext, List.map_map]
    have htokens : queue.claims.map ((·.leaseToken) ∘ fun other =>
        if other.leaseToken = claim.leaseToken then other.wrote checkpoint else other) =
        queue.claims.map (·.leaseToken) := by
      refine List.map_congr_left fun other _ => ?_
      dsimp only [Function.comp]
      split <;> rfl
    rw [htokens]
    exact h.tokens
  · rw [hnext]
    intro other hother'
    obtain ⟨old, hold, rfl⟩ := List.mem_map.mp hother'
    have hissued := h.issued old hold
    split <;> exact hissued
  · intro job' hjob' hstatus
    have hmem' : job' ∈ queue.jobs.map fun job =>
        if job.heldBy claim then { job with input := job.input.patch checkpoint } else job := by
      rw [hnext] at hjob'
      exact hjob'
    obtain ⟨job, hjob, rfl⟩ := List.mem_map.mp hmem'
    by_cases hjobHeld : job.heldBy claim = true
    · obtain ⟨hlast', hle, hseen⟩ := h.lastClaim_of_heldBy hjob hclaim hjobHeld
      obtain ⟨-, -, htoken, -⟩ := h.running job hjob (Job.running_of_heldBy hjobHeld)
      simp only [if_pos hjobHeld]
      refine ⟨claim.wrote checkpoint, ?_, ?_, hle, fun heq => ?_⟩
      · rw [hlast, hlast', Option.map_some, if_pos rfl]
      · simp only [Job.heldBy, Bool.and_eq_true, decide_eq_true_eq] at hjobHeld
        exact hjobHeld.2
      · rw [seen_wrote, hseen heq]
    · rw [if_neg hjobHeld] at hstatus ⊢
      obtain ⟨latest, hlast', hrest⟩ := h.running job hjob hstatus
      refine ⟨latest, ?_, hrest⟩
      rw [hlast, hlast', Option.map_some, hwrote latest (mem_of_lastClaim hlast').1,
        if_neg (hother job hjob hjobHeld latest hlast')]
  · intro job' hjob' hstatus
    have hmem' : job' ∈ queue.jobs.map fun job =>
        if job.heldBy claim then { job with input := job.input.patch checkpoint } else job := by
      rw [hnext] at hjob'
      exact hjob'
    obtain ⟨job, hjob, rfl⟩ := List.mem_map.mp hmem'
    by_cases hjobHeld : job.heldBy claim = true
    · simp only [if_pos hjobHeld, Job.running_of_heldBy hjobHeld] at hstatus
      rcases hstatus with hstatus | hstatus <;> cases hstatus
    · rw [if_neg hjobHeld] at hstatus ⊢
      obtain ⟨latest, hlast', hrest⟩ := h.ended job hjob hstatus
      refine ⟨latest, ?_, hrest⟩
      rw [hlast, hlast', Option.map_some, hwrote latest (mem_of_lastClaim hlast').1,
        if_neg (hother job hjob hjobHeld latest hlast')]

theorem step (h : Attended queue) (hsound : Sound queue) (heffect : Effect queue next) :
    Attended next := by
  cases heffect with
  | change f hchange clock _ hnext =>
      exact h.change hchange (by rw [hnext]) (by rw [hnext]) (by rw [hnext])
  | join f hchange _ _ _ _ _ hnext =>
      exact h.change hchange (by rw [hnext]) (by rw [hnext]) (by rw [hnext])
  | insert id request input fingerprint _ _ _ _ hnext =>
      rw [hnext]
      refine ⟨h.tokens, fun claim hclaim => List.mem_cons_of_mem _ (h.issued claim hclaim), ?_, ?_⟩
      · intro job hjob hstatus
        rcases List.mem_append.mp hjob with hjob | hjob
        · exact h.running job hjob hstatus
        · rw [List.mem_singleton.mp hjob] at hstatus
          cases hstatus
      · intro job hjob hstatus
        rcases List.mem_append.mp hjob with hjob | hjob
        · exact h.ended job hjob hstatus
        · rw [List.mem_singleton.mp hjob] at hstatus
          rcases hstatus with hstatus | hstatus <;> cases hstatus
  | claim lane lease candidate hcandidate hactive _ _ hfresh hnext =>
      exact h.claimed hsound hcandidate hactive hfresh hnext
  | checkpoint claim hclaim hheld checkpoint hnext =>
      exact h.checkpoint hsound hclaim hheld hnext
  | delete doomed hnext =>
      rw [hnext]
      exact ⟨h.tokens, h.issued, fun job hjob => h.running job (List.mem_filter.mp hjob).1,
        fun job hjob => h.ended job (List.mem_filter.mp hjob).1⟩

end Attended

theorem Reachable.attended (h : Reachable encoding queue) : Attended queue := by
  obtain ⟨clock, hrun⟩ := h
  have hboth : Sound queue ∧ Attended queue := by
    induction hrun with
    | refl =>
        exact ⟨sound_empty clock, List.nodup_nil, by simp [Queue.empty], by simp [Queue.empty],
          by simp [Queue.empty]⟩
    | tail _ hstep ih => exact ⟨ih.1.step hstep, ih.2.step ih.1 (ih.1.effect hstep)⟩
  exact hboth.2

/-- A job which succeeded or failed was ended by the last pass over it, with the input which it
still has; its row does not change any more. -/
theorem ended_over_final_input (h : Reachable encoding queue) (hjob : job ∈ queue.jobs)
    (hended : job.status = .succeeded ∨ job.status = .failed) :
    (∃ claim, queue.lastClaim job.id = some claim ∧ job.inputRevision = claim.inputRevision ∧
      job.input = claim.seen) ∧
    ∀ last, Relation.ReflTransGen (Step encoding) queue last → ∀ job' ∈ last.jobs,
      job'.id = job.id → job' = job := by
  refine ⟨h.attended.ended job hjob hended, fun last hrun job' hjob' hid => ?_⟩
  refine (Job.Kept.of_run h.sound hjob hrun hjob' hid).frozen ?_
  rcases hended with hended | hended <;> simp [Job.active, hended]

end Passes

section Requirements

variable {input : JobInput}

/-- A checkpoint does not touch what a job is asked for. -/
theorem covers_of_seen (h : claim.seen.Covers input) : claim.input.Covers input := by
  have hseen : ∀ (checkpoints : List (List (String × String))) (start : JobInput),
      (checkpoints.foldl (fun input checkpoint => input.patch checkpoint) start).Covers input →
        start.Covers input := by
    intro checkpoints
    induction checkpoints with
    | nil => exact fun _ h => h
    | cons checkpoint checkpoints ih => exact fun start h => ih (start.patch checkpoint) h
  exact hseen claim.checkpoints claim.input h

/-- The row after a merge asks for what was merged. -/
theorem mergeReconcileInput_covers (hjob : job ∈ queue.jobs) (hactive : job.active = true)
    (hrevision : job.inputRevision < maxInputRevision)
    (hmerge : mergeReconcileInput encoding job.id input queue = .ok next) :
    ∃ merged ∈ next.jobs, merged.id = job.id ∧ merged.kind = job.kind ∧
      merged.input.Covers input := by
  unfold mergeReconcileInput at hmerge
  split at hmerge
  next => cases hmerge
  next =>
    obtain rfl := Except.ok.inj hmerge
    refine ⟨_, List.mem_map_of_mem hjob, ?_⟩
    split
    next =>
      refine ⟨rfl, rfl, fun hvpn => ?_, fun hkoth => ?_⟩
      · simp [hvpn]
      · simp [hkoth]
    next hp =>
      simp only [decide_true, hactive, hrevision, Bool.true_and, Bool.and_true,
        Bool.or_eq_true, Bool.and_eq_true, Bool.not_eq_eq_eq_not, Bool.not_true, not_or, not_and,
        Bool.not_eq_false] at hp
      exact ⟨rfl, rfl, hp⟩

/-- What was merged into an active job is seen by the pass which ends it. -/
theorem requirements_served (h : Reachable encoding queue) (hjob : job ∈ queue.jobs)
    (hkind : job.kind = .adReconcile) (hactive : job.active = true)
    (hrevision : job.inputRevision < maxInputRevision)
    (hmerge : mergeReconcileInput encoding job.id input queue = .ok next)
    (hrun : Relation.ReflTransGen (Step encoding) next last) (hjob' : job' ∈ last.jobs)
    (hid : job'.id = job.id) (hended : job'.status = .succeeded ∨ job'.status = .failed) :
    ∃ claim, last.lastClaim job.id = some claim ∧ claim.input.Covers input := by
  have hnext : Reachable encoding next := by
    obtain ⟨clock, hstart⟩ := h
    exact ⟨clock, hstart.tail (.merge job.id input hmerge)⟩
  have hlast : Reachable encoding last := by
    obtain ⟨clock, hstart⟩ := hnext
    exact ⟨clock, hstart.trans hrun⟩
  obtain ⟨merged, hmerged, hmergedId, hmergedKind, hcovers⟩ :=
    mergeReconcileInput_covers hjob hactive hrevision hmerge
  have hkept := Job.Kept.of_run hnext.sound hmerged hrun hjob' (hid.trans hmergedId.symm)
  obtain ⟨claim, hclaim, -, hseen⟩ := hlast.attended.ended job' hjob' hended
  refine ⟨claim, hid ▸ hclaim, covers_of_seen ?_⟩
  rw [← hseen]
  exact (hkept.requirements (hmergedKind.trans hkind)).trans hcovers

end Requirements

section Operations

variable {generations : ℤ → Option GenerationState} {request : EnqueueRequest}
  {operationId : Uuid}

theorem byOperation_eq_some_iff (hsound : Sound queue) :
    queue.byOperation operationId = some row ↔
      row ∈ queue.jobs ∧ (operationId, row.id) ∈ queue.operations := by
  rw [Queue.byOperation, Option.bind_eq_some_iff]
  constructor
  · rintro ⟨operation, hoperation, hjob⟩
    obtain ⟨hmem, rfl⟩ := (get_eq_some_iff hsound.operations).mp hoperation
    obtain ⟨hrow, hid⟩ := (get_eq_some_iff hsound.ids).mp hjob
    exact ⟨hrow, hid ▸ hmem⟩
  · rintro ⟨hrow, hmem⟩
    exact ⟨_, (get_eq_some_iff hsound.operations).mpr ⟨hmem, rfl⟩,
      (get_eq_some_iff hsound.ids).mpr ⟨hrow, rfl⟩⟩

/-- The operation names the job as long as its row is there. -/
def Names (operationId jobId : Uuid) (queue : Queue) : Prop :=
  jobId ∈ queue.issued ∧
    ∀ job ∈ queue.jobs, job.id = jobId → (operationId, jobId) ∈ queue.operations

theorem Names.step (h : Names operationId jobId queue) (hsound : Sound queue)
    (heffect : Effect queue next) : Names operationId jobId next := by
  refine ⟨heffect.issued_subset h.1, ?_⟩
  cases heffect with
  | change f hchange _ _ hnext =>
      rw [hnext]
      intro job hjob hid
      obtain ⟨old, hold, rfl⟩ := List.mem_map.mp hjob
      exact h.2 old hold ((hchange old hold).id ▸ hid)
  | join f hchange _ _ _ _ _ hnext =>
      rw [hnext]
      intro job hjob hid
      obtain ⟨old, hold, rfl⟩ := List.mem_map.mp hjob
      exact List.mem_append_left _ (h.2 old hold ((hchange old hold).id ▸ hid))
  | insert id request input fingerprint hfresh _ _ _ hnext =>
      rw [hnext]
      intro job hjob hid
      rcases List.mem_append.mp hjob with hjob | hjob
      · exact List.mem_append_left _ (h.2 job hjob hid)
      · rw [List.mem_singleton.mp hjob] at hid
        have hissued := h.1
        rw [← hid] at hissued
        exact absurd hissued hfresh
  | claim lane lease candidate hcandidate hactive _ _ _ hnext =>
      rw [hnext]
      intro job hjob hid
      obtain ⟨old, hold, rfl⟩ := List.mem_map.mp hjob
      exact h.2 old hold ((hsound.kept_claim hcandidate hactive lease hold).id ▸ hid)
  | checkpoint claim _ _ checkpoint hnext =>
      rw [hnext]
      intro job hjob hid
      obtain ⟨old, hold, rfl⟩ := List.mem_map.mp hjob
      exact h.2 old hold ((kept_checkpoint claim checkpoint old).id ▸ hid)
  | delete doomed hnext =>
      rw [hnext]
      intro job hjob hid
      obtain ⟨hmem, hspared⟩ := List.mem_filter.mp hjob
      refine List.mem_filter.mpr ⟨h.2 job hmem hid, ?_⟩
      simp only [Bool.not_eq_eq_eq_not, Bool.not_true, List.any_eq_false, Bool.and_eq_true,
        decide_eq_true_eq, not_and]
      intro other hother hdoomed hsame
      rw [hsound.eq_of_id hother hmem (hsame.trans hid.symm)] at hdoomed
      simp [hdoomed] at hspared

theorem mergeActiveGeneration_answer (hrow : row ∈ queue.jobs) {desired : ℤ} {input : JobInput}
    {fingerprint : String}
    (h : mergeActiveGeneration queue row desired input fingerprint = .ok (job, next)) :
    job.kind = row.kind ∧ job.scopeKey = row.scopeKey ∧ job ∈ next.jobs := by
  unfold mergeActiveGeneration at h
  split at h
  next =>
    obtain ⟨rfl, rfl⟩ := Prod.mk.inj (Except.ok.inj h)
    exact ⟨rfl, rfl, hrow⟩
  next =>
    split at h
    next =>
      obtain ⟨rfl, rfl⟩ := Prod.mk.inj (Except.ok.inj h)
      exact ⟨rfl, rfl, List.mem_map.mpr ⟨row, hrow, if_pos rfl⟩⟩
    next => cases h

/-- What an admitted request is answered with. -/
theorem enqueue_answer (hsound : Sound queue)
    (h : enqueue encoding generations jobId request queue = .ok (row, next)) :
    row.kind = request.kind ∧ row.scopeKey = request.scopeKey ∧ row ∈ next.jobs ∧
      (request.operationId, row.id) ∈ next.operations := by
  rcases enqueue_eq_ok h with ⟨hop, hsame, rfl⟩ | ⟨hop, input, fingerprint, generation, hbind, h⟩
  · simp only [EnqueueRequest.same, Bool.and_eq_true, decide_eq_true_eq] at hsame
    obtain ⟨hrow, hmem⟩ := (byOperation_eq_some_iff hsound).mp hop
    exact ⟨hsame.1.1, hsame.1.2, hrow, hmem⟩
  rcases h with ⟨active, hactive, hcoalesce⟩ | ⟨hactive, hinsertion⟩
  · obtain ⟨hmem, -, hscope⟩ := activeJob_eq_some hactive
    obtain ⟨hkind, hscopeKey⟩ := Prod.mk.inj hscope
    unfold coalesce at hcoalesce
    split at hcoalesce
    next => cases hcoalesce
    next =>
      obtain ⟨⟨merged, queue'⟩, hmerge, hrest⟩ := bind_eq_ok_iff.mp hcoalesce
      obtain ⟨queue'', hattach, hrest⟩ := bind_eq_ok_iff.mp hrest
      obtain ⟨rfl, rfl⟩ := Prod.mk.inj (Except.ok.inj hrest)
      obtain ⟨-, rfl⟩ := attachOperationAlias_eq_ok hattach
      have hmerged : merged.kind = active.kind ∧ merged.scopeKey = active.scopeKey ∧
          merged ∈ queue'.jobs := by
        cases generation with
        | none =>
            obtain ⟨rfl, rfl⟩ := Prod.mk.inj (Except.ok.inj hmerge)
            exact ⟨rfl, rfl, hmem⟩
        | some generation => exact mergeActiveGeneration_answer hmem hmerge
      exact ⟨hmerged.1.trans hkind, hmerged.2.1.trans hscopeKey, hmerged.2.2, by simp⟩
  · unfold reuseOrInsert at hinsertion
    split at hinsertion
    next reused hreuse =>
      obtain ⟨queue', hattach, hrest⟩ := bind_eq_ok_iff.mp hinsertion
      obtain ⟨rfl, rfl⟩ := Prod.mk.inj (Except.ok.inj hrest)
      obtain ⟨-, rfl⟩ := attachOperationAlias_eq_ok hattach
      obtain ⟨reuse, hfilter, hreused⟩ := Option.bind_eq_some_iff.mp hreuse
      have hmem := List.mem_filter.mp (mem_of_latest hreused)
      simp only [Bool.and_eq_true, decide_eq_true_eq] at hmem
      have hkind : request.kind = .securityDerivation := by
        by_contra hother
        rw [bindCurrentGeneration, if_neg hother] at hbind
        obtain ⟨-, -, rfl⟩ := Except.ok.inj hbind
        cases hfilter
      exact ⟨hmem.2.1.1.1.1.trans hkind.symm, hmem.2.1.1.2, hmem.1, by simp⟩
    next =>
      obtain ⟨u, -, hinsert⟩ := bind_eq_ok_iff.mp hinsertion
      rw [hsound.insertJob_eq (hsound.not_mem_operations hop) hactive] at hinsert
      obtain ⟨rfl, rfl⟩ := Prod.mk.inj (Except.ok.inj hinsert)
      exact ⟨rfl, rfl, by simp, by simp [insertedJob]⟩

/-- A retry of an operation is answered with the job which it was admitted to, as long as there
is a row for it: by that row, or by a refusal when the retry asks for something else. -/
theorem operation_retried (h : Reachable encoding queue) (hfresh : jobId ∉ queue.issued)
    (henqueue : enqueue encoding generations jobId request queue = .ok (row, next))
    (hrun : Relation.ReflTransGen (Step encoding) next last) (hjob : job ∈ last.jobs)
    (hid : job.id = row.id) :
    job.kind = request.kind ∧ job.scopeKey = request.scopeKey ∧
    ∀ (generations' : ℤ → Option GenerationState) (id : Uuid) (retry : EnqueueRequest),
      retry.operationId = request.operationId → validateEnqueue encoding retry = .ok () →
        enqueue encoding generations' id retry last = if retry.same job then .ok (job, last)
          else .error (.conflict "Idempotency-Key was already used for a different operation") := by
  have hnext : Reachable encoding next := by
    obtain ⟨clock, hstart⟩ := h
    exact ⟨clock, hstart.tail (.enqueue generations jobId request hfresh henqueue)⟩
  have hsound := hnext.sound
  obtain ⟨hkind, hscopeKey, hrow, hnamed⟩ := enqueue_answer h.sound henqueue
  have hnames : Sound last ∧ Names request.operationId row.id last := by
    clear hjob
    induction hrun with
    | refl => exact ⟨hsound, hsound.issued row hrow, fun _ _ _ => hnamed⟩
    | tail _ hstep ih => exact ⟨ih.1.step hstep, ih.2.step ih.1 (ih.1.effect hstep)⟩
  have hkept := Job.Kept.of_run hsound hrow hrun hjob hid
  have hop : last.byOperation request.operationId = some job := by
    rw [byOperation_eq_some_iff hnames.1]
    exact ⟨hjob, hid ▸ hnames.2.2 job hjob hid⟩
  refine ⟨hkept.kind.trans hkind, (congrArg Prod.snd hkept.scope).trans hscopeKey, ?_⟩
  intro generations' id retry hretry hvalid
  simp only [enqueue, hvalid, hretry, hop, bind, Except.bind]

end Operations

section Calls

/-- The statements of a call are steps of the queue. -/
theorem complete_steps (hclaim : claim ∈ queue.claims) {result : JobResult}
    (hbytes : encoding.resultBytes result ≤ maxResultBytes) :
    Step encoding queue (complete claim result queue).1 := by
  unfold complete
  split
  · exact .complete hclaim result hbytes
  · split
    · exact .finishCancellation hclaim
    · exact .requeue hclaim false

theorem fail_steps (hclaim : claim ∈ queue.claims) (error : String) :
    Step encoding queue (fail claim error queue).1 := by
  unfold fail
  split
  · exact .fail hclaim error
  · split
    · exact .finishCancellation hclaim
    · exact .requeue hclaim true

end Calls

section Reconciliation

/-- The first pass ends the job. -/
def endedReconcile : Queue := (complete reconcileClaim ⟨none, "{}"⟩ runningReconcile).1

theorem reachable_endedReconcile : Reachable unmeasured endedReconcile := by
  obtain ⟨clock, hrun⟩ := reachable_runningReconcile
  exact ⟨clock, hrun.tail (complete_steps (by simp [runningReconcile]) (Nat.zero_le _))⟩

/-- The row which the first pass leaves. -/
def endedJob : Job :=
  { reconcileJob with
    status := .succeeded
    result := some ⟨none, "{}"⟩
    finishedAtUtc := some 0 }

theorem ended_over_final_input_reconcile :
    (∃ claim, endedReconcile.lastClaim 1 = some claim ∧ endedJob.inputRevision =
      claim.inputRevision ∧ endedJob.input = claim.seen) ∧
      ∀ last, Relation.ReflTransGen (Step unmeasured) endedReconcile last → ∀ job' ∈ last.jobs,
        job'.id = 1 → job' = endedJob :=
  ended_over_final_input reachable_endedReconcile (List.mem_singleton.mpr rfl) (.inl rfl)

def secondClaim : ClaimedControlJob := ⟨1, 4, ⟨none, some true, some true, none, []⟩, 2, []⟩

/-- The hills are asked for while the first pass runs. -/
def mergedReconcile : Queue :=
  { runningReconcile with
    jobs := [{ reconcileJob with
      status := .running
      lease := some ⟨3, 900 * secondUs⟩
      input := secondClaim.input
      inputRevision := 2 }] }

/-- The second pass runs. -/
def rerunReconcile : Queue :=
  { mergedReconcile with
    jobs := [{ reconcileJob with
      status := .running
      lease := some ⟨4, 900 * secondUs⟩
      input := secondClaim.input
      inputRevision := 2 }]
    claims := [reconcileClaim, secondClaim]
    issued := [4, 3, 1] }

theorem run_mergedReconcile : Relation.ReflTransGen (Step unmeasured) mergedReconcile
    (complete secondClaim ⟨none, "{}"⟩ rerunReconcile).1 := by
  have hfirst : Step unmeasured mergedReconcile
      (complete reconcileClaim ⟨none, "{}"⟩ mergedReconcile).1 :=
    complete_steps (by simp [mergedReconcile, runningReconcile]) (Nat.zero_le _)
  have hclaim : Step unmeasured (complete reconcileClaim ⟨none, "{}"⟩ mergedReconcile).1
      rerunReconcile :=
    .claim .gameplay [.adReconcile] (by simp [Lane.kinds]) 900 4 [] (by decide) rfl
  have hlast : Step unmeasured rerunReconcile
      (complete secondClaim ⟨none, "{}"⟩ rerunReconcile).1 :=
    complete_steps (by simp [rerunReconcile]) (Nat.zero_le _)
  exact ((Relation.ReflTransGen.single hfirst).tail hclaim).tail hlast

theorem requirements_served_reconcile : ∃ claim,
    (complete secondClaim ⟨none, "{}"⟩ rerunReconcile).1.lastClaim 1 = some claim ∧
      claim.input.Covers ⟨none, none, some true, none, []⟩ := by
  have hmerge : mergeReconcileInput unmeasured 1 ⟨none, none, some true, none, []⟩
      runningReconcile = .ok mergedReconcile := rfl
  have hserved : { endedJob with input := secondClaim.input, inputRevision := 2 } ∈
      (complete secondClaim ⟨none, "{}"⟩ rerunReconcile).1.jobs := List.mem_singleton.mpr rfl
  exact requirements_served reachable_runningReconcile (List.mem_singleton.mpr rfl) rfl rfl
    (by decide) hmerge run_mergedReconcile hserved rfl (.inl rfl)

theorem operation_retried_reconcile :
    enqueue unmeasured (fun _ => none) 9 reconcileRequest endedReconcile =
      .ok (endedJob, endedReconcile) := by
  have hrun : Relation.ReflTransGen (Step unmeasured) queuedReconcile endedReconcile := by
    have hclaim : Step unmeasured queuedReconcile runningReconcile :=
      .claim .gameplay [.adReconcile] (by simp [Lane.kinds]) 900 3 []
        (by simp [queuedReconcile]) rfl
    exact (Relation.ReflTransGen.single hclaim).tail
      (complete_steps (by simp [runningReconcile]) (Nat.zero_le _))
  exact (operation_retried ⟨0, .refl⟩ (by simp [Queue.empty]) enqueue_reconcile hrun
    (List.mem_singleton.mpr rfl) rfl).2.2 (fun _ => none) 9 reconcileRequest rfl
    (by decide +kernel)

end Reconciliation

end ControlJobs

end Rsctf
