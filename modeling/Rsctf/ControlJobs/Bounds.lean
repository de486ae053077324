import Rsctf.ControlJobs.Changes
import Rsctf.Data.Census

/-!
# Admission to the queue of control jobs

What the admission lock and the indexes keep in every run: one active job for each kind and
scope, the bounds on the active jobs, and operations which name one job each.  The slots of a
lane bound the running jobs whose lease is live.
-/

open Census Fallible Keyed

namespace Rsctf

namespace ControlJobs

variable {encoding : Encoding} {queue next : Queue} {job job' row : Job} {jobId : Uuid}

/-- What admission keeps. -/
structure Sound (queue : Queue) : Prop where
  ids : (queue.jobs.map Job.id).Nodup
  issued : ∀ job ∈ queue.jobs, job.id ∈ queue.issued
  valid : ∀ job ∈ queue.jobs, job.Valid
  scopes : Unique Job.scope Job.active queue.jobs
  active : queue.jobs.countP Job.active ≤ maxActiveJobs
  games : ∀ gameId, queue.jobs.countP (Job.resetOf gameId) ≤ maxActiveResetsPerGame
  teams : ∀ participationId, toI32 participationId = some participationId →
    queue.jobs.countP (Job.resetFor participationId) ≤ maxActiveResetsPerParticipation
  operations : (queue.operations.map Prod.fst).Nodup
  references : ∀ operation ∈ queue.operations, operation.2 ∈ queue.jobs.map Job.id
  aliases : ∀ id, queue.operations.countP (·.2 = id) ≤ maxOperationAliasesPerJob
  named : ∀ job ∈ queue.jobs, (job.operationId, job.id) ∈ queue.operations

theorem sound_empty (clock : ℤ) : Sound (.empty clock) where
  ids := List.nodup_nil
  issued := by simp [Queue.empty]
  valid := by simp [Queue.empty]
  scopes := unique_nil _ _
  active := Nat.zero_le _
  games _ := Nat.zero_le _
  teams _ _ := Nat.zero_le _
  operations := List.nodup_nil
  references := by simp [Queue.empty]
  aliases _ := Nat.zero_le _
  named := by simp [Queue.empty]

namespace Sound

/-- A change of the rows which keeps the jobs. -/
theorem map (h : Sound queue) {f : Job → Job} (hkept : ∀ job ∈ queue.jobs, job.Kept (f job))
    (hjobs : next.jobs = queue.jobs.map f) (hoperations : next.operations = queue.operations)
    (hissued : queue.issued ⊆ next.issued) : Sound next := by
  have hids : next.jobs.map Job.id = queue.jobs.map Job.id := by
    rw [hjobs, List.map_map]
    exact List.map_congr_left fun job hjob => (hkept job hjob).id
  constructor
  · rw [hids]
    exact h.ids
  · rw [hjobs]
    intro job hjob
    obtain ⟨old, hold, rfl⟩ := List.mem_map.mp hjob
    rw [(hkept old hold).id]
    exact hissued (h.issued old hold)
  · rw [hjobs]
    intro job hjob
    obtain ⟨old, hold, rfl⟩ := List.mem_map.mp hjob
    exact (hkept old hold).valid (h.valid old hold)
  · rw [hjobs]
    exact h.scopes.map (fun job hjob => (hkept job hjob).active)
      fun job hjob => (hkept job hjob).scope
  · rw [hjobs]
    exact (countP_map_le fun job hjob => (hkept job hjob).active).trans h.active
  · intro gameId
    rw [hjobs]
    exact (countP_map_le fun job hjob => (hkept job hjob).resetOf).trans (h.games gameId)
  · intro participationId hi32
    rw [hjobs]
    exact (countP_map_le fun job hjob => (hkept job hjob).resetFor).trans
      (h.teams participationId hi32)
  · rw [hoperations]
    exact h.operations
  · rw [hoperations, hids]
    exact h.references
  · rw [hoperations]
    exact h.aliases
  · rw [hjobs, hoperations]
    intro job hjob
    obtain ⟨old, hold, rfl⟩ := List.mem_map.mp hjob
    rw [(hkept old hold).id, (hkept old hold).operationId]
    exact h.named old hold

theorem update (h : Sound queue) {p : Job → Bool} {f : Job → Job}
    (hkept : ∀ job ∈ queue.jobs, p job = true → job.Kept (f job)) : Sound (queue.update p f) := by
  refine h.map (f := fun job => if p job then f job else job) (fun job hjob => ?_) rfl rfl
    (List.Subset.refl _)
  split
  next hp => exact hkept job hjob hp
  next => exact .refl job

theorem eq_of_id (h : Sound queue) (hjob : job ∈ queue.jobs) (hjob' : job' ∈ queue.jobs)
    (hid : job.id = job'.id) : job = job' :=
  List.inj_on_of_nodup_map h.ids hjob hjob' hid

/-- Deleted rows take their aliases with them. -/
theorem delete (h : Sound queue) (doomed : Job → Bool) : Sound (queue.delete doomed) where
  ids := h.ids.sublist (List.filter_sublist.map _)
  issued job hjob := h.issued job (List.mem_filter.mp hjob).1
  valid job hjob := h.valid job (List.mem_filter.mp hjob).1
  scopes := h.scopes.filter _
  active := (countP_filter_le _ _ _).trans h.active
  games gameId := (countP_filter_le _ _ _).trans (h.games gameId)
  teams participationId hi32 := (countP_filter_le _ _ _).trans (h.teams participationId hi32)
  operations := h.operations.sublist (List.filter_sublist.map _)
  references := by
    intro operation hoperation
    obtain ⟨hmem, hkept⟩ := List.mem_filter.mp hoperation
    obtain ⟨job, hjob, hid⟩ := List.mem_map.mp (h.references operation hmem)
    refine List.mem_map.mpr ⟨job, List.mem_filter.mpr ⟨hjob, ?_⟩, hid⟩
    simp only [Bool.not_eq_eq_eq_not, Bool.not_true, List.any_eq_false, Bool.and_eq_true,
      decide_eq_true_eq, not_and] at hkept
    simpa using fun hdoomed => hkept job hjob hdoomed hid
  aliases id := (countP_filter_le _ _ _).trans (h.aliases id)
  named := by
    intro job hjob
    obtain ⟨hmem, hkept⟩ := List.mem_filter.mp hjob
    refine List.mem_filter.mpr ⟨h.named job hmem, ?_⟩
    simp only [Bool.not_eq_eq_eq_not, Bool.not_true, List.any_eq_false, Bool.and_eq_true,
      decide_eq_true_eq, not_and]
    intro other hother hdoomed hid
    rw [h.eq_of_id hother hmem hid] at hdoomed
    simp [hdoomed] at hkept

end Sound

section Enqueue

variable {generations : ℤ → Option GenerationState} {request : EnqueueRequest} {input : JobInput}
  {fingerprint : String} {generation : Option GenerationState} {operationId : Uuid} {now : ℤ}

namespace Sound

/-- An operation which names no job is not in the table. -/
theorem not_mem_operations (h : Sound queue) (hnone : queue.byOperation operationId = none) :
    operationId ∉ queue.operations.map Prod.fst := by
  intro hmem
  obtain ⟨operation, hoperation, rfl⟩ := List.mem_map.mp hmem
  have hget : get Prod.fst operation.1 queue.operations = some operation :=
    (get_eq_some_iff h.operations).mpr ⟨hoperation, rfl⟩
  obtain ⟨job, hjob, hid⟩ := List.mem_map.mp (h.references operation hoperation)
  have hjobget : get Job.id operation.2 queue.jobs = some job :=
    (get_eq_some_iff h.ids).mpr ⟨hjob, hid⟩
  rw [Queue.byOperation, hget, Option.bind_some, hjobget] at hnone
  cases hnone

/-- An operation is attached to a job. -/
theorem attach (h : Sound queue) (hid : jobId ∈ queue.jobs.map Job.id)
    (hnew : operationId ∉ queue.operations.map Prod.fst)
    (hcount : queue.operations.countP (·.2 = jobId) < maxOperationAliasesPerJob) :
    Sound { queue with operations := queue.operations ++ [(operationId, jobId)] } := by
  refine { h with operations := ?_, references := ?_, aliases := ?_, named := ?_ }
  · exact nodup_map_append_singleton h.operations hnew
  · intro operation hoperation
    rcases List.mem_append.mp hoperation with hoperation | hoperation
    · exact h.references operation hoperation
    · rw [List.mem_singleton.mp hoperation]
      exact hid
  · intro other
    refine countP_append_singleton_le (h.aliases other) fun hother => ?_
    rw [← of_decide_eq_true hother]
    exact hcount
  · exact fun job hjob => List.mem_append_left _ (h.named job hjob)

/-- No index refuses the row of a request which found no job. -/
theorem insertJob_eq (h : Sound queue) (hnew : row.operationId ∉ queue.operations.map Prod.fst)
    (hactive : queue.activeJob row.kind row.scopeKey = none) :
    insertJob queue row = .ok (row, { queue with
      jobs := queue.jobs ++ [row]
      operations := queue.operations ++ [(row.operationId, row.id)]
      issued := row.id :: queue.issued }) := by
  rw [Queue.activeJob, List.find?_eq_none] at hactive
  rw [insertJob, if_neg, if_neg]
  · simp only [List.any_eq_true, decide_eq_true_eq, not_exists, not_and]
    exact fun operation hoperation heq => hnew (heq ▸ List.mem_map_of_mem hoperation)
  · simp only [List.any_eq_true, Bool.or_eq_true, decide_eq_true_eq, Bool.and_eq_true,
      not_exists, not_and, not_or]
    refine fun job hjob => ⟨fun heq => ?_, fun hjobActive heq => ?_⟩
    · exact hnew (heq ▸ List.mem_map_of_mem (h.named job hjob))
    · exact hactive job hjob (by rw [hjobActive, Bool.true_and]; exact decide_eq_true heq)

/-- A row is inserted for a request which found no job. -/
theorem insert (h : Sound queue) (hfresh : jobId ∉ queue.issued)
    (hnew : request.operationId ∉ queue.operations.map Prod.fst)
    (hactive : queue.activeJob request.kind request.scopeKey = none)
    (hcapacity : checkCapacity queue request input = .ok ()) :
    Sound { queue with
      jobs := queue.jobs ++ [insertedJob jobId now request input fingerprint]
      operations := queue.operations ++ [(request.operationId, jobId)]
      issued := jobId :: queue.issued } := by
  obtain ⟨htotal, hresets⟩ := checkCapacity_eq_ok hcapacity
  have hnotmem : jobId ∉ queue.jobs.map Job.id := by
    intro hmem
    obtain ⟨job, hjob, rfl⟩ := List.mem_map.mp hmem
    exact hfresh (h.issued job hjob)
  rw [Queue.activeJob, List.find?_eq_none] at hactive
  constructor
  · exact nodup_map_append_singleton h.ids hnotmem
  · intro job hjob
    rcases List.mem_append.mp hjob with hjob | hjob
    · exact List.mem_cons_of_mem _ (h.issued job hjob)
    · rw [List.mem_singleton.mp hjob]
      exact List.mem_cons_self
  · intro job hjob
    rcases List.mem_append.mp hjob with hjob | hjob
    · exact h.valid job hjob
    · rw [List.mem_singleton.mp hjob]
      constructor <;> simp [insertedJob, Job.active, maxInputRevision]
  · refine h.scopes.append_singleton fun _ job hjob hjobActive heq => ?_
    exact hactive job hjob (by rw [hjobActive, Bool.true_and]; exact decide_eq_true heq)
  · exact countP_append_singleton_le h.active fun _ => htotal
  · intro gameId
    refine countP_append_singleton_le (h.games gameId) fun hreset => ?_
    obtain ⟨hkind, rfl, -⟩ := Job.resetOf_iff.mp hreset
    exact (hresets hkind).1
  · intro participationId hi32
    refine countP_append_singleton_le (h.teams participationId hi32) fun hreset => ?_
    obtain ⟨hkind, -, hparticipation⟩ := Job.resetFor_iff.mp hreset
    exact (hresets hkind).2 participationId hi32 hparticipation
  · exact nodup_map_append_singleton h.operations hnew
  · intro operation hoperation
    rw [List.map_append]
    rcases List.mem_append.mp hoperation with hoperation | hoperation
    · exact List.mem_append_left _ (h.references operation hoperation)
    · rw [List.mem_singleton.mp hoperation]
      exact List.mem_append_right _ (by simp [insertedJob])
  · intro other
    refine countP_append_singleton_le (h.aliases other) fun hother => ?_
    have hnone : queue.operations.countP (·.2 = other) = 0 := by
      rw [List.countP_eq_zero]
      intro operation hoperation heq
      refine hnotmem ?_
      have hid : operation.2 = jobId :=
        (of_decide_eq_true heq).trans (of_decide_eq_true hother).symm
      exact hid ▸ h.references operation hoperation
    rw [hnone]
    exact Nat.zero_lt_succ _
  · intro job hjob
    rcases List.mem_append.mp hjob with hjob | hjob
    · exact List.mem_append_left _ (h.named job hjob)
    · rw [List.mem_singleton.mp hjob]
      exact List.mem_append_right _ (by simp [insertedJob])

/-- A derivation which joins an active one may raise its generation. -/
theorem change_mergeActiveGeneration (h : Sound queue) (hrow : row ∈ queue.jobs)
    (hactive : row.active = true) (hkind : row.kind = .securityDerivation) {desired : ℤ}
    (hnext : mergeActiveGeneration queue row desired input fingerprint = .ok (job, next)) :
    job.id = row.id ∧ ∃ f : Job → Job, (∀ job ∈ queue.jobs, job.Change queue.claims (f job)) ∧
      next = { queue with jobs := queue.jobs.map f } := by
  unfold mergeActiveGeneration at hnext
  split at hnext
  next =>
    obtain ⟨rfl, rfl⟩ := Prod.mk.inj (Except.ok.inj hnext)
    exact ⟨rfl, id, fun job _ => .refl _ job, by rw [List.map_id]⟩
  next =>
    split at hnext
    next hrevision =>
      obtain ⟨rfl, rfl⟩ := Prod.mk.inj (Except.ok.inj hnext)
      refine ⟨rfl, _, fun job hjob => ?_, rfl⟩
      split
      next hid =>
        obtain rfl := h.eq_of_id hjob hrow hid
        refine .of_kept (.write hactive (fun hreset => ?_) (fun hreconcile => ?_)
          (.inr ⟨rfl, hrevision⟩) (.inl ⟨rfl, rfl⟩)) rfl rfl hactive fun heq => ?_
        · rw [hkind] at hreset
          cases hreset
        · rw [hkind] at hreconcile
          cases hreconcile
        · have hsame : job.inputRevision + 1 = job.inputRevision := heq
          omega
      next => exact .refl _ job
    next => cases hnext

end Sound

end Enqueue

/-- What a step does to the tables. -/
inductive Effect (queue next : Queue) : Prop
  | change (f : Job → Job) (hchange : ∀ job ∈ queue.jobs, job.Change queue.claims (f job))
      (clock : ℤ) (hclock : queue.clock ≤ clock)
      (hnext : next = { queue with clock, jobs := queue.jobs.map f })
  | join (f : Job → Job) (hchange : ∀ job ∈ queue.jobs, job.Change queue.claims (f job))
      (operationId id : Uuid) (hid : id ∈ queue.jobs.map Job.id)
      (hnew : operationId ∉ queue.operations.map Prod.fst)
      (hcount : queue.operations.countP (·.2 = id) < maxOperationAliasesPerJob)
      (hnext : next = { queue with
        jobs := queue.jobs.map f, operations := queue.operations ++ [(operationId, id)] })
  | insert (id : Uuid) (request : EnqueueRequest) (input : JobInput) (fingerprint : String)
      (hfresh : id ∉ queue.issued) (hnew : request.operationId ∉ queue.operations.map Prod.fst)
      (hactive : queue.activeJob request.kind request.scopeKey = none)
      (hcapacity : checkCapacity queue request input = .ok ())
      (hnext : next = { queue with
        jobs := queue.jobs ++ [insertedJob id queue.clock request input fingerprint]
        operations := queue.operations ++ [(request.operationId, id)]
        issued := id :: queue.issued })
  | claim (lane : Lane) (lease : JobLease) (candidate : Job) (hcandidate : candidate ∈ queue.jobs)
      (hactive : candidate.active = true) (hlane : candidate.kind ∈ lane.kinds)
      (hslots : queue.jobs.countP (Job.occupies queue.clock lane) < lane.slots)
      (hfresh : lease.token ∉ queue.issued)
      (hnext : next = { queue with
        jobs := queue.jobs.map fun job =>
          if job.id = candidate.id then { job with status := .running, lease := some lease }
          else job
        claims := queue.claims ++
          [⟨candidate.id, lease.token, candidate.input, candidate.inputRevision, []⟩]
        issued := lease.token :: queue.issued })
  | checkpoint (claim : ClaimedControlJob) (hclaim : claim ∈ queue.claims)
      (hheld : ∃ job ∈ queue.jobs, job.heldBy claim = true) (checkpoint : List (String × String))
      (hnext : next = { queue with
        jobs := queue.jobs.map fun job =>
          if job.heldBy claim then { job with input := job.input.patch checkpoint } else job
        claims := queue.claims.map fun other =>
          if other.leaseToken = claim.leaseToken then other.wrote checkpoint else other })
  | delete (doomed : Job → Bool) (hnext : next = queue.delete doomed)

namespace Effect

/-- A statement which changes the rows with a property. -/
theorem update {p : Job → Bool} {f : Job → Job}
    (h : ∀ job, p job = true → job.Change queue.claims (f job)) :
    Effect queue (queue.update p f) := by
  refine .change (fun job => if p job then f job else job) (fun job _ => ?_) queue.clock le_rfl rfl
  split
  next hp => exact h job hp
  next => exact .refl _ job

theorem of_enqueue (hsound : Sound queue) {generations : ℤ → Option GenerationState}
    {request : EnqueueRequest} (hfresh : jobId ∉ queue.issued)
    (hnext : enqueue encoding generations jobId request queue = .ok (row, next)) :
    Effect queue next := by
  rcases enqueue_eq_ok hnext with ⟨-, -, rfl⟩ | ⟨hop, input, fingerprint, generation, hbind, h⟩
  · exact .change id (fun job _ => .refl _ job) next.clock le_rfl (by rw [List.map_id])
  have hnew := hsound.not_mem_operations hop
  rcases h with ⟨active, hactive, hcoalesce⟩ | ⟨hactive, hinsertion⟩
  · obtain ⟨hmem, hrunning, hscope⟩ := activeJob_eq_some hactive
    have hid := List.mem_map_of_mem (f := Job.id) hmem
    unfold coalesce at hcoalesce
    split at hcoalesce
    next => cases hcoalesce
    next =>
      obtain ⟨⟨merged, queue'⟩, hmerge, hrest⟩ := bind_eq_ok_iff.mp hcoalesce
      obtain ⟨queue'', hattach, hrest⟩ := bind_eq_ok_iff.mp hrest
      obtain ⟨rfl, rfl⟩ := Prod.mk.inj (Except.ok.inj hrest)
      cases generation with
      | none =>
          obtain ⟨rfl, rfl⟩ := Prod.mk.inj (Except.ok.inj hmerge)
          obtain ⟨hcount, rfl⟩ := attachOperationAlias_eq_ok hattach
          exact .join id (fun job _ => .refl _ job) _ _ hid hnew hcount (by rw [List.map_id])
      | some generation =>
          have hkind : active.kind = .securityDerivation := by
            by_contra hother
            have hsame : active.kind = request.kind := congrArg Prod.fst hscope
            have hrequest : request.kind ≠ .securityDerivation := hsame ▸ hother
            rw [bindCurrentGeneration, if_neg hrequest] at hbind
            cases hbind
          obtain ⟨hsame, f, hchange, rfl⟩ :=
            hsound.change_mergeActiveGeneration hmem hrunning hkind hmerge
          rw [hsame] at hattach
          obtain ⟨hcount, rfl⟩ := attachOperationAlias_eq_ok hattach
          exact .join f hchange _ _ hid hnew hcount rfl
  · unfold reuseOrInsert at hinsertion
    split at hinsertion
    next reused hreuse =>
      obtain ⟨queue', hattach, hrest⟩ := bind_eq_ok_iff.mp hinsertion
      obtain ⟨rfl, rfl⟩ := Prod.mk.inj (Except.ok.inj hrest)
      obtain ⟨generation, -, hreused⟩ := Option.bind_eq_some_iff.mp hreuse
      have hmem := (List.mem_filter.mp (mem_of_latest hreused)).1
      obtain ⟨hcount, rfl⟩ := attachOperationAlias_eq_ok hattach
      exact .join id (fun job _ => .refl _ job) _ _ (List.mem_map_of_mem hmem) hnew hcount
        (by rw [List.map_id])
    next =>
      obtain ⟨u, hcapacity, hinsert⟩ := bind_eq_ok_iff.mp hinsertion
      rw [hsound.insertJob_eq hnew hactive] at hinsert
      obtain ⟨rfl, rfl⟩ := Prod.mk.inj (Except.ok.inj hinsert)
      exact .insert jobId request input fingerprint hfresh hnew hactive hcapacity rfl

theorem of_claimMatching {lane : Lane} {requested : List ControlJobKind}
    (hrequested : requested ⊆ lane.kinds) {leaseSecs : ℤ} {leaseToken : Uuid} {locked : List Uuid}
    {claim : ClaimedControlJob} (hfresh : leaseToken ∉ queue.issued)
    (hnext : claimMatching lane requested leaseSecs leaseToken locked queue = some (claim, next)) :
    Effect queue next := by
  obtain ⟨hslots, candidate, hmem, hclaimable, rfl, rfl⟩ := claimMatching_eq_some hnext
  have hactive := Job.active_of_claimable hclaimable
  simp only [Job.claimable, Bool.and_eq_true, decide_eq_true_eq] at hclaimable
  exact .claim lane ⟨leaseToken, _⟩ candidate hmem hactive (hrequested hclaimable.1) hslots hfresh
    rfl

end Effect

/-- What a step can do. -/
theorem Sound.effect (h : Sound queue) (hstep : Step encoding queue next) :
    Effect queue next := by
  cases hstep with
  | tick hclock => exact .change id (fun job _ => .refl _ job) _ hclock (by rw [List.map_id])
  | enqueue generations id request hfresh hnext => exact .of_enqueue h hfresh hnext
  | merge id input hnext =>
      unfold mergeReconcileInput at hnext
      split at hnext
      next => cases hnext
      next =>
        obtain rfl := Except.ok.inj hnext
        exact .update fun job => change_mergeReconcileInput
  | claim lane requested hrequested leaseSecs leaseToken locked hfresh hnext =>
      exact .of_claimMatching hrequested hfresh hnext
  | complete hclaim result => exact .update fun job => change_completeRow hclaim result
  | fail hclaim error => exact .update fun job => change_failRow hclaim error
  | finishCancellation => exact .update fun job => change_finishCancellation
  | requeue hclaim failed =>
      refine .update fun job hp => ?_
      simp only [Bool.and_eq_true] at hp
      refine .requeue (Job.running_of_heldBy hp.1) ?_
      cases failed with
      | true => exact .inl rfl
      | false => exact .inr rfl
  | release => exact .update fun job => change_releaseUnstarted
  | progress hclaim current total hnext =>
      unfold setProgress at hnext
      split at hnext
      next => cases hnext
      next hbounds =>
        simp only [not_or, not_lt] at hbounds
        obtain rfl := Except.ok.inj hnext
        exact .update fun job hp =>
          change_setProgress hp ⟨hbounds.1, hbounds.2.2.1, hbounds.2.2.2⟩
  | checkpoint hclaim checkpoint hnext =>
      unfold checkpointInput at hnext
      split at hnext
      next => cases hnext
      next =>
        split at hnext
        next hheld =>
          obtain rfl := Except.ok.inj hnext
          exact .checkpoint _ hclaim (List.any_eq_true.mp hheld) checkpoint rfl
        next => cases hnext
  | continueIfDirty => exact .update fun job => change_continueIfDirty
  | cancel => exact .update fun job => change_requestCancellation
  | purge => exact .delete _ rfl
  | deleteGame => exact .delete _ rfl
  | deleteChallenge => exact .delete _ rfl

theorem Sound.kept_claim (h : Sound queue) {candidate : Job} (hcandidate : candidate ∈ queue.jobs)
    (hactive : candidate.active = true) (lease : JobLease) (hjob : job ∈ queue.jobs) :
    job.Kept (if job.id = candidate.id then { job with status := .running, lease := some lease }
      else job) := by
  split
  next hid =>
    obtain rfl := h.eq_of_id hjob hcandidate hid
    exact .claimed hactive lease
  next => exact .refl job

theorem kept_checkpoint (claim : ClaimedControlJob) (checkpoint : List (String × String))
    (job : Job) :
    job.Kept (if job.heldBy claim then { job with input := job.input.patch checkpoint }
      else job) := by
  split
  next hheld =>
    have hactive := Job.active_of_status (Job.running_of_heldBy hheld) (.inr rfl)
    exact .write hactive (fun _ => rfl) (fun _ => .refl _) (.inl rfl) (.inl ⟨rfl, rfl⟩)
  next => exact .refl job

/-- The rows after a step are the ones before it, kept; some are deleted, or one is new. -/
theorem Effect.kept (hsound : Sound queue) (h : Effect queue next) :
    (∃ f : Job → Job, (∀ job ∈ queue.jobs, job.Kept (f job)) ∧ next.jobs = queue.jobs.map f) ∨
    (∃ doomed : Job → Bool, next.jobs = queue.jobs.filter fun job => !doomed job) ∨
    ∃ job, next.jobs = queue.jobs ++ [job] ∧ job.id ∉ queue.issued := by
  cases h with
  | change f hchange _ _ hnext =>
      exact .inl ⟨f, fun job hjob => (hchange job hjob).toKept, by rw [hnext]⟩
  | join f hchange _ _ _ _ _ hnext =>
      exact .inl ⟨f, fun job hjob => (hchange job hjob).toKept, by rw [hnext]⟩
  | insert id request input fingerprint hfresh _ _ _ hnext =>
      exact .inr (.inr ⟨_, by rw [hnext], hfresh⟩)
  | claim lane lease candidate hcandidate hactive _ _ _ hnext =>
      exact .inl ⟨_, fun job hjob => hsound.kept_claim hcandidate hactive lease hjob, by rw [hnext]⟩
  | checkpoint claim _ _ checkpoint hnext =>
      exact .inl ⟨_, fun job _ => kept_checkpoint claim checkpoint job, by rw [hnext]⟩
  | delete doomed hnext => exact .inr (.inl ⟨doomed, by rw [hnext]; rfl⟩)

namespace Sound

theorem step (h : Sound queue) (hstep : Step encoding queue next) : Sound next := by
  cases h.effect hstep with
  | change f hchange _ _ hnext =>
      rw [hnext]
      exact h.map (fun job hjob => (hchange job hjob).toKept) rfl rfl (List.Subset.refl _)
  | join f hchange operationId id hid hnew hcount hnext =>
      rw [hnext]
      have hmap : Sound { queue with jobs := queue.jobs.map f } :=
        h.map (fun job hjob => (hchange job hjob).toKept) rfl rfl (List.Subset.refl _)
      refine hmap.attach ?_ hnew hcount
      have hids : (queue.jobs.map f).map Job.id = queue.jobs.map Job.id := by
        rw [List.map_map]
        exact List.map_congr_left fun job hjob => (hchange job hjob).id
      exact hids ▸ hid
  | insert id request input fingerprint hfresh hnew hactive hcapacity hnext =>
      rw [hnext]
      exact h.insert hfresh hnew hactive hcapacity
  | claim lane lease candidate hcandidate hactive _ _ _ hnext =>
      rw [hnext]
      exact h.map (fun job hjob => h.kept_claim hcandidate hactive lease hjob) rfl rfl
        (List.subset_cons_self _ _)
  | checkpoint claim _ _ checkpoint hnext =>
      rw [hnext]
      exact h.map (fun job _ => kept_checkpoint claim checkpoint job) rfl rfl
        (List.Subset.refl _)
  | delete doomed hnext =>
      rw [hnext]
      exact h.delete doomed

theorem run (h : Sound queue) (hrun : Relation.ReflTransGen (Step encoding) queue next) :
    Sound next := by
  induction hrun with
  | refl => exact h
  | tail _ hstep ih => exact ih.step hstep

end Sound

theorem Reachable.sound (h : Reachable encoding queue) : Sound queue := by
  obtain ⟨clock, hrun⟩ := h
  exact (sound_empty clock).run hrun

section Slots

variable {claims : List ClaimedControlJob} {now now' : ℤ} {lane : Lane}

theorem Job.occupies_iff : job.occupies now lane = true ↔
    job.kind ∈ lane.kinds ∧ job.status = .running ∧ job.leasedAt now = true := by
  simp [Job.occupies, and_assoc]

/-- A lease which is live was live before. -/
theorem Job.leasedAt_of_le (hclock : now ≤ now') (h : job.leasedAt now' = true) :
    job.leasedAt now = true := by
  rw [Job.leasedAt] at h ⊢
  cases hlease : job.lease with
  | none => simp [hlease] at h
  | some lease =>
      simp only [hlease, Option.any_some, decide_eq_true_eq] at h ⊢
      exact hclock.trans_lt h

theorem Job.Change.occupies (h : job.Change claims job') (hclock : now ≤ now')
    (hoccupies : job'.occupies now' lane = true) : job.occupies now lane = true := by
  obtain ⟨hkind, hstatus, hleased⟩ := Job.occupies_iff.mp hoccupies
  obtain ⟨hrunning, hlease⟩ := h.running hstatus
  rw [Job.leasedAt, hlease] at hleased
  exact Job.occupies_iff.mpr ⟨h.kind ▸ hkind, hrunning, Job.leasedAt_of_le hclock hleased⟩

/-- The slots of every lane suffice. -/
def WithinSlots (queue : Queue) : Prop :=
  ∀ lane : Lane, queue.jobs.countP (Job.occupies queue.clock lane) ≤ lane.slots

theorem WithinSlots.step (hsound : Sound queue) (h : WithinSlots queue)
    (heffect : Effect queue next) : WithinSlots next := by
  intro lane
  cases heffect with
  | change f hchange clock hclock hnext =>
      rw [hnext]
      exact (countP_map_le fun job hjob => (hchange job hjob).occupies hclock).trans (h lane)
  | join f hchange _ _ _ _ _ hnext =>
      rw [hnext]
      exact (countP_map_le fun job hjob => (hchange job hjob).occupies le_rfl).trans (h lane)
  | insert id request input fingerprint _ _ _ _ hnext =>
      rw [hnext]
      refine countP_append_singleton_le (h lane) fun hoccupies => ?_
      have hstatus := (Job.occupies_iff.mp hoccupies).2.1
      cases hstatus
  | claim claimed lease candidate hcandidate hactive hlane hslots _ hnext =>
      rw [hnext]
      by_cases hsame : lane = claimed
      · rw [hsame]
        refine (countP_map_le_succ hsound.ids candidate.id fun job _ hother hoccupies => ?_).trans
          hslots
        rwa [if_neg hother] at hoccupies
      · refine (countP_map_le fun job hjob hoccupies => ?_).trans (h lane)
        split at hoccupies
        next hid =>
          obtain rfl := hsound.eq_of_id hjob hcandidate hid
          have hkind := (Job.occupies_iff.mp hoccupies).1
          rw [Lane.mem_kinds] at hlane hkind
          exact absurd (hkind.symm.trans hlane) hsame
        next => exact hoccupies
  | checkpoint claim _ _ checkpoint hnext =>
      rw [hnext]
      refine (countP_map_le fun job _ hoccupies => ?_).trans (h lane)
      split at hoccupies
      next => exact hoccupies
      next => exact hoccupies
  | delete doomed hnext =>
      rw [hnext]
      exact (countP_filter_le _ _ _).trans (h lane)

/-- The running jobs of a lane whose lease is live fit into its slots. -/
theorem lanes_bounded (h : Reachable encoding queue) (lane : Lane) :
    queue.jobs.countP (Job.occupies queue.clock lane) ≤ lane.slots := by
  obtain ⟨clock, hrun⟩ := h
  have hinvariant : Sound queue ∧ WithinSlots queue := by
    induction hrun with
    | refl => exact ⟨sound_empty clock, fun _ => Nat.zero_le _⟩
    | tail _ hstep ih => exact ⟨ih.1.step hstep, ih.2.step ih.1 (ih.1.effect hstep)⟩
  exact hinvariant.2 lane

end Slots

section Reconciliation

/-- Values of no length. -/
def unmeasured : Encoding := ⟨fun _ => 0, fun _ => 0, fun _ => 0, fun _ => ""⟩

def reconcileRequest : EnqueueRequest where
  kind := .adReconcile
  scopeKey := "game:7"
  gameId := 7
  challengeId := none
  operationId := 2
  fingerprint := String.ofList (List.replicate 64 '0')
  input := ⟨none, some true, some false, none, []⟩

def reconcileJob : Job :=
  insertedJob 1 0 reconcileRequest reconcileRequest.input reconcileRequest.fingerprint

def reconcileClaim : ClaimedControlJob := ⟨1, 3, reconcileRequest.input, 1, []⟩

/-- The reconciliation of a game is queued. -/
def queuedReconcile : Queue := ⟨0, [reconcileJob], [(2, 1)], [], [1]⟩

/-- It runs under its first claim. -/
def runningReconcile : Queue :=
  { queuedReconcile with
    jobs := [{ reconcileJob with status := .running, lease := some ⟨3, 900 * secondUs⟩ }]
    claims := [reconcileClaim]
    issued := [3, 1] }

theorem enqueue_reconcile : enqueue unmeasured (fun _ => none) 1 reconcileRequest (.empty 0) =
    .ok (reconcileJob, queuedReconcile) := rfl

theorem reachable_queuedReconcile : Reachable unmeasured queuedReconcile :=
  ⟨0, .single (.enqueue (fun _ => none) 1 reconcileRequest (by simp [Queue.empty])
    enqueue_reconcile)⟩

theorem reachable_runningReconcile : Reachable unmeasured runningReconcile := by
  obtain ⟨clock, hrun⟩ := reachable_queuedReconcile
  refine ⟨clock, hrun.tail (.claim .gameplay [.adReconcile] (by simp [Lane.kinds]) 900 3
    [] (by simp [queuedReconcile]) rfl)⟩

theorem lanes_bounded_reconcile :
    runningReconcile.jobs.countP (Job.occupies runningReconcile.clock .gameplay) ≤ 2 :=
  lanes_bounded reachable_runningReconcile .gameplay

end Reconciliation

end ControlJobs

end Rsctf
