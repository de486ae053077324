import Rsctf.Worker.Inventory

/-!
# Adoption of an inventory

A handled snapshot sends one cleanup for every item which is not current, records the
reported state of every current item, and records at most one status for each assignment.
An assignment is recorded as absent although the snapshot mentions it when all its items
are out of date: then the item still runs while the reservation is given up.
-/

namespace Rsctf

namespace Worker

variable {documents : Documents} {nodes : Uuid → Option WorkerNode} {session : SessionFence}
  {services : Value → Except String (List ServiceSpec)} {snapshotId : String}
  {newUuid : ℕ → Uuid} {table : WorkloadTable} {now : ℤ}
  {assigned : List WorkerWorkload} {items : List InventoryItem} {item : InventoryItem}
  {workload : WorkerWorkload}

section Listing

theorem sessionWorkloads_perm : (sessionWorkloads documents nodes session table now).Perm
    (table.rows.filter fun workload =>
      workload.workerId = session.workerId && workload.reserves &&
        (nodes workload.workerId).any fun node =>
          currentSession session node now &&
            offersReplicas documents node.capabilities workload.requiredReplicas) :=
  List.perm_insertionSort ..

theorem mem_table_of_mem_sessionWorkloads
    (h : workload ∈ sessionWorkloads documents nodes session table now) : workload ∈ table.rows :=
  List.mem_of_mem_filter (sessionWorkloads_perm.mem_iff.mp h)

theorem workerId_of_mem_sessionWorkloads
    (h : workload ∈ sessionWorkloads documents nodes session table now) :
    workload.workerId = session.workerId := by
  have hfilter := (List.mem_filter.mp (sessionWorkloads_perm.mem_iff.mp h)).2
  simp only [Bool.and_eq_true, decide_eq_true_eq] at hfilter
  exact hfilter.1.1

theorem nodup_sessionWorkloads :
    ((sessionWorkloads documents nodes session table now).map (·.id)).Nodup := by
  rw [(sessionWorkloads_perm.map (·.id)).nodup_iff]
  exact table.keys.sublist (List.filter_sublist.map _)

theorem sorted_sessionWorkloads :
    (sessionWorkloads documents nodes session table now).Pairwise fun a b => a.id < b.id := by
  have hle := List.pairwise_insertionSort (fun a b : WorkerWorkload => a.id ≤ b.id)
    (table.rows.filter fun workload =>
      workload.workerId = session.workerId && workload.reserves &&
        (nodes workload.workerId).any fun node =>
          currentSession session node now &&
            offersReplicas documents node.capabilities workload.requiredReplicas)
  have hnodup : ((sessionWorkloads documents nodes session table now).map (·.id)).Nodup :=
    nodup_sessionWorkloads
  have hne := List.pairwise_map.mp hnodup
  exact (hle.and hne).imp fun h => lt_of_le_of_ne h.1 h.2

/-- Page after page the server reads every assignment. -/
theorem readPages_sessionWorkloads :
    Paging.readPages (listSessionWorkloads documents nodes session table now inventoryPageSize)
      (·.id) inventoryPageSize (table.rows.length + 1) none =
        sessionWorkloads documents nodes session table now := by
  refine Paging.readPages_eq (by decide) sorted_sessionWorkloads ?_
  rw [sessionWorkloads_perm.length_eq]
  exact Nat.lt_succ_of_le (List.length_filter_le ..)

end Listing

section Items

/-- The item is a current one of the assignment. -/
def adopts (workload : WorkerWorkload) (item : InventoryItem) : Bool :=
  workload.id = item.fence.workloadId &&
    (decodeHash item.specHash).toOption.any fun specHash =>
      exactFence workload item item.fence.generation specHash

def current (assigned : List WorkerWorkload) (item : InventoryItem) : Bool :=
  assigned.any fun workload => adopts workload item

/-- The status with which a current item is adopted. -/
def itemStatus (session : SessionFence) (snapshotId : String) (item : InventoryItem) :
    WorkloadStatus :=
  adoptedStatus session snapshotId item item.fence.generation
    ((decodeHash item.specHash).toOption.getD [])

theorem signedGeneration_eq_ok {generation : ℕ} {signed : ℤ}
    (h : signedGeneration generation = .ok signed) : signed = generation := by
  unfold signedGeneration at h
  split at h
  · cases h
    rfl
  · cases h

theorem eq_of_id_eq {a b : WorkerWorkload} (hnodup : (assigned.map (·.id)).Nodup)
    (ha : a ∈ assigned) (hb : b ∈ assigned) (h : a.id = b.id) : a = b :=
  List.inj_on_of_nodup_map hnodup ha hb h

theorem find_id_eq_some (hnodup : (assigned.map (·.id)).Nodup) {id : Uuid}
    (hmem : workload ∈ assigned) (hid : workload.id = id) :
    assigned.find? (·.id = id) = some workload := by
  cases hfind : assigned.find? (·.id = id) with
  | none =>
      have hnone := List.find?_eq_none.mp hfind workload hmem
      simp [hid] at hnone
  | some found =>
      have hfound : found.id = id := by simpa using List.find?_some hfind
      rw [eq_of_id_eq hnodup (List.mem_of_find?_eq_some hfind) hmem (hfound.trans hid.symm)]

/-- What the pass does with one item. -/
theorem adoptItem_cases (hnodup : (assigned.map (·.id)).Nodup) {adoption next : Adoption}
    (h : adoptItem services session snapshotId newUuid assigned adoption item = .ok next) :
    (current assigned item = false ∧ next = { adoption with
      cleanup := adoption.cleanup ++
        [⟨newUuid adoption.cleanup.length, item.fence, item.specHash, 60000⟩] }) ∨
    (current assigned item = true ∧ item.fence.workloadId ∉ adoption.reportedExact ∧
      next = { adoption with
        statuses := adoption.statuses ++ [itemStatus session snapshotId item]
        reportedExact := adoption.reportedExact ++ [item.fence.workloadId] }) := by
  unfold adoptItem at h
  cases hgeneration : signedGeneration item.fence.generation with
  | error error => simp [hgeneration, bind, Except.bind] at h
  | ok generation =>
    obtain rfl := signedGeneration_eq_ok hgeneration
    cases hhash : decodeHash item.specHash with
    | error error => simp [hgeneration, hhash, bind, Except.bind] at h
    | ok specHash =>
      simp only [hgeneration, hhash, bind, Except.bind] at h
      split at h
      · next hnone =>
          left
          cases h
          refine ⟨List.any_eq_false.mpr fun workload hmem => ?_, rfl⟩
          rw [adopts, hhash]
          intro hadopts
          simp only [Bool.and_eq_true, decide_eq_true_eq, Except.toOption, Option.any_some]
            at hadopts
          rw [find_id_eq_some hnodup hmem hadopts.1, Option.filter_eq_none_iff] at hnone
          exact hnone workload rfl hadopts.2
      · next workload hsome =>
          right
          obtain ⟨hfind, hexact⟩ := Option.filter_eq_some_iff.mp hsome
          have hid : workload.id = item.fence.workloadId := by
            simpa using List.find?_some hfind
          have hcurrent : current assigned item = true := by
            refine List.any_eq_true.mpr ⟨workload, List.mem_of_find?_eq_some hfind, ?_⟩
            simp [adopts, hhash, hid, hexact, Except.toOption]
          split at h
          · cases h
          · next hfresh =>
              split at h
              · cases h
              · next specification _ =>
                  cases hvalid : validateReplicaObservation specification item with
                  | error error => simp [hvalid] at h
                  | ok _ =>
                      simp only [hvalid, pure, Except.pure] at h
                      cases h
                      exact ⟨hcurrent, hfresh, by simp [itemStatus, hhash, Except.toOption]⟩

/-- What the pass has collected from some items. -/
structure Collected (session : SessionFence) (snapshotId : String)
    (assigned : List WorkerWorkload) (items : List InventoryItem) (before after : Adoption) :
    Prop where
  cleanup : after.cleanup.map (fun command => (command.fence, command.specHash)) =
    before.cleanup.map (fun command => (command.fence, command.specHash)) ++
      (items.filter fun item => !current assigned item).map fun item =>
        (item.fence, item.specHash)
  statuses : after.statuses = before.statuses ++
    (items.filter (current assigned)).map (itemStatus session snapshotId)
  reported : after.reportedExact = before.reportedExact ++
    (items.filter (current assigned)).map (·.fence.workloadId)
  once : before.reportedExact.Nodup → after.reportedExact.Nodup

theorem adoptItems_collected (hnodup : (assigned.map (·.id)).Nodup) {before after : Adoption}
    (h : items.foldlM (adoptItem services session snapshotId newUuid assigned) before =
      .ok after) : Collected session snapshotId assigned items before after := by
  induction items generalizing before with
  | nil =>
      cases h
      exact ⟨by simp, by simp, by simp, id⟩
  | cons item rest ih =>
      rw [List.foldlM_cons] at h
      cases hitem : adoptItem services session snapshotId newUuid assigned before item with
      | error error => simp [hitem, bind, Except.bind] at h
      | ok next =>
          simp only [hitem, bind, Except.bind] at h
          have hrest := ih h
          rcases adoptItem_cases hnodup hitem with ⟨hstale, rfl⟩ | ⟨hcurrent, hfresh, rfl⟩
          · exact ⟨by simp [hrest.cleanup, hstale], by simp [hrest.statuses, hstale],
              by simp [hrest.reported, hstale], hrest.once⟩
          · refine ⟨by simp [hrest.cleanup, hcurrent], by simp [hrest.statuses, hcurrent],
              by simp [hrest.reported, hcurrent], fun hone => hrest.once ?_⟩
            exact List.nodup_append.mpr ⟨hone, List.nodup_singleton _, fun id hid other hother =>
              fun heq => hfresh (List.mem_singleton.mp hother ▸ heq ▸ hid)⟩

end Items

section Statuses

variable {statuses more : List WorkloadStatus} {row : WorkerWorkload} {status : WorkloadStatus}

theorem applyStatuses_of_not_mem (h : row.id ∉ statuses.map (·.workloadId)) :
    applyStatuses session statuses row = row := by
  have hnone : statuses.find? (fun report => report.workloadId = row.id) = none := by
    rw [List.find?_eq_none]
    intro report hreport heq
    exact h (List.mem_map.mpr ⟨report, hreport, of_decide_eq_true heq⟩)
  simp [applyStatuses, RowChange.apply, hnone]

theorem find_workloadId_eq_some (hnodup : (statuses.map (·.workloadId)).Nodup)
    (hmem : status ∈ statuses) {id : Uuid} (hid : status.workloadId = id) :
    statuses.find? (fun report => report.workloadId = id) = some status := by
  cases hfind : statuses.find? (fun report => report.workloadId = id) with
  | none =>
      have hnone := List.find?_eq_none.mp hfind status hmem
      simp [hid] at hnone
  | some found =>
      have hfound : found.workloadId = id := by simpa using List.find?_some hfind
      rw [List.inj_on_of_nodup_map hnodup (List.mem_of_find?_eq_some hfind) hmem
        (hfound.trans hid.symm)]

/-- Two batches about different workloads are one batch. -/
theorem applyStatuses_append
    (hdisjoint : ∀ id ∈ statuses.map (·.workloadId), id ∉ more.map (·.workloadId)) :
    applyStatuses session more (applyStatuses session statuses row) =
      applyStatuses session (statuses ++ more) row := by
  by_cases hmem : row.id ∈ statuses.map (·.workloadId)
  · have hrest : applyStatuses session more (applyStatuses session statuses row) =
        applyStatuses session statuses row :=
      applyStatuses_of_not_mem (by
        rw [id_applyStatuses]
        exact hdisjoint row.id hmem)
    have hfind : (statuses ++ more).find? (fun report => report.workloadId = row.id) =
        statuses.find? (fun report => report.workloadId = row.id) := by
      rw [List.find?_append, Option.or_of_isSome]
      obtain ⟨report, hreport, hid⟩ := List.mem_map.mp hmem
      exact List.find?_isSome.mpr ⟨report, hreport, decide_eq_true hid⟩
    rw [hrest]
    simp only [applyStatuses, RowChange.apply, hfind]
  · have hnone : statuses.find? (fun report => report.workloadId = row.id) = none := by
      rw [List.find?_eq_none]
      intro report hreport heq
      exact hmem (List.mem_map.mpr ⟨report, hreport, of_decide_eq_true heq⟩)
    rw [applyStatuses_of_not_mem hmem]
    simp only [applyStatuses, RowChange.apply, List.find?_append, hnone, Option.none_or]

/-- A node accepts the reports of its current session unless it is disabled. -/
def accepts (nodes : Uuid → Option WorkerNode) (session : SessionFence) (now : ℤ) : Bool :=
  (nodes session.workerId).any fun node =>
    currentSession session node now && node.administrativeState ≠ .disabled

theorem recordWorkloadStatusBatch_rows {applied : List Uuid} {table' : WorkloadTable}
    (haccepts : accepts nodes session now = true)
    (h : recordWorkloadStatusBatch nodes session table now statuses = .ok (applied, table')) :
    table'.rows = table.rows.map (applyStatuses session statuses) := by
  unfold recordWorkloadStatusBatch at h
  split at h
  · next hempty =>
      cases h
      rw [List.isEmpty_iff.mp hempty]
      have hsame : applyStatuses session [] = id :=
        funext fun row => applyStatuses_of_not_mem (List.not_mem_nil)
      rw [hsame, List.map_id]
  · split at h
    · cases h
    · split at h
      · cases h
      · rw [accepts] at haccepts
        rw [if_pos haccepts] at h
        cases h
        rfl

/-- The batches together apply all the statuses. -/
theorem recordBatches_rows (haccepts : accepts nodes session now = true)
    {batches : List (List WorkloadStatus)} {applied : ℕ} {final : WorkloadTable}
    (hnodup : (batches.flatten.map (·.workloadId)).Nodup)
    (h : recordBatches nodes session now table batches = .ok (applied, final)) :
    final.rows = table.rows.map (applyStatuses session batches.flatten) := by
  induction batches generalizing table applied with
  | nil =>
      cases h
      have hsame : applyStatuses session [] = id :=
        funext fun row => applyStatuses_of_not_mem (List.not_mem_nil)
      rw [List.flatten_nil, hsame, List.map_id]
  | cons batch rest ih =>
      rw [recordBatches] at h
      cases hbatch : recordWorkloadStatusBatch nodes session table now batch with
      | error error => simp [hbatch] at h
      | ok result =>
          obtain ⟨ids, table'⟩ := result
          rw [hbatch] at h
          cases hrest : recordBatches nodes session now table' rest with
          | error error => simp [hrest] at h
          | ok result =>
              obtain ⟨more, last⟩ := result
              simp only [hrest] at h
              cases h
              rw [List.flatten_cons, List.map_append, List.nodup_append] at hnodup
              rw [ih hnodup.2.1 hrest, recordWorkloadStatusBatch_rows haccepts hbatch,
                List.map_map, List.flatten_cons]
              refine congrArg (fun f => table.rows.map f) (funext fun row => ?_)
              exact applyStatuses_append fun id hid hother => hnodup.2.2 id hid id hother rfl

/-- A status takes effect in the row of its fence. -/
theorem applyStatuses_of_fence (hnodup : (statuses.map (·.workloadId)).Nodup)
    (hmem : status ∈ statuses) (hid : row.id = status.workloadId)
    (hworker : row.workerId = session.workerId)
    (hassignment : row.assignmentId = status.assignmentId)
    (hgeneration : row.generation = status.generation)
    (hhash : row.definition.specHashSha256 = status.specHashSha256) :
    applyStatuses session statuses row = { row with
      observedState := status.state
      observedSessionEpoch := some session.sessionEpoch
      observedMessage := status.message } := by
  have hfind := find_workloadId_eq_some hnodup hmem hid.symm
  simp [applyStatuses, RowChange.apply, hfind, hworker, hassignment, hgeneration, hhash]

end Statuses

section Outcome

/-- A status carries the fence of an assignment. -/
def WorkloadStatus.Fences (status : WorkloadStatus) (workload : WorkerWorkload) : Prop :=
  status.workloadId = workload.id ∧ status.assignmentId = workload.assignmentId ∧
    status.generation = workload.generation ∧
    status.specHashSha256 = workload.definition.specHashSha256

/-- What a handled snapshot promises. -/
structure Faithful (nodes : Uuid → Option WorkerNode) (session : SessionFence)
    (table : WorkloadTable) (now : ℤ) (assigned : List WorkerWorkload)
    (items : List InventoryItem) (outcome : InventoryOutcome) : Prop where
  absent : ∀ status ∈ outcome.statuses, status.state = .absent →
    ∀ item ∈ items, item.fence.workloadId ≠ status.workloadId
  exact : ∀ item ∈ items, ∀ workload ∈ assigned, adopts workload item = true →
    ∃ status ∈ outcome.statuses, status.Fences workload ∧
      status.state = observedState item.state
  cleanup : outcome.cleanup.map (fun command => (command.fence, command.specHash)) =
    (items.filter fun item => !current assigned item).map fun item => (item.fence, item.specHash)
  once : (outcome.statuses.map (·.workloadId)).Nodup
  recorded : accepts nodes session now = true → ∀ status ∈ outcome.statuses,
    ∃ row ∈ outcome.table.rows, status.Fences row ∧ row.observedState = status.state ∧
      row.observedSessionEpoch = some session.sessionEpoch ∧ row.observedMessage = status.message
  unchanged : accepts nodes session now = true → ∀ row ∈ table.rows,
    row.id ∉ outcome.statuses.map (·.workloadId) → row ∈ outcome.table.rows

/-- Every assignment which the snapshot mentions has a current item, and none reports it
as absent. -/
def MentionsCurrent (assigned : List WorkerWorkload) (items : List InventoryItem) : Prop :=
  ∀ item ∈ items, ∀ workload ∈ assigned, workload.id = item.fence.workloadId →
    ∃ other ∈ items, adopts workload other = true ∧ other.state ≠ .absent

theorem handleInventorySnapshot_eq_ok {outcome : InventoryOutcome}
    (h : handleInventorySnapshot services session snapshotId newUuid documents nodes table now
      items = .ok outcome) :
    ∃ adoption applied,
      adoptItems services session snapshotId newUuid
        (sessionWorkloads documents nodes session table now) items = .ok adoption ∧
      outcome.cleanup = adoption.cleanup ∧
      outcome.statuses = inventoryStatuses session snapshotId
        (sessionWorkloads documents nodes session table now) adoption ∧
      recordBatches nodes session now table
        (Paging.batches inventoryPageSize outcome.statuses) = .ok (applied, outcome.table) := by
  unfold handleInventorySnapshot at h
  rw [readPages_sessionWorkloads] at h
  simp only [bind, Except.bind] at h
  cases hadopt : adoptItems services session snapshotId newUuid
      (sessionWorkloads documents nodes session table now) items with
  | error error => simp [hadopt] at h
  | ok adoption =>
      simp only [hadopt] at h
      split at h
      · cases h
      · next applied final hrecord =>
          have houtcome : outcome = ⟨adoption.cleanup, inventoryStatuses session snapshotId
              (sessionWorkloads documents nodes session table now) adoption, final⟩ := by
            split at h
            · split at h
              · cases h
              · cases h
                rfl
            · cases h
              rfl
          subst houtcome
          exact ⟨adoption, applied, rfl, rfl, rfl, hrecord⟩

theorem itemStatus_fences (h : adopts workload item = true) :
    (itemStatus session snapshotId item).Fences workload := by
  unfold adopts at h
  cases hhash : decodeHash item.specHash with
  | error error => simp [hhash, Except.toOption] at h
  | ok specHash =>
      simp only [hhash, Except.toOption, Option.any_some, exactFence, Bool.and_eq_true,
        decide_eq_true_eq] at h
      obtain ⟨hid, ⟨hassignment, hgeneration⟩, hspec⟩ := h
      refine ⟨hid.symm, hassignment.symm, hgeneration.symm, ?_⟩
      simp [itemStatus, adoptedStatus, hhash, Except.toOption, hspec]

theorem observedState_eq_absent {state : ObservedWorkloadState} :
    observedState state = .absent ↔ state = .absent := by
  cases state <;> simp [observedState]

theorem id_of_adopts (h : adopts workload item = true) :
    workload.id = item.fence.workloadId := by
  rw [adopts, Bool.and_eq_true] at h
  exact of_decide_eq_true h.1

theorem mem_inventoryStatuses {adoption : Adoption} {status : WorkloadStatus}
    (hcollected : Collected session snapshotId assigned items ⟨[], [], []⟩ adoption) :
    status ∈ inventoryStatuses session snapshotId assigned adoption ↔
      (∃ item ∈ items, current assigned item = true ∧
        itemStatus session snapshotId item = status) ∨
      ∃ workload ∈ assigned, workload.id ∉ adoption.reportedExact ∧
        missingStatus session snapshotId workload = status := by
  simp [inventoryStatuses, hcollected.statuses, and_assoc]

theorem mem_reportedExact {adoption : Adoption} {id : Uuid}
    (hcollected : Collected session snapshotId assigned items ⟨[], [], []⟩ adoption) :
    id ∈ adoption.reportedExact ↔
      ∃ item ∈ items, current assigned item = true ∧ item.fence.workloadId = id := by
  simp [hcollected.reported, and_assoc]

theorem nodup_inventoryStatuses {adoption : Adoption} (hnodup : (assigned.map (·.id)).Nodup)
    (hcollected : Collected session snapshotId assigned items ⟨[], [], []⟩ adoption) :
    ((inventoryStatuses session snapshotId assigned adoption).map (·.workloadId)).Nodup := by
  have hreported : adoption.statuses.map (·.workloadId) = adoption.reportedExact := by
    rw [hcollected.statuses, hcollected.reported]
    simp [itemStatus, adoptedStatus, Function.comp_def]
  rw [inventoryStatuses, List.map_append, hreported, List.map_map]
  refine List.nodup_append.mpr ⟨hcollected.once List.nodup_nil, ?_, ?_⟩
  · exact hnodup.sublist (List.filter_sublist.map _)
  · intro id hid other hother heq
    obtain ⟨workload, hmem, rfl⟩ := List.mem_map.mp hother
    have hfresh := (List.mem_filter.mp hmem).2
    rw [decide_eq_true_eq] at hfresh
    have hid' : id = workload.id := heq
    exact hfresh (hid' ▸ hid)

/-- A status is recorded as absent for no mentioned assignment exactly when all the
mentioned assignments are reported as current and not absent. -/
theorem absent_iff {adoption : Adoption} (hnodup : (assigned.map (·.id)).Nodup)
    (hcollected : Collected session snapshotId assigned items ⟨[], [], []⟩ adoption) :
    (∀ status ∈ inventoryStatuses session snapshotId assigned adoption,
      status.state = .absent → ∀ item ∈ items, item.fence.workloadId ≠ status.workloadId) ↔
    MentionsCurrent assigned items := by
  constructor
  · intro habsent item hitem workload hworkload hid
    have hreported : workload.id ∈ adoption.reportedExact := by
      by_contra hmissing
      exact habsent _ ((mem_inventoryStatuses hcollected).mpr
        (.inr ⟨workload, hworkload, hmissing, rfl⟩)) rfl item hitem hid.symm
    obtain ⟨other, hother, hcurrent, hotherId⟩ := (mem_reportedExact hcollected).mp hreported
    obtain ⟨owner, howner, hadopts⟩ := List.any_eq_true.mp hcurrent
    obtain rfl := eq_of_id_eq hnodup howner hworkload ((id_of_adopts hadopts).trans hotherId)
    refine ⟨other, hother, hadopts, fun hstate => ?_⟩
    refine habsent _ ((mem_inventoryStatuses hcollected).mpr
      (.inl ⟨other, hother, hcurrent, rfl⟩)) ?_ other hother rfl
    exact observedState_eq_absent.mpr hstate
  · intro hmentions status hstatus hstate item hitem hid
    rcases (mem_inventoryStatuses hcollected).mp hstatus with
      ⟨other, hother, hcurrent, rfl⟩ | ⟨workload, hworkload, hmissing, rfl⟩
    · obtain ⟨workload, hworkload, hadopts⟩ := List.any_eq_true.mp hcurrent
      obtain ⟨third, hthird, hadopts', hpresent⟩ :=
        hmentions other hother workload hworkload (id_of_adopts hadopts)
      have hones : ((items.filter (current assigned)).map (·.fence.workloadId)).Nodup := by
        have hone := hcollected.once List.nodup_nil
        rwa [hcollected.reported, List.nil_append] at hone
      have hcurrent' : current assigned third = true :=
        List.any_eq_true.mpr ⟨workload, hworkload, hadopts'⟩
      have hsame : third = other :=
        List.inj_on_of_nodup_map hones (List.mem_filter.mpr ⟨hthird, hcurrent'⟩)
          (List.mem_filter.mpr ⟨hother, hcurrent⟩)
          ((id_of_adopts hadopts').symm.trans (id_of_adopts hadopts))
      exact hpresent (hsame ▸ observedState_eq_absent.mp hstate)
    · obtain ⟨other, hother, hadopts, -⟩ := hmentions item hitem workload hworkload hid.symm
      exact hmissing ((mem_reportedExact hcollected).mpr ⟨other, hother,
        List.any_eq_true.mpr ⟨workload, hworkload, hadopts⟩, (id_of_adopts hadopts).symm⟩)

/-- A handled snapshot keeps its promises exactly when every assignment which it mentions
has a current item that does not report it as absent. -/
theorem faithful_iff (documents : Documents) (nodes : Uuid → Option WorkerNode)
    (services : Value → Except String (List ServiceSpec)) (newUuid : ℕ → Uuid)
    (table : WorkloadTable) (now : ℤ) (session : SessionFence) (snapshotId : String)
    (items : List InventoryItem) (outcome : InventoryOutcome)
    (h : handleInventorySnapshot services session snapshotId newUuid documents nodes table now
      items = .ok outcome) :
    Faithful nodes session table now (sessionWorkloads documents nodes session table now) items
        outcome ↔
      MentionsCurrent (sessionWorkloads documents nodes session table now) items := by
  obtain ⟨adoption, applied, hadopt, hcleanup, hstatuses, hrecord⟩ :=
    handleInventorySnapshot_eq_ok h
  have hcollected := adoptItems_collected nodup_sessionWorkloads hadopt
  have honce := nodup_inventoryStatuses nodup_sessionWorkloads hcollected
  rw [← hstatuses] at honce
  have habsent := absent_iff nodup_sessionWorkloads hcollected
  rw [← hstatuses] at habsent
  have hrows : accepts nodes session now = true →
      outcome.table.rows = table.rows.map (applyStatuses session outcome.statuses) := by
    intro haccepts
    have hflatten := Paging.flatten_batches (n := inventoryPageSize) (by decide) outcome.statuses
    have hrecorded := recordBatches_rows haccepts (hflatten.symm ▸ honce) hrecord
    rwa [hflatten] at hrecorded
  have hfence : ∀ status ∈ outcome.statuses,
      ∃ workload ∈ sessionWorkloads documents nodes session table now,
        status.Fences workload := by
    intro status hstatus
    rw [hstatuses] at hstatus
    rcases (mem_inventoryStatuses hcollected).mp hstatus with
      ⟨item, -, hcurrent, rfl⟩ | ⟨workload, hworkload, -, rfl⟩
    · obtain ⟨workload, hworkload, hadopts⟩ := List.any_eq_true.mp hcurrent
      exact ⟨workload, hworkload, itemStatus_fences hadopts⟩
    · exact ⟨workload, hworkload, rfl, rfl, rfl, rfl⟩
  refine ⟨fun hfaithful => habsent.mp hfaithful.absent, fun hmentions => ?_⟩
  refine ⟨habsent.mpr hmentions, ?_, ?_, honce, ?_, ?_⟩
  · intro item hitem workload hworkload hadopts
    refine ⟨itemStatus session snapshotId item, ?_, itemStatus_fences hadopts, rfl⟩
    rw [hstatuses]
    exact (mem_inventoryStatuses hcollected).mpr (.inl ⟨item, hitem,
      List.any_eq_true.mpr ⟨workload, hworkload, hadopts⟩, rfl⟩)
  · rw [hcleanup, hcollected.cleanup]
    rfl
  · intro haccepts status hstatus
    obtain ⟨workload, hworkload, hid, hassignment, hgeneration, hhash⟩ := hfence status hstatus
    have hrow := applyStatuses_of_fence honce hstatus hid.symm
      (workerId_of_mem_sessionWorkloads hworkload) hassignment.symm hgeneration.symm hhash.symm
    refine ⟨applyStatuses session outcome.statuses workload, ?_, ?_⟩
    · rw [hrows haccepts]
      exact List.mem_map.mpr ⟨workload, mem_table_of_mem_sessionWorkloads hworkload, rfl⟩
    · rw [hrow]
      exact ⟨⟨hid, hassignment, hgeneration, hhash⟩, rfl, rfl, rfl⟩
  · intro haccepts row hrow hother
    rw [hrows haccepts]
    exact List.mem_map.mpr ⟨row, hrow, applyStatuses_of_not_mem hother⟩

end Outcome

section Example

/-- Every document is an object, and every limit is met. -/
def inventoryDocuments : Documents where
  isObject := fun _ => true
  contains := fun _ _ => true
  number := fun _ _ => some 8
  workloadSpec := fun _ => .ok ⟨"amd64", [1]⟩

def exampleHash : String := String.ofList (List.replicate 64 '0')

def exampleSession : SessionFence := ⟨1, 11, 5⟩

def exampleNode : WorkerNode where
  administrativeState := .enabled
  platformOs := some .linux
  platformArchitecture := some "amd64"
  runtimeKind := some "docker"
  labels := ""
  capabilities := ""
  capacity := ⟨⟨0, 0, 0⟩, le_rfl, le_rfl, le_rfl⟩
  certificateExpiresAt := some 100
  sessionId := some 11
  sessionEpoch := 5
  leaseExpiresAt := some 100

/-- A workload of the fourth generation that is to be removed. -/
def exampleWorkload : WorkerWorkload where
  id := 7
  ownerKind := "container"
  ownerKey := "box"
  workerId := 1
  assignmentId := 21
  generation := 4
  definition := ⟨"", List.replicate 32 0, .linux, "amd64", "docker", ⟨0, 0, 1⟩⟩
  requiredLabels := ""
  requiredReplicas := 1
  desiredState := .absent
  observedState := .unknown
  observedSessionEpoch := none
  observedMessage := none
  reconcileQuarantineGeneration := none
  createdAt := 0

def exampleNodes (id : Uuid) : Option WorkerNode := if id = 1 then some exampleNode else none

def exampleTable : WorkloadTable := ⟨[exampleWorkload], List.nodup_singleton _⟩

def exampleItem (generation : ℕ) : InventoryItem :=
  ⟨⟨7, 21, generation⟩, exampleHash, .ready, [⟨"box", 0, true⟩]⟩

def handleExample (items : List InventoryItem) : Except WorkerError InventoryOutcome :=
  handleInventorySnapshot (fun _ => .ok [⟨"box", 1⟩]) exampleSession "s" (fun n => n)
    inventoryDocuments exampleNodes exampleTable 0 items

theorem eq_ok_of_any {ε α : Type} {result : Except ε α} {p : α → Bool}
    (h : result.toOption.any p = true) : ∃ a, result = .ok a ∧ p a = true := by
  cases result with
  | error error => cases h
  | ok a => exact ⟨a, rfl, h⟩

theorem sessionWorkloads_example :
    sessionWorkloads inventoryDocuments exampleNodes exampleSession exampleTable 0 =
      [exampleWorkload] := by decide +kernel

theorem faithful_iff_current : ∃ outcome, handleExample [exampleItem 4] = .ok outcome ∧
    Faithful exampleNodes exampleSession exampleTable 0
      (sessionWorkloads inventoryDocuments exampleNodes exampleSession exampleTable 0)
      [exampleItem 4] outcome := by
  have hrun : (handleExample [exampleItem 4]).toOption.any (fun _ => true) = true := by
    decide +kernel
  obtain ⟨outcome, hok, -⟩ := eq_ok_of_any hrun
  refine ⟨outcome, hok, (faithful_iff inventoryDocuments exampleNodes _ _ exampleTable 0
    exampleSession "s" [exampleItem 4] outcome hok).mpr ?_⟩
  rw [sessionWorkloads_example]
  intro item hitem workload hworkload _
  obtain rfl := List.mem_singleton.mp hitem
  obtain rfl := List.mem_singleton.mp hworkload
  exact ⟨exampleItem 4, List.mem_cons_self, by decide +kernel, by decide⟩

/-- A container of the generation before is still running, and its assignment is recorded
as absent. -/
theorem not_faithful_stale : ¬ ∀ documents nodes services newUuid table now session snapshotId
    items outcome, handleInventorySnapshot services session snapshotId newUuid documents nodes
      table now items = .ok outcome →
        ∀ status ∈ outcome.statuses, status.state = .absent →
          ∀ item ∈ items, item.fence.workloadId ≠ status.workloadId := by
  intro h
  have hrun : (handleExample [exampleItem 3]).toOption.any (fun outcome =>
      outcome.statuses.any fun status =>
        decide (status.state = .absent) && decide (status.workloadId = 7)) = true := by
    decide +kernel
  obtain ⟨outcome, hok, habsent⟩ := eq_ok_of_any hrun
  obtain ⟨status, hstatus, hstate⟩ := List.any_eq_true.mp habsent
  simp only [Bool.and_eq_true, decide_eq_true_eq] at hstate
  exact h _ _ _ _ _ _ _ _ _ outcome hok status hstatus hstate.1 (exampleItem 3)
    List.mem_cons_self hstate.2.symm

end Example

end Worker

end Rsctf
