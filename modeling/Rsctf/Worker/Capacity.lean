import Mathlib.Data.List.Nodup
import Rsctf.Data.Keyed
import Rsctf.Data.Path
import Rsctf.Worker.Placement

/-!
# Worker capacity

A transaction which got the lock of a worker was promised its reservation: with it the
worker is not oversubscribed, and as long as the lock is held nobody else reserves more.
This needs that the sums were not outdated when the lock was granted, and that no released
workload is taken up again.
-/

namespace Rsctf

namespace Worker

/-- What a workload takes of a worker. -/
def WorkerWorkload.usage (dimension : Dimension) (workerId : Uuid) (row : WorkerWorkload) : ℤ :=
  if row.workerId = workerId ∧ row.reserves = true then
    row.definition.reservation.amount dimension
  else 0

namespace WorkerWorkload

variable {dimension : Dimension} {workerId : Uuid} {row : WorkerWorkload}

theorem usage_nonneg (h : row.definition.reservation.Nonneg) : 0 ≤ row.usage dimension workerId := by
  unfold usage
  split
  · exact h.amount dimension
  · exact le_refl 0

theorem usage_of_elsewhere (h : row.workerId ≠ workerId) : row.usage dimension workerId = 0 :=
  if_neg fun hrow => h hrow.1

theorem usage_le (h : row.definition.reservation.Nonneg) :
    row.usage dimension workerId ≤ row.definition.reservation.amount dimension := by
  unfold usage
  split
  · exact le_refl _
  · exact h.amount dimension

end WorkerWorkload

/-- What the workloads with the given ids take of a worker. -/
def load (dimension : Dimension) (keep : Uuid → Bool) (workerId : Uuid)
    (workloads : List WorkerWorkload) : ℤ :=
  (workloads.map fun row => if keep row.id then row.usage dimension workerId else 0).sum

section Load

variable {dimension : Dimension} {keep : Uuid → Bool} {workerId : Uuid}
  {workloads : List WorkerWorkload}

theorem sum_filter_map (p : WorkerWorkload → Bool) (f : WorkerWorkload → ℤ)
    (workloads : List WorkerWorkload) :
    ((workloads.filter p).map f).sum = (workloads.map fun row => if p row then f row else 0).sum := by
  induction workloads with
  | nil => rfl
  | cons row rest ih =>
      by_cases h : p row = true
      · simp [h, ih]
      · simp [h, ih]

theorem amount_reserved (dimension : Dimension) (workerId : Uuid)
    (workloads : List WorkerWorkload) :
    (reserved workloads workerId).amount dimension =
      load dimension (fun _ => true) workerId workloads := by
  have hsum : (reserved workloads workerId).amount dimension =
      ((workloads.filter fun row => row.workerId = workerId && row.reserves).map fun row =>
        row.definition.reservation.amount dimension).sum := by
    cases dimension <;> rfl
  rw [hsum, sum_filter_map]
  simp [load, WorkerWorkload.usage]

theorem amount_reservedExcept (dimension : Dimension) (id workerId : Uuid)
    (workloads : List WorkerWorkload) :
    (reservedExcept workloads id workerId).amount dimension =
      load dimension (fun other => other ≠ id) workerId workloads := by
  rw [reservedExcept, amount_reserved, load, sum_filter_map]
  simp [load]

theorem load_append (dimension : Dimension) (keep : Uuid → Bool) (workerId : Uuid)
    (workloads : List WorkerWorkload) (row : WorkerWorkload) :
    load dimension keep workerId (workloads ++ [row]) =
      load dimension keep workerId workloads +
        if keep row.id then row.usage dimension workerId else 0 := by
  simp [load]

theorem sum_map_le {f g : WorkerWorkload → ℤ} {workloads : List WorkerWorkload}
    (h : ∀ row ∈ workloads, f row ≤ g row) : (workloads.map f).sum ≤ (workloads.map g).sum := by
  induction workloads with
  | nil => exact le_refl 0
  | cons row rest ih =>
      have hrow := h row List.mem_cons_self
      have hrest := ih fun other hother => h other (List.mem_cons_of_mem row hother)
      simp only [List.map_cons, List.sum_cons]
      omega

/-- A change of the rows which takes no more of the worker. -/
theorem load_map_le {f : WorkerWorkload → WorkerWorkload} (hid : ∀ row, (f row).id = row.id)
    (h : ∀ row ∈ workloads, (f row).usage dimension workerId ≤ row.usage dimension workerId) :
    load dimension keep workerId (workloads.map f) ≤ load dimension keep workerId workloads := by
  unfold load
  rw [List.map_map]
  apply sum_map_le
  intro row hrow
  simp only [Function.comp, hid]
  split
  · exact h row hrow
  · exact le_refl 0

/-- One row with an id is all that a sum without the id leaves out. -/
theorem load_map_single_le {f : WorkerWorkload → WorkerWorkload} {new : WorkerWorkload} {bound : ℤ}
    (hnodup : (workloads.map fun row => row.id).Nodup)
    (hf : ∀ row ∈ workloads, f row = if row.id = new.id then new else row)
    (hbound : 0 ≤ bound) (hnew : new.usage dimension workerId ≤ bound) :
    load dimension (fun _ => true) workerId (workloads.map f) ≤
      load dimension (fun other => other ≠ new.id) workerId workloads + bound := by
  unfold load
  rw [List.map_map]
  simp only [Function.comp_def, if_true]
  induction workloads with
  | nil => simpa using hbound
  | cons row rest ih =>
      obtain ⟨hfresh, hrest⟩ := List.nodup_cons.mp hnodup
      have hfrest := fun other hother => hf other (List.mem_cons_of_mem row hother)
      simp only [List.map_cons, List.sum_cons]
      rw [hf row List.mem_cons_self]
      by_cases hid : row.id = new.id
      · have hequal : (rest.map fun other => (f other).usage dimension workerId) =
            rest.map fun other => if decide (other.id ≠ new.id) = true then
              other.usage dimension workerId else 0 := by
          apply List.map_congr_left
          intro other hother
          have hne : other.id ≠ new.id := by
            intro heq
            exact hfresh (List.mem_map.mpr ⟨other, hother, heq.trans hid.symm⟩)
          simp [hfrest other hother, hne]
        rw [if_pos hid, if_neg (by simp [hid]), hequal]
        omega
      · have ih := ih hrest hfrest
        rw [if_neg hid, if_pos (by simp [hid])]
        omega

end Load

namespace Database

/-- The reservation still fits beside the workloads with the given ids. -/
def Promised (db : Database) (workerId : Uuid) (keep : Uuid → Bool)
    (reservation : ResourceReservation) : Prop :=
  ∀ dimension, load dimension keep workerId db.workloads + reservation.amount dimension ≤
    (db.nodes workerId).capacity.1.amount dimension

/-- The rows which a transaction is about to commit. -/
structure Pending (db : Database) (t : ℕ) (new : WorkerWorkload) : Prop where
  nonneg : new.definition.reservation.Nonneg
  held : db.locks (.workload new.id) = some t
  placed : ∃ old ∈ db.workloads, old.id = new.id ∧ old.workerId = new.workerId

/-- Committing the rows takes no more of any worker. -/
def Shrinks (db : Database) (rows : List WorkerWorkload) : Prop :=
  ∀ new ∈ rows, ∀ old ∈ db.workloads, old.id = new.id →
    ∀ dimension workerId, new.usage dimension workerId ≤ old.usage dimension workerId

/-- What a transaction may rely on at its point. -/
def Sound (db : Database) (t : ℕ) : Transaction → Prop
  | .idle => True
  | .found request _ _ | .selecting request _ _ _ => request.definition.reservation.Nonneg
  | .selected request _ _ workerId =>
    request.definition.reservation.Nonneg ∧ db.locks (.node workerId) = some t ∧
      db.Promised workerId (fun _ => true) request.definition.reservation
  | .inserted row =>
    row.definition.reservation.Nonneg ∧ db.locks (.node row.workerId) = some t ∧
      db.locks (.workload row.id) = some t ∧ (∀ old ∈ db.workloads, old.id ≠ row.id) ∧
      db.Promised row.workerId (fun _ => true) row.definition.reservation
  | .updating request _ current | .measuring request _ current _ =>
    request.definition.reservation.Nonneg ∧ current.id = request.id ∧
      db.locks (.workload current.id) = some t ∧ current ∈ db.workloads
  | .locating change _ =>
    ∀ request replicas workerId generation,
      change ≠ .definition request replicas workerId generation
  | .prepared change | .writing change _ =>
    ∀ request replicas workerId generation,
      change = .definition request replicas workerId generation →
        request.definition.reservation.Nonneg ∧ db.locks (.node workerId) = some t ∧
          db.Promised workerId (fun id => id ≠ request.id) request.definition.reservation
  | .updated rows =>
    (∀ new ∈ rows, db.Pending t new) ∧
      (db.Shrinks rows ∨ ∃ new, rows = [new] ∧ db.locks (.node new.workerId) = some t ∧
        db.Promised new.workerId (fun id => id ≠ new.id) new.definition.reservation)

/-- A step keeps the locks of a transaction, the rows it locked, and the room on the workers
which it locked. -/
structure Kept (db next : Database) (t : ℕ) : Prop where
  locks : ∀ r, db.locks r = some t → next.locks r = some t
  rows : ∀ id, db.locks (.workload id) = some t → ∀ row, row.id = id →
    (row ∈ next.workloads ↔ row ∈ db.workloads)
  load : ∀ workerId, db.locks (.node workerId) = some t → ∀ dimension keep,
    load dimension keep workerId next.workloads ≤ load dimension keep workerId db.workloads
  capacity : ∀ workerId, (next.nodes workerId).capacity = (db.nodes workerId).capacity

section Kept

variable {db next : Database} {t u : ℕ} {workerId : Uuid} {keep : Uuid → Bool}
  {reservation : ResourceReservation}

theorem Promised.kept (h : db.Promised workerId keep reservation) (hkept : db.Kept next t)
    (hlock : db.locks (.node workerId) = some t) : next.Promised workerId keep reservation := by
  intro dimension
  have hload := hkept.load workerId hlock dimension keep
  have hbound := h dimension
  rw [hkept.capacity]
  omega

theorem Pending.kept {new : WorkerWorkload} (h : db.Pending t new) (hkept : db.Kept next t) :
    next.Pending t new where
  nonneg := h.nonneg
  held := hkept.locks _ h.held
  placed := by
    obtain ⟨old, hold, hid, hworker⟩ := h.placed
    exact ⟨old, (hkept.rows new.id h.held old hid).mpr hold, hid, hworker⟩

/-- What a transaction relies on survives the steps of the others. -/
theorem Sound.kept {transaction : Transaction} (h : db.Sound t transaction)
    (hkept : db.Kept next t) : next.Sound t transaction := by
  cases transaction with
  | idle => trivial
  | found request replicas owner => exact h
  | selecting request replicas owner snapshot => exact h
  | selected request replicas owner workerId =>
      obtain ⟨hnonneg, hlock, hpromised⟩ := h
      exact ⟨hnonneg, hkept.locks _ hlock, hpromised.kept hkept hlock⟩
  | inserted row =>
      obtain ⟨hnonneg, hlock, hrow, hfresh, hpromised⟩ := h
      refine ⟨hnonneg, hkept.locks _ hlock, hkept.locks _ hrow, ?_, hpromised.kept hkept hlock⟩
      intro old hold hid
      exact hfresh old ((hkept.rows row.id hrow old hid).mp hold) hid
  | updating request replicas current =>
      obtain ⟨hnonneg, hid, hlock, hcurrent⟩ := h
      exact ⟨hnonneg, hid, hkept.locks _ hlock, (hkept.rows _ hlock current rfl).mpr hcurrent⟩
  | measuring request replicas current snapshot =>
      obtain ⟨hnonneg, hid, hlock, hcurrent⟩ := h
      exact ⟨hnonneg, hid, hkept.locks _ hlock, (hkept.rows _ hlock current rfl).mpr hcurrent⟩
  | locating change workerId => exact h
  | prepared change =>
      intro request replicas workerId generation hchange
      obtain ⟨hnonneg, hlock, hpromised⟩ := h request replicas workerId generation hchange
      exact ⟨hnonneg, hkept.locks _ hlock, hpromised.kept hkept hlock⟩
  | writing change snapshot =>
      intro request replicas workerId generation hchange
      obtain ⟨hnonneg, hlock, hpromised⟩ := h request replicas workerId generation hchange
      exact ⟨hnonneg, hkept.locks _ hlock, hpromised.kept hkept hlock⟩
  | updated rows =>
      obtain ⟨hpending, hsize⟩ := h
      refine ⟨fun new hnew => (hpending new hnew).kept hkept, ?_⟩
      cases hsize with
      | inl hshrinks =>
          left
          intro new hnew old hold hid
          have hold := (hkept.rows new.id (hpending new hnew).held old hid).mp hold
          exact hshrinks new hnew old hold hid
      | inr hpromised =>
          obtain ⟨new, hrows, hlock, hpromised⟩ := hpromised
          exact .inr ⟨new, hrows, hkept.locks _ hlock, hpromised.kept hkept hlock⟩

theorem kept_advance {taken : List Resource} {transaction : Transaction}
    (htaken : ∀ r ∈ taken, db.locks.available t r = true) :
    db.Kept (db.advance t taken transaction) u where
  locks := by
    intro r hr
    by_cases hu : u = t
    · subst hu
      exact Locks.acquire_of_held_self hr
    · exact Locks.acquire_of_held htaken hr hu
  rows := fun _ _ _ _ => Iff.rfl
  load := fun _ _ _ _ => le_refl _
  capacity := fun _ => rfl

/-- The end of a transaction is kept by the others when it changed no row they locked. -/
theorem kept_finish {workloads : List WorkerWorkload} (hu : u ≠ t)
    (hrows : ∀ id, db.locks (.workload id) ≠ some t → ∀ row, row.id = id →
      (row ∈ workloads ↔ row ∈ db.workloads))
    (hload : ∀ workerId, db.locks (.node workerId) ≠ some t → ∀ dimension keep,
      load dimension keep workerId workloads ≤ load dimension keep workerId db.workloads) :
    db.Kept (db.finish t workloads) u where
  locks := fun r hr => Locks.release_of_held hr hu
  rows := by
    intro id hid
    apply hrows id
    rw [hid]
    exact fun heq => hu (Option.some.inj heq)
  load := by
    intro workerId hlock
    apply hload workerId
    rw [hlock]
    exact fun heq => hu (Option.some.inj heq)
  capacity := fun _ => rfl

end Kept

/-- What holds in every state of the store. -/
structure Invariant (db : Database) : Prop where
  nodup : (db.workloads.map fun row => row.id).Nodup
  nonneg : ∀ row ∈ db.workloads, row.definition.reservation.Nonneg
  within : ∀ workerId dimension, load dimension (fun _ => true) workerId db.workloads ≤
    (db.nodes workerId).capacity.1.amount dimension
  sound : ∀ t, db.Sound t (db.transactions t)

theorem invariant_empty (workerIds : List Uuid) (nodes : Uuid → WorkerNode) :
    (empty workerIds nodes).Invariant where
  nodup := List.nodup_nil
  nonneg := by simp [empty]
  within := fun workerId dimension => (nodes workerId).capacity.2.amount dimension
  sound := fun _ => trivial

/-- What a step of a transaction can do to the store. -/
inductive Outcome (db : Database) (t : ℕ) : Database → Prop
  | advance {taken : List Resource} {transaction : Transaction}
      (htaken : ∀ r ∈ taken, db.locks.available t r = true)
      (hsound : (db.advance t taken transaction).Sound t transaction) :
      Outcome db t (db.advance t taken transaction)
  | rollback : Outcome db t (db.finish t db.workloads)
  | inserted {row : WorkerWorkload} (htransaction : db.transactions t = .inserted row) :
      Outcome db t (db.finish t (db.workloads ++ [row]))
  | replaced {rows : List WorkerWorkload} (htransaction : db.transactions t = .updated rows) :
      Outcome db t (db.finish t (replaceRows db.workloads rows))
  | node {id : Uuid} {node : WorkerNode} (hcapacity : node.capacity = (db.nodes id).capacity) :
      Outcome db t { db with nodes := Function.update db.nodes id node }

section Step

variable {db next : Database} {t : ℕ}

/-- A transaction which goes on is sound at its new point, and the others stay sound. -/
theorem sound_update (transaction : Transaction) (h : db.Invariant)
    (hkept : ∀ u, u ≠ t → db.Kept next u) (hsound : next.Sound t transaction)
    (htransactions : next.transactions = Function.update db.transactions t transaction) (u : ℕ) :
    next.Sound u (next.transactions u) := by
  rw [htransactions]
  by_cases hu : u = t
  · subst hu
    rw [Function.update_self]
    exact hsound
  · rw [Function.update_of_ne hu]
    exact (h.sound u).kept (hkept u hu)

theorem Invariant.advance {taken : List Resource} {transaction : Transaction} (h : db.Invariant)
    (htaken : ∀ r ∈ taken, db.locks.available t r = true)
    (hsound : (db.advance t taken transaction).Sound t transaction) :
    (db.advance t taken transaction).Invariant where
  nodup := h.nodup
  nonneg := h.nonneg
  within := h.within
  sound := sound_update transaction h (fun _ _ => kept_advance htaken) hsound rfl

theorem Invariant.rollback (h : db.Invariant) : (db.finish t db.workloads).Invariant where
  nodup := h.nodup
  nonneg := h.nonneg
  within := h.within
  sound := by
    apply sound_update .idle h _ trivial rfl
    intro u hu
    exact kept_finish hu (fun _ _ _ _ => Iff.rfl) fun _ _ _ _ => le_refl _

theorem Invariant.inserted {row : WorkerWorkload} (h : db.Invariant)
    (htransaction : db.transactions t = .inserted row) :
    (db.finish t (db.workloads ++ [row])).Invariant := by
  have hsound := h.sound t
  rw [htransaction] at hsound
  obtain ⟨hnonneg, hlock, hrow, hfresh, hpromised⟩ := hsound
  constructor
  case nodup =>
    change ((db.workloads ++ [row]).map fun row => row.id).Nodup
    rw [List.map_append, List.map_singleton]
    refine List.nodup_append.mpr ⟨h.nodup, List.nodup_singleton _, ?_⟩
    intro id hid other hother heq
    obtain ⟨old, hold, rfl⟩ := List.mem_map.mp hid
    exact hfresh old hold (heq.trans (List.mem_singleton.mp hother))
  case nonneg =>
    intro old hold
    rcases List.mem_append.mp hold with hold | hold
    · exact h.nonneg old hold
    · rw [List.mem_singleton.mp hold]
      exact hnonneg
  case within =>
    intro workerId dimension
    change load dimension (fun _ => true) workerId (db.workloads ++ [row]) ≤
      (db.nodes workerId).capacity.1.amount dimension
    rw [load_append, if_pos rfl]
    by_cases hworker : row.workerId = workerId
    · subst hworker
      have husage : row.usage dimension row.workerId ≤ _ := WorkerWorkload.usage_le hnonneg
      have hbound := hpromised dimension
      omega
    · rw [WorkerWorkload.usage_of_elsewhere hworker, add_zero]
      exact h.within workerId dimension
  case sound =>
    apply sound_update .idle h _ trivial rfl
    intro u hu
    apply kept_finish hu
    · intro id hid old hold
      have hne : old ≠ row := by
        rintro rfl
        exact hid (hold ▸ hrow)
      simp [hne]
    · intro workerId hworker dimension keep
      have hne : row.workerId ≠ workerId := by
        rintro rfl
        exact hworker hlock
      rw [load_append, WorkerWorkload.usage_of_elsewhere hne, ite_self, add_zero]

section Replace

variable {rows : List WorkerWorkload} {row : WorkerWorkload}

/-- A row after an update is the row itself or a new version of it. -/
theorem replaced_cases (rows : List WorkerWorkload) (row : WorkerWorkload) :
    (rows.find? fun new => new.id = row.id).getD row = row ∨
      ∃ new ∈ rows, new.id = row.id ∧
        (rows.find? fun new => new.id = row.id).getD row = new := by
  cases hfind : rows.find? fun new => new.id = row.id with
  | none => exact .inl rfl
  | some new =>
      have hid := List.find?_some hfind
      exact .inr ⟨new, List.mem_of_find?_eq_some hfind, by simpa using hid, rfl⟩

theorem replaced_id (rows : List WorkerWorkload) (row : WorkerWorkload) :
    ((rows.find? fun new => new.id = row.id).getD row).id = row.id := by
  obtain h | ⟨new, -, hid, h⟩ := replaced_cases rows row
  · rw [h]
  · rw [h, hid]

/-- The update takes no more of a worker unless it is the worker of the promise. -/
theorem usage_replaced_le (h : db.Invariant) {workerId : Uuid} (hworker : db.Shrinks rows ∨ ∃ new, rows = [new] ∧ new.workerId ≠ workerId)
    (hrow : row ∈ db.workloads) (dimension : Dimension) :
    ((rows.find? fun new => new.id = row.id).getD row).usage dimension workerId ≤
      row.usage dimension workerId := by
  obtain hsame | ⟨new, hnew, hid, hreplaced⟩ := replaced_cases rows row
  · rw [hsame]
  · rw [hreplaced]
    cases hworker with
    | inl hshrinks => exact hshrinks new hnew row hrow hid.symm dimension workerId
    | inr hsingle =>
        obtain ⟨only, rfl, hne⟩ := hsingle
        obtain rfl := List.mem_singleton.mp hnew
        rw [WorkerWorkload.usage_of_elsewhere hne]
        exact WorkerWorkload.usage_nonneg (h.nonneg row hrow)

theorem Invariant.replaced (h : db.Invariant) (htransaction : db.transactions t = .updated rows) :
    (db.finish t (replaceRows db.workloads rows)).Invariant := by
  have hsound := h.sound t
  rw [htransaction] at hsound
  obtain ⟨hpending, hsize⟩ := hsound
  constructor
  case nodup =>
    change ((replaceRows db.workloads rows).map fun row => row.id).Nodup
    rw [replaceRows, List.map_map]
    have hids : (fun row : WorkerWorkload => row.id) ∘
        (fun row => (rows.find? fun new => new.id = row.id).getD row) = fun row => row.id := by
      funext row
      exact replaced_id rows row
    rw [hids]
    exact h.nodup
  case nonneg =>
    intro new hnew
    obtain ⟨row, hrow, rfl⟩ := List.mem_map.mp hnew
    obtain hsame | ⟨new, hnew, -, hreplaced⟩ := replaced_cases rows row
    · rw [hsame]
      exact h.nonneg row hrow
    · rw [hreplaced]
      exact (hpending new hnew).nonneg
  case within =>
    intro workerId dimension
    change load dimension (fun _ => true) workerId (replaceRows db.workloads rows) ≤
      (db.nodes workerId).capacity.1.amount dimension
    by_cases hworker : db.Shrinks rows ∨ ∃ new, rows = [new] ∧ new.workerId ≠ workerId
    · have hload : load dimension (fun _ => true) workerId (replaceRows db.workloads rows) ≤
          load dimension (fun _ => true) workerId db.workloads :=
        load_map_le (replaced_id rows) fun row hrow => usage_replaced_le h hworker hrow dimension
      exact hload.trans (h.within workerId dimension)
    · rw [not_or] at hworker
      obtain ⟨new, rfl, hlock, hpromised⟩ := hsize.resolve_left hworker.1
      have hhere : new.workerId = workerId := by
        by_contra hne
        exact hworker.2 ⟨new, rfl, hne⟩
      subst hhere
      have hnonneg := (hpending new (List.mem_singleton_self new)).nonneg
      have hload : load dimension (fun _ => true) new.workerId (replaceRows db.workloads [new]) ≤
          load dimension (fun id => id ≠ new.id) new.workerId db.workloads +
            new.definition.reservation.amount dimension := by
        apply load_map_single_le h.nodup
        · intro row _
          by_cases hid : row.id = new.id
          · simp [hid]
          · simp [hid, Ne.symm hid]
        · exact hnonneg.amount dimension
        · exact WorkerWorkload.usage_le hnonneg
      exact hload.trans (hpromised dimension)
  case sound =>
    apply sound_update .idle h _ trivial rfl
    intro u hu
    apply kept_finish hu
    · intro id hid row hrow
      have hnone : ∀ old : WorkerWorkload, old.id = id →
          (rows.find? fun new => new.id = old.id).getD old = old := by
        intro old hold
        obtain hsame | ⟨new, hnew, hnewid, -⟩ := replaced_cases rows old
        · exact hsame
        · have hheld := (hpending new hnew).held
          rw [hnewid, hold] at hheld
          exact absurd hheld hid
      constructor
      · intro hmem
        obtain ⟨old, hold, heq⟩ := List.mem_map.mp hmem
        have holdid : old.id = id := by rw [← replaced_id rows old, heq, hrow]
        rw [hnone old holdid] at heq
        exact heq ▸ hold
      · intro hmem
        exact List.mem_map.mpr ⟨row, hmem, hnone row hrow⟩
    · intro workerId hworker dimension keep
      apply load_map_le (replaced_id rows)
      intro row hrow
      apply usage_replaced_le h _ hrow dimension
      cases hsize with
      | inl hshrinks => exact .inl hshrinks
      | inr hpromised =>
          obtain ⟨new, rfl, hlock, -⟩ := hpromised
          refine .inr ⟨new, rfl, ?_⟩
          rintro rfl
          exact hworker hlock

end Replace

theorem Invariant.node {id : Uuid} {node : WorkerNode} (h : db.Invariant)
    (hcapacity : node.capacity = (db.nodes id).capacity) :
    ({ db with nodes := Function.update db.nodes id node } : Database).Invariant := by
  have hsame : ∀ workerId, (Function.update db.nodes id node workerId).capacity =
      (db.nodes workerId).capacity := by
    intro workerId
    by_cases hid : workerId = id
    · subst hid
      rw [Function.update_self, hcapacity]
    · rw [Function.update_of_ne hid]
  constructor
  case nodup => exact h.nodup
  case nonneg => exact h.nonneg
  case within =>
    intro workerId dimension
    change _ ≤ (Function.update db.nodes id node workerId).capacity.1.amount dimension
    rw [hsame]
    exact h.within workerId dimension
  case sound =>
    intro u
    exact (h.sound u).kept ⟨fun _ hr => hr, fun _ _ _ _ => Iff.rfl, fun _ _ _ _ => le_refl _, hsame⟩

theorem Outcome.invariant (ho : db.Outcome t next) (h : db.Invariant) : next.Invariant := by
  cases ho with
  | advance htaken hsound => exact h.advance htaken hsound
  | rollback => exact h.rollback
  | inserted htransaction => exact h.inserted htransaction
  | replaced htransaction => exact h.replaced htransaction
  | node hcapacity => exact h.node hcapacity

end Step

/-- The statement takes up a workload again which was released. -/
def Reawakens (change : RowChange) (row : WorkerWorkload) : Prop :=
  row.reserves = false ∧ (change.apply row).any WorkerWorkload.reserves = true

instance (change : RowChange) (row : WorkerWorkload) : Decidable (Reawakens change row) :=
  inferInstanceAs (Decidable (_ ∧ _))

/-- A lock on a worker is granted while the sums of its statement cover what is committed by
then, and no statement takes up a released workload. -/
def Unharmed (db : Database) (t : ℕ) (action : Action) : Prop :=
  match db.transactions t, action with
  | .selecting _ _ _ snapshot, .select _ (some workerId) =>
    (reserved db.workloads workerId).Within (reserved snapshot.workloads workerId)
  | .measuring request _ current snapshot, .measure =>
    (reservedExcept db.workloads request.id current.workerId).Within
      (reservedExcept snapshot.workloads request.id current.workerId)
  | .writing change _, .change => ∀ row ∈ db.workloads, ¬Reawakens change row
  | _, _ => True

instance (db : Database) (t : ℕ) (action : Action) : Decidable (db.Unharmed t action) := by
  unfold Unharmed
  split <;> infer_instance

section Outcome

variable {documents : Documents} {db next : Database} {t : ℕ}

theorem apply_keeps {change : RowChange} {row new : WorkerWorkload}
    (h : change.apply row = some new) : new.id = row.id ∧ new.workerId = row.workerId := by
  cases change with
  | status session statuses =>
      simp only [RowChange.apply] at h
      split at h
      · split at h
        · cases h
          exact ⟨rfl, rfl⟩
        · contradiction
      · contradiction
  | _ =>
      simp only [RowChange.apply] at h
      split at h
      · cases h
        exact ⟨rfl, rfl⟩
      · contradiction

/-- Only a new definition changes what a workload reserves. -/
theorem apply_definition {change : RowChange} {row new : WorkerWorkload}
    (hchange : ∀ request replicas workerId generation,
      change ≠ .definition request replicas workerId generation)
    (h : change.apply row = some new) : new.definition = row.definition := by
  cases change with
  | definition request replicas workerId generation =>
      exact absurd rfl (hchange request replicas workerId generation)
  | status session statuses =>
      simp only [RowChange.apply] at h
      split at h
      · split at h
        · cases h
          rfl
        · contradiction
      · contradiction
  | _ =>
      simp only [RowChange.apply] at h
      split at h
      · cases h
        rfl
      · contradiction

/-- Only a report or a quarantine can take up a released workload. -/
theorem reawakens_cases {change : RowChange} {row : WorkerWorkload} (h : Reawakens change row) :
    (∃ session statuses, change = .status session statuses) ∨
      ∃ id assignmentId generation diagnostic,
        change = .quarantine id assignmentId generation diagnostic := by
  obtain ⟨hreleased, htaken⟩ := h
  obtain ⟨new, hnew, htaken⟩ := (Option.any_eq_true _ _).mp htaken
  cases change with
  | status session statuses => exact .inl ⟨session, statuses, rfl⟩
  | quarantine id assignmentId generation diagnostic =>
      exact .inr ⟨id, assignmentId, generation, diagnostic, rfl⟩
  | forceForget id assignmentId workerId =>
      simp only [RowChange.apply] at hnew
      split at hnew
      · cases hnew
        simp [WorkerWorkload.reserves] at htaken
      · contradiction
  | _ =>
      simp only [RowChange.apply] at hnew
      split at hnew
      · next hmatch => simp [WorkerWorkload.reserves, hmatch] at hreleased
      · contradiction

/-- The rows which a statement updates are rows of the table which it matches. -/
theorem mem_changed {change : RowChange} {snapshot : Snapshot} {row : WorkerWorkload}
    (h : row ∈ db.changed t change snapshot) :
    row ∈ db.workloads ∧ (change.apply row).isSome = true := by
  have hmatching : row ∈ db.workloads.filter fun row =>
      (snapshot.workloads.any fun old => old.id = row.id && (change.apply old).isSome) &&
        (change.apply row).isSome := by
    unfold changed at h
    cases change with
    | orphaned createdBefore limit containers =>
        have h := List.mem_of_mem_take h
        rw [(List.perm_insertionSort _ _).mem_iff] at h
        exact List.mem_of_mem_filter h
    | _ => exact h
  obtain ⟨hrow, hmatch⟩ := List.mem_filter.mp hmatching
  exact ⟨hrow, (Bool.and_eq_true_iff.mp hmatch).2⟩

theorem selectCandidate_spec {request : PlaceWorkload} {replicas now : ℤ} {snapshot : Snapshot}
    {workerId : Uuid}
    (h : db.selectCandidate documents t request replicas now snapshot = some workerId) :
    db.locks.available t (.node workerId) = true ∧
      ((reserved snapshot.workloads workerId).add request.definition.reservation).Within
        (db.nodes workerId).capacity.1 := by
  have hfound := List.find?_some h
  obtain ⟨hlock, hcandidate⟩ := Bool.and_eq_true_iff.mp hfound
  unfold isCandidate at hcandidate
  exact ⟨hlock, of_decide_eq_true (Bool.and_eq_true_iff.mp hcandidate).2⟩

/-- Sums which cover what is committed promise that the reservation fits. -/
theorem promised_of_covered {workerId : Uuid} {keep : Uuid → Bool}
    {now read reservation : ResourceReservation}
    (hnow : ∀ dimension, now.amount dimension = load dimension keep workerId db.workloads)
    (hcovered : now.Within read)
    (hfits : (read.add reservation).Within (db.nodes workerId).capacity.1) :
    db.Promised workerId keep reservation := by
  intro dimension
  have hle := ResourceReservation.within_iff.mp hcovered dimension
  have hbound := ResourceReservation.within_iff.mp hfits dimension
  rw [ResourceReservation.amount_add] at hbound
  rw [← hnow dimension]
  omega

theorem outcome_stay {transaction : Transaction} (hsound : db.Sound t transaction) :
    db.Outcome t (db.advance t [] transaction) :=
  have htaken : ∀ r ∈ ([] : List Resource), db.locks.available t r = true := by simp
  .advance htaken (hsound.kept (kept_advance htaken))

/-- The placement got the lock of its worker. -/
theorem outcome_select {request : PlaceWorkload} {replicas now : ℤ} {owner : String × String}
    {snapshot : Snapshot} {workerId : Uuid}
    (hsound : db.Sound t (.selecting request replicas owner snapshot))
    (hcovered : (reserved db.workloads workerId).Within (reserved snapshot.workloads workerId))
    (h : db.selectCandidate documents t request replicas now snapshot = some workerId) :
    db.Outcome t (db.advance t [.node workerId] (.selected request replicas owner workerId)) := by
  obtain ⟨hlock, hfits⟩ := selectCandidate_spec h
  have htaken : ∀ r ∈ [Resource.node workerId], db.locks.available t r = true := by
    simpa using hlock
  refine .advance htaken ⟨hsound, Locks.acquire_self (List.mem_singleton_self _), ?_⟩
  exact promised_of_covered (fun dimension => amount_reserved dimension workerId db.workloads)
    hcovered hfits

theorem outcome_insert {request : PlaceWorkload} {replicas createdAt : ℤ}
    {owner : String × String} {workerId : Uuid} {taken : List Resource}
    (hsound : db.Sound t (.selected request replicas owner workerId))
    (hfresh : ∀ old ∈ db.workloads, old.id ≠ request.id)
    (htaken : ∀ r ∈ taken, db.locks.available t r = true)
    (hrow : Resource.workload request.id ∈ taken) :
    db.Outcome t
      (db.advance t taken (.inserted (request.row replicas owner workerId createdAt))) := by
  obtain ⟨hnonneg, hlock, hpromised⟩ := hsound
  exact .advance htaken ⟨hnonneg, Locks.acquire_of_held_self hlock, Locks.acquire_self hrow,
    hfresh, hpromised⟩

/-- The update got the lock of the worker of its workload. -/
theorem outcome_measure {request : UpdateWorkload} {replicas : ℤ} {current : WorkerWorkload}
    {snapshot : Snapshot} (hsound : db.Sound t (.measuring request replicas current snapshot))
    (hcovered : (reservedExcept db.workloads request.id current.workerId).Within
      (reservedExcept snapshot.workloads request.id current.workerId))
    (hlock : db.locks.available t (.node current.workerId) = true)
    (hcapacity : hasCapacity request current snapshot.workloads (db.nodes current.workerId)) :
    db.Outcome t (db.advance t [.node current.workerId]
      (.prepared (.definition request replicas current.workerId current.generation))) := by
  have htaken : ∀ r ∈ [Resource.node current.workerId], db.locks.available t r = true := by
    simpa using hlock
  refine .advance htaken ?_
  rintro _ _ _ _ ⟨⟩
  refine ⟨hsound.1, Locks.acquire_self (List.mem_singleton_self _), ?_⟩
  apply promised_of_covered _ hcovered (of_decide_eq_true hcapacity)
  intro dimension
  exact amount_reservedExcept dimension request.id current.workerId db.workloads

/-- A statement which sets no definition takes no more of any worker. -/
theorem shrinks_changed {change : RowChange} {snapshot : Snapshot} (hi : db.Invariant)
    (hquiet : ∀ row ∈ db.workloads, ¬Reawakens change row)
    (hchange : ∀ request replicas workerId generation,
      change ≠ .definition request replicas workerId generation) :
    db.Shrinks ((db.changed t change snapshot).filterMap change.apply) := by
  intro new hnew old hold hid dimension workerId
  obtain ⟨row, hrow, happly⟩ := List.mem_filterMap.mp hnew
  obtain ⟨hnewid, hworker⟩ := apply_keeps happly
  have hmem := (mem_changed hrow).1
  obtain rfl : old = row := List.inj_on_of_nodup_map hi.nodup hold hmem (hid.trans hnewid)
  by_cases hreserves : old.reserves = true
  · have hsame : old.usage dimension workerId =
        if old.workerId = workerId then old.definition.reservation.amount dimension else 0 := by
      simp [WorkerWorkload.usage, hreserves]
    rw [hsame]
    unfold WorkerWorkload.usage
    rw [apply_definition hchange happly, hworker]
    by_cases hhere : old.workerId = workerId
    · by_cases hnewreserves : new.reserves = true
      · simp [hhere, hnewreserves]
      · simp [hhere, hnewreserves, (hi.nonneg old hold).amount dimension]
    · simp [hhere]
  · have hreleased : new.reserves = false := by
      by_contra htaken
      apply hquiet old hold
      exact ⟨by simpa using hreserves, by rw [happly]; simpa using htaken⟩
    simp [WorkerWorkload.usage, hreleased, hreserves]

/-- A new definition changes at most the one workload which it is for. -/
theorem changed_definition {request : UpdateWorkload} {replicas generation : ℤ} {workerId : Uuid}
    (t : ℕ) (snapshot : Snapshot) (hi : db.Invariant) :
    let change : RowChange := .definition request replicas workerId generation
    (db.changed t change snapshot).filterMap change.apply = [] ∨
      ∃ new, (db.changed t change snapshot).filterMap change.apply = [new] ∧
        new.id = request.id ∧ new.workerId = workerId ∧
        new.definition.reservation = request.definition.reservation := by
  intro change
  have hids : ∀ new ∈ (db.changed t change snapshot).filterMap change.apply,
      new.id = request.id ∧ new.workerId = workerId ∧
        new.definition.reservation = request.definition.reservation := by
    intro new hnew
    obtain ⟨row, -, happly⟩ := List.mem_filterMap.mp hnew
    simp only [change, RowChange.apply] at happly
    split at happly
    · next hmatch =>
        cases happly
        exact ⟨hmatch.1, hmatch.2.2.2.1, rfl⟩
    · contradiction
  have hsub : ((db.changed t change snapshot).map fun row => row.id).Nodup :=
    (List.filter_sublist.map _).nodup hi.nodup
  have hnodup : (((db.changed t change snapshot).filterMap change.apply).map
      fun row => row.id).Nodup :=
    Keyed.nodup_filterMap hsub fun row new happly => (apply_keeps happly).1
  match hrows : (db.changed t change snapshot).filterMap change.apply with
  | [] => exact .inl rfl
  | [new] => exact .inr ⟨new, rfl, hids new (by simp [hrows])⟩
  | new :: other :: rest =>
      have hnew := (hids new (by simp [hrows])).1
      have hother := (hids other (by simp [hrows])).1
      rw [hrows] at hnodup
      simp [hnew, hother] at hnodup

/-- The rows of a statement are updated in the store. -/
theorem outcome_change {change : RowChange} {snapshot : Snapshot} (hi : db.Invariant)
    (hsound : db.Sound t (.writing change snapshot))
    (hquiet : ∀ row ∈ db.workloads, ¬Reawakens change row)
    (hlocks : ∀ row ∈ db.changed t change snapshot,
      db.locks.available t (.workload row.id) = true) :
    db.Outcome t (db.advance t ((db.changed t change snapshot).map fun row => .workload row.id)
      (.updated ((db.changed t change snapshot).filterMap change.apply))) := by
  have htaken : ∀ r ∈ (db.changed t change snapshot).map fun row => Resource.workload row.id,
      db.locks.available t r = true := by
    intro r hr
    obtain ⟨row, hrow, rfl⟩ := List.mem_map.mp hr
    exact hlocks row hrow
  have hpending : ∀ new ∈ (db.changed t change snapshot).filterMap change.apply,
      new.definition.reservation.Nonneg →
        (db.advance t ((db.changed t change snapshot).map fun row => .workload row.id)
          (.updated ((db.changed t change snapshot).filterMap change.apply))).Pending t new := by
    intro new hnew hnonneg
    obtain ⟨row, hrow, happly⟩ := List.mem_filterMap.mp hnew
    obtain ⟨hid, hworker⟩ := apply_keeps happly
    refine ⟨hnonneg, ?_, row, (mem_changed hrow).1, hid.symm, hworker.symm⟩
    exact Locks.acquire_self (List.mem_map.mpr ⟨row, hrow, by rw [hid]⟩)
  refine .advance htaken ?_
  by_cases hchange : ∀ request replicas workerId generation,
      change ≠ .definition request replicas workerId generation
  · refine ⟨fun new hnew => hpending new hnew ?_, .inl (shrinks_changed hi hquiet hchange)⟩
    obtain ⟨row, hrow, happly⟩ := List.mem_filterMap.mp hnew
    rw [apply_definition hchange happly]
    exact hi.nonneg row (mem_changed hrow).1
  · simp only [not_forall, not_not] at hchange
    obtain ⟨request, replicas, workerId, generation, rfl⟩ := hchange
    obtain ⟨hnonneg, hlock, hpromised⟩ := hsound request replicas workerId generation rfl
    obtain hrows | ⟨new, hrows, hid, hworker, hreservation⟩ :=
      changed_definition t snapshot hi
    · rw [hrows]
      exact ⟨by simp, .inl (by simp [Shrinks])⟩
    · have hnew := hpending new (by simp [hrows]) (hreservation ▸ hnonneg)
      rw [hrows] at hnew ⊢
      refine ⟨fun other hother => List.mem_singleton.mp hother ▸ hnew, .inr ⟨new, rfl, ?_⟩⟩
      rw [hworker, hid, hreservation]
      exact ⟨Locks.acquire_of_held_self hlock, hpromised.kept (kept_advance htaken) hlock⟩

theorem PlaceWorkload.nonneg_of_validate {request : PlaceWorkload} {replicas : ℤ}
    {owner : String × String} (h : request.validate documents = .ok (replicas, owner)) :
    request.definition.reservation.Nonneg := by
  unfold PlaceWorkload.validate at h
  cases hvalid : request.definition.validate documents with
  | error error => simp [hvalid] at h
  | ok count => exact WorkloadDefinition.nonneg_of_validate hvalid

theorem UpdateWorkload.nonneg_of_validate {request : UpdateWorkload} {replicas : ℤ}
    (h : request.validate documents = .ok replicas) : request.definition.reservation.Nonneg := by
  unfold UpdateWorkload.validate at h
  cases hvalid : request.definition.validate documents with
  | error error => simp [hvalid] at h
  | ok count => exact WorkloadDefinition.nonneg_of_validate hvalid

/-- An update locked the row of its workload. -/
theorem outcome_lockWorkload {request : UpdateWorkload} {replicas : ℤ} {row : WorkerWorkload}
    (hvalid : request.validate documents = .ok replicas)
    (hrow : db.workloads.find? (fun row => row.id = request.id &&
      row.assignmentId = request.assignmentId && row.desiredState = .present) = some row)
    (hlock : db.locks.available t (.workload row.id) = true) :
    db.Outcome t (db.advance t [.workload row.id] (.updating request replicas row)) := by
  have htaken : ∀ r ∈ [Resource.workload row.id], db.locks.available t r = true := by
    simpa using hlock
  have hmatch := List.find?_some hrow
  simp only [Bool.and_eq_true, decide_eq_true_eq] at hmatch
  exact .advance htaken ⟨UpdateWorkload.nonneg_of_validate hvalid, hmatch.1.1,
    Locks.acquire_self (List.mem_singleton_self _), List.mem_of_find?_eq_some hrow⟩

theorem outcome_locate {change : RowChange} (h : db.locate t change = some next) :
    db.Outcome t next := by
  cases change with
  | definition request replicas workerId generation => simp [locate] at h
  | desiredAbsent id assignmentId generation workerId =>
      simp only [locate] at h
      split at h
      · cases h
        exact outcome_stay fun _ _ _ _ => by simp
      · contradiction
  | forceForget id assignmentId workerId =>
      simp only [locate] at h
      split at h
      · cases h
        exact outcome_stay fun _ _ _ _ => by simp
      · contradiction
  | status session statuses =>
      simp only [locate] at h
      split at h
      · cases h
        exact outcome_stay fun _ _ _ _ => by simp
      · contradiction
  | orphaned createdBefore limit containers =>
      simp only [locate] at h
      split at h
      · cases h
        exact outcome_stay fun _ _ _ _ hdefinition => by contradiction
      · contradiction
  | quarantine workloadId assignmentId generation diagnostic =>
      simp only [locate] at h
      split at h
      · cases h
        exact outcome_stay fun _ _ _ _ hdefinition => by contradiction
      · contradiction

/-- The lock of the worker of an update which sets no definition. -/
theorem outcome_lockWorker {change : RowChange} {workerId : Uuid}
    (hsound : db.Sound t (.locating change workerId))
    (hlock : db.locks.available t (.node workerId) = true) :
    db.Outcome t (db.advance t [.node workerId] (.prepared change)) := by
  have htaken : ∀ r ∈ [Resource.node workerId], db.locks.available t r = true := by
    simpa using hlock
  refine .advance htaken ?_
  intro request replicas workerId generation hdefinition
  exact absurd hdefinition (hsound request replicas workerId generation)

/-- What a step can do, when it grants no lock on outdated sums and takes up no released
workload. -/
theorem outcome_of_step (hi : db.Invariant) {action : Action} (hquiet : db.Unharmed t action)
    (h : db.step documents t action = some next) : db.Outcome t next := by
  have hsound := hi.sound t
  unfold step at h
  unfold Unharmed at hquiet
  split at h
  case h_1 request htransaction =>
    split at h
    · contradiction
    · next hvalid =>
        split at h
        · contradiction
        · cases h
          exact outcome_stay (PlaceWorkload.nonneg_of_validate hvalid)
  case h_2 request replicas owner htransaction =>
    cases h
    rw [htransaction] at hsound
    exact outcome_stay hsound
  case h_3 request replicas owner snapshot now workerId htransaction =>
    rw [htransaction] at hsound hquiet
    split at h
    · next hselect =>
        cases workerId with
        | none =>
            cases h
            exact outcome_stay hsound
        | some id =>
            cases h
            exact outcome_select hsound hquiet hselect
    · contradiction
  case h_4 request replicas owner workerId createdAt htransaction =>
    rw [htransaction] at hsound
    split at h
    · cases h
      exact .rollback
    · split at h
      · cases h
        exact .rollback
      · next hfresh =>
          dsimp only at h
          split at h
          · next htaken =>
              cases h
              refine outcome_insert hsound ?_ (by simpa using htaken) (by simp)
              intro old hold hid
              simp only [List.any_eq_true, not_exists, not_and] at hfresh
              exact hfresh old hold (by simp [hid])
          · contradiction
  case h_5 request htransaction =>
    split at h
    · contradiction
    · next hvalid =>
        split at h
        · contradiction
        · next row hrow =>
            split at h
            · contradiction
            · next hlock =>
                split at h
                · contradiction
                · split at h
                  · contradiction
                  · cases h
                    exact outcome_lockWorkload hvalid hrow (by simpa using hlock)
  case h_6 request replicas current htransaction =>
    cases h
    rw [htransaction] at hsound
    exact outcome_stay hsound
  case h_7 request replicas current snapshot htransaction =>
    rw [htransaction] at hsound hquiet
    dsimp only at h
    split at h
    · cases h
      exact .rollback
    · split at h
      · contradiction
      · next hlock =>
          split at h
          · cases h
            exact .rollback
          · split at h
            · cases h
              exact .rollback
            · next hcapacity =>
                split at h
                · cases h
                  exact .rollback
                · cases h
                  exact outcome_measure hsound hquiet (by simpa using hlock)
                    (by simpa using hcapacity)
  case h_8 change htransaction => exact outcome_locate h
  case h_9 change workerId now htransaction =>
    rw [htransaction] at hsound
    split at h
    · contradiction
    · next hlock =>
        have hlock : db.locks.available t (.node workerId) = true := by simpa using hlock
        split at h
        · split at h
          · cases h
            exact outcome_lockWorker hsound hlock
          · cases h
            exact .rollback
        · cases h
          exact outcome_lockWorker hsound hlock
  case h_10 change htransaction =>
    cases h
    rw [htransaction] at hsound
    exact outcome_stay hsound
  case h_11 change snapshot htransaction =>
    rw [htransaction] at hsound hquiet
    dsimp only at h
    split at h
    · next hlocks =>
        cases h
        exact outcome_change hi hsound hquiet (by simpa using hlocks)
    · contradiction
  case h_12 row htransaction =>
    cases h
    exact .inserted htransaction
  case h_13 rows htransaction =>
    cases h
    exact .replaced htransaction
  case h_14 id node htransaction =>
    split at h
    · next hallowed =>
        cases h
        exact .node hallowed.2
    · contradiction
  case h_15 => contradiction
  case h_16 =>
    cases h
    exact .rollback
  case h_17 => contradiction

theorem Outcome.capacity (ho : db.Outcome t next) (workerId : Uuid) :
    (next.nodes workerId).capacity = (db.nodes workerId).capacity := by
  cases ho with
  | node hcapacity =>
      rename_i id node
      by_cases hid : workerId = id
      · subst hid
        exact (congrArg WorkerNode.capacity (Function.update_self ..)).trans hcapacity
      · exact congrArg WorkerNode.capacity (Function.update_of_ne hid ..)
  | _ => rfl

end Outcome

/-- The steps which the store takes without one of its two defects. -/
def UnharmedStep (documents : Documents) (db : Database) (event : ℕ × Action) (next : Database) :
    Prop :=
  db.Step documents event next ∧ db.Unharmed event.1 event.2

/-- In every run from the empty store whose steps are unharmed, no worker is oversubscribed. -/
theorem capacity_respected {documents : Documents} {workerIds : List Uuid}
    {nodes : Uuid → WorkerNode} {events : List (ℕ × Action)} {db : Database}
    (h : StepPath (UnharmedStep documents) (empty workerIds nodes) events db) (workerId : Uuid) :
    (reserved db.workloads workerId).Within (nodes workerId).capacity.1 := by
  have hboth : db.Invariant ∧
      ∀ workerId, (db.nodes workerId).capacity = (nodes workerId).capacity := by
    apply StepPath.invariant (P := fun db => db.Invariant ∧
      ∀ workerId, (db.nodes workerId).capacity = (nodes workerId).capacity) _ h
    · exact ⟨invariant_empty workerIds nodes, fun _ => rfl⟩
    · rintro before event after ⟨hi, hcapacity⟩ ⟨hstep, hquiet⟩
      have houtcome := outcome_of_step hi hquiet hstep
      exact ⟨houtcome.invariant hi, fun id => (houtcome.capacity id).trans (hcapacity id)⟩
  rw [ResourceReservation.within_iff]
  intro dimension
  rw [amount_reserved, ← hboth.2 workerId]
  exact hboth.1.within workerId dimension

end Database

section Oversubscription

/-- Every document qualifies, and every specification has one replica. -/
def plainDocuments : Documents where
  isObject := fun _ => true
  contains := fun _ _ => true
  number := fun _ _ => some 1
  workloadSpec := fun _ => .ok ⟨"amd64", [1]⟩

theorem unit_nonneg : (ResourceReservation.mk 1 1 1).Nonneg := by
  unfold ResourceReservation.Nonneg
  decide

/-- An enabled worker with room for one workload. -/
def smallNode : WorkerNode where
  administrativeState := .enabled
  platformOs := some .linux
  platformArchitecture := some "amd64"
  runtimeKind := some "docker"
  labels := "\x7b\x7d"
  capabilities := "\x7b\x7d"
  capacity := ⟨⟨1, 1, 1⟩, unit_nonneg⟩
  certificateExpiresAt := some 1000
  sessionId := some 7
  sessionEpoch := 1
  leaseExpiresAt := some 1000

/-- A workload which takes all the room. -/
def unitRequest (id : Uuid) (ownerKey : String) : PlaceWorkload where
  id
  ownerKind := "container"
  ownerKey
  assignmentId := id
  definition := ⟨"\x7b\x7d", [], .linux, "amd64", "docker", ⟨1, 1, 1⟩⟩
  exactWorkerId := none
  requiredLabels := "\x7b\x7d"

/-- Both placements read the sums before the first one commits. -/
def racingPlacements : List (ℕ × Action) :=
  [(1, .findWorkloadByOwner (unitRequest 10 "a")), (2, .findWorkloadByOwner (unitRequest 11 "b")),
    (1, .startSelect), (2, .startSelect),
    (1, .select 5 (some 1)), (1, .insert 5), (1, .commit),
    (2, .select 6 (some 1)), (2, .insert 6), (2, .commit)]

def report (state : WorkloadObservedState) : RowChange :=
  .status ⟨1, 7, 1⟩ [⟨⟨1, 7, 1⟩, 10, 10, 2, [], state, none⟩]

/-- A workload which is reported absent makes room for another, and is then reported again. -/
def lateReport : List (ℕ × Action) :=
  [(1, .findWorkloadByOwner (unitRequest 10 "a")), (1, .startSelect), (1, .select 5 (some 1)),
    (1, .insert 5), (1, .commit),
    (1, .locate (.desiredAbsent 10 10 1 1)), (1, .lockWorker 6), (1, .startChange), (1, .change),
    (1, .commit),
    (1, .locate (report .absent)), (1, .lockWorker 7), (1, .startChange), (1, .change),
    (1, .commit),
    (1, .findWorkloadByOwner (unitRequest 11 "b")), (1, .startSelect), (1, .select 8 (some 1)),
    (1, .insert 8), (1, .commit),
    (1, .locate (report .reconciling)), (1, .lockWorker 9), (1, .startChange), (1, .change),
    (1, .commit)]

/-- The run of a step function from the empty store with one small worker. -/
def runSmall (step : Database → ℕ × Action → Option Database) (events : List (ℕ × Action)) :
    Option Database :=
  events.foldlM step (Database.empty [1] fun _ => smallNode)

def plainStep (db : Database) (event : ℕ × Action) : Option Database :=
  db.step plainDocuments event.1 event.2

/-- A step which is refused when it would do harm. -/
def unharmedStep (db : Database) (event : ℕ × Action) : Option Database :=
  if db.Unharmed event.1 event.2 then plainStep db event else none

theorem exists_of_runSmall {step : Database → ℕ × Action → Option Database}
    {events : List (ℕ × Action)} {reservation : ResourceReservation}
    (h : (runSmall step events).map (fun db => reserved db.workloads 1) = some reservation) :
    ∃ db, StepPath (fun db event next => step db event = some next)
      (Database.empty [1] fun _ => smallNode) events db ∧
        reserved db.workloads 1 = reservation := by
  obtain ⟨db, hrun, hreserved⟩ := Option.map_eq_some_iff.mp h
  exact ⟨db, StepPath.of_foldlM hrun, hreserved⟩

/-- Without the conditions a worker is oversubscribed, by either defect alone. -/
theorem capacity_oversubscribed :
    (∃ db, StepPath (Database.Step plainDocuments) (Database.empty [1] fun _ => smallNode)
        racingPlacements db ∧ ¬(reserved db.workloads 1).Within smallNode.capacity.1) ∧
      ∃ db, StepPath (Database.Step plainDocuments) (Database.empty [1] fun _ => smallNode)
        lateReport db ∧ ¬(reserved db.workloads 1).Within smallNode.capacity.1 := by
  have hrace : (runSmall plainStep racingPlacements).map (fun db => reserved db.workloads 1) =
      some ⟨2, 2, 2⟩ := by decide +kernel
  have hreport : (runSmall plainStep lateReport).map (fun db => reserved db.workloads 1) =
      some ⟨2, 2, 2⟩ := by decide +kernel
  obtain ⟨first, hfirst, hfirstSum⟩ := exists_of_runSmall hrace
  obtain ⟨second, hsecond, hsecondSum⟩ := exists_of_runSmall hreport
  exact ⟨⟨first, hfirst, by rw [hfirstSum]; decide⟩, ⟨second, hsecond, by rw [hsecondSum]; decide⟩⟩

/-- A placement, and the release of its workload, without harm. -/
theorem capacity_respected_release :
    ∃ db, StepPath (Database.UnharmedStep plainDocuments) (Database.empty [1] fun _ => smallNode)
      (lateReport.take 20) db ∧ reserved db.workloads 1 = ⟨1, 1, 1⟩ ∧
        (reserved db.workloads 1).Within smallNode.capacity.1 := by
  have hrun : (runSmall unharmedStep (lateReport.take 20)).map
      (fun db => reserved db.workloads 1) = some ⟨1, 1, 1⟩ := by decide +kernel
  obtain ⟨db, hpath, hreserved⟩ := exists_of_runSmall hrun
  have hpath : StepPath (Database.UnharmedStep plainDocuments)
      (Database.empty [1] fun _ => smallNode) (lateReport.take 20) db := by
    apply hpath.mono
    intro before event after hstep
    unfold unharmedStep at hstep
    split at hstep
    · next hquiet => exact ⟨hstep, hquiet⟩
    · contradiction
  exact ⟨db, hpath, hreserved, Database.capacity_respected hpath 1⟩

end Oversubscription

end Worker

end Rsctf
