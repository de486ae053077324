import Mathlib.Logic.Function.Basic
import Mathlib.Order.Lattice

/-!
# Rows under read committed

A table keeps the committed version of every row.  A transaction locks the rows it reads
for a decision together with others, and a row it writes alone; the new version stays with
the lock until the transaction commits.  A statement which had to wait for a lock tests
the row again if it is not the version which the statement had found.
-/

/-- The lock of a row: held together, or alone with a version still to be committed. -/
inductive RowLock (ρ : Type*)
  | shared (holders : List ℕ)
  | exclusive (holder : ℕ) (draft : ρ)

namespace RowLock

variable {ρ : Type*}

def free : RowLock ρ := .shared []

/-- Nobody else holds the lock. -/
def available (lock : RowLock ρ) (t : ℕ) : Bool :=
  match lock with
  | .shared holders => holders.all (· = t)
  | .exclusive u _ => u = t

/-- Nobody else holds the lock alone. -/
def sharable (lock : RowLock ρ) (t : ℕ) : Bool :=
  match lock with
  | .shared _ => true
  | .exclusive u _ => u = t

def share (lock : RowLock ρ) (t : ℕ) : RowLock ρ :=
  match lock with
  | .shared holders => .shared (t :: holders)
  | .exclusive u draft => .exclusive u draft

def release (lock : RowLock ρ) (t : ℕ) : RowLock ρ :=
  match lock with
  | .shared holders => .shared (holders.filter (· ≠ t))
  | .exclusive u draft => if u = t then free else .exclusive u draft

/-- A transaction holds a lock together with others. -/
def SharedBy (lock : RowLock ρ) (t : ℕ) : Prop :=
  ∃ holders, lock = .shared holders ∧ t ∈ holders

variable {lock : RowLock ρ} {t u : ℕ} {draft : ρ}

theorem not_available_of_shared (h : lock.SharedBy u) (hne : u ≠ t) :
    lock.available t = false := by
  obtain ⟨holders, rfl, hmem⟩ := h
  refine Bool.eq_false_of_not_eq_true fun hall => hne ?_
  simpa using List.all_eq_true.mp hall u hmem

theorem holder_of_available (h : (exclusive u draft).available t = true) : u = t := by
  simpa [available] using h

theorem SharedBy.share (h : lock.SharedBy u) (t : ℕ) : (lock.share t).SharedBy u := by
  obtain ⟨holders, rfl, hmem⟩ := h
  exact ⟨t :: holders, rfl, List.mem_cons_of_mem t hmem⟩

theorem SharedBy.release (h : lock.SharedBy u) (hne : u ≠ t) : (lock.release t).SharedBy u := by
  obtain ⟨holders, rfl, hmem⟩ := h
  exact ⟨_, rfl, List.mem_filter.mpr ⟨hmem, by simpa using hne⟩⟩

theorem release_exclusive_of_ne (hne : u ≠ t) :
    (exclusive u draft).release t = exclusive u draft := if_neg hne

theorem release_eq_exclusive (h : lock.release t = exclusive u draft) :
    lock = exclusive u draft ∧ u ≠ t := by
  cases lock with
  | shared holders => cases h
  | exclusive v row =>
      rw [release] at h
      split at h
      · cases h
      · next hne =>
          cases h
          exact ⟨rfl, hne⟩

theorem share_eq_exclusive (h : lock.share t = exclusive u draft) : lock = exclusive u draft := by
  cases lock with
  | shared holders => cases h
  | exclusive v row => exact h

end RowLock

/-- A table; `keys` lists the rows that were ever inserted. -/
structure RowTable (κ ρ : Type*) where
  keys : List κ
  committed : κ → Option ρ
  lock : κ → RowLock ρ

namespace RowTable

variable {κ ρ : Type*}

def empty : RowTable κ ρ := ⟨[], fun _ => none, fun _ => .free⟩

section Operations

variable (table : RowTable κ ρ) (t : ℕ)

/-- The version of a row which a transaction sees: its own one, or the committed one. -/
def read (k : κ) : Option ρ :=
  match table.lock k with
  | .exclusive u draft => if u = t then some draft else table.committed k
  | .shared _ => table.committed k

/-- Write new versions of all the rows for which there is one. -/
def update (f : κ → ρ → Option ρ) : RowTable κ ρ where
  keys := table.keys
  committed := table.committed
  lock k := match (table.read t k).bind (f k) with
    | some new => .exclusive t new
    | none => table.lock k

def write [DecidableEq κ] (k : κ) (row : ρ) : RowTable κ ρ :=
  { table with lock := Function.update table.lock k (.exclusive t row) }

def insert [DecidableEq κ] (k : κ) (row : ρ) : RowTable κ ρ :=
  { table.write t k row with keys := table.keys ++ [k] }

def share [DecidableEq κ] (k : κ) : RowTable κ ρ :=
  { table with lock := Function.update table.lock k ((table.lock k).share t) }

def commit : RowTable κ ρ where
  keys := table.keys
  committed k := match table.lock k with
    | .exclusive u draft => if u = t then some draft else table.committed k
    | .shared _ => table.committed k
  lock k := (table.lock k).release t

def rollback : RowTable κ ρ where
  keys := table.keys
  committed := table.committed
  lock k := (table.lock k).release t

/-- Nobody else holds a row for which there is a new version. -/
def writable (f : κ → ρ → Option ρ) : Bool :=
  table.keys.all fun k => ((table.read t k).bind (f k)).isNone || (table.lock k).available t

/-- The rows which a transaction sees. -/
def rows : List (κ × ρ) :=
  table.keys.filterMap fun k => (table.read t k).map fun row => (k, row)

end Operations

section Lemmas

variable {table : RowTable κ ρ} {t : ℕ} {k k' : κ} {row : ρ}

@[simp] theorem committed_update (f : κ → ρ → Option ρ) :
    (table.update t f).committed = table.committed := rfl

@[simp] theorem committed_rollback : (table.rollback t).committed = table.committed := rfl

variable [DecidableEq κ]

@[simp] theorem committed_write : (table.write t k row).committed = table.committed := rfl

@[simp] theorem committed_share : (table.share t k).committed = table.committed := rfl

@[simp] theorem lock_write_self : (table.write t k row).lock k = .exclusive t row :=
  Function.update_self ..

theorem lock_write_of_ne (h : k' ≠ k) : (table.write t k row).lock k' = table.lock k' :=
  Function.update_of_ne h ..

@[simp] theorem lock_share_self : (table.share t k).lock k = (table.lock k).share t :=
  Function.update_self ..

theorem lock_share_of_ne (h : k' ≠ k) : (table.share t k).lock k' = table.lock k' :=
  Function.update_of_ne h ..

end Lemmas

/-- The moment at which a statement that found a row at `readAt` decides about it, now that
it has its lock: a version which it had not found is tested again.  A row may have been
rewritten without a change in the columns of the model. -/
def recheck [DecidableEq ρ] (test : ρ → ℤ → Bool) (readAt now : ℤ) (rewritten : Bool)
    (found current : ρ) : Option ℤ :=
  if current = found ∧ rewritten = false then some readAt
  else if test current now then some now
  else none

theorem recheck_spec [DecidableEq ρ] {test : ρ → ℤ → Bool} {readAt now at' : ℤ} {rewritten : Bool}
    {found current : ρ} (hfound : test found readAt = true) (hle : readAt ≤ now)
    (h : recheck test readAt now rewritten found current = some at') :
    test current at' = true ∧ at' ≤ now := by
  unfold recheck at h
  split at h
  · next heq =>
      obtain rfl := Option.some.inj h
      rw [heq.1]
      exact ⟨hfound, hle⟩
  · split at h
    · next htest =>
        obtain rfl := Option.some.inj h
        exact ⟨htest, le_rfl⟩
    · cases h

/-- Every version is sound, and every one still to be committed may follow the committed
one. -/
structure Tracks (P : κ → ρ → Prop) (R : ρ → ρ → Prop) (table : RowTable κ ρ) : Prop where
  committed : ∀ k row, table.committed k = some row → P k row
  draft : ∀ k u draft, table.lock k = .exclusive u draft →
    P k draft ∧ ∀ row, table.committed k = some row → R row draft

section Tracks

variable {table : RowTable κ ρ} {P : κ → ρ → Prop} {R : ρ → ρ → Prop} {t u : ℕ} {k : κ}
  {row new : ρ}

theorem Tracks.mono {R' : ρ → ρ → Prop} (h : table.Tracks P R)
    (hR : ∀ row draft, R row draft → R' row draft) : table.Tracks P R' where
  committed := h.committed
  draft := fun k u draft hlock =>
    have hdraft := h.draft k u draft hlock
    ⟨hdraft.1, fun row hrow => hR row draft (hdraft.2 row hrow)⟩

theorem tracks_empty : Tracks P R (RowTable.empty (κ := κ)) where
  committed := fun _ _ hrow => by cases hrow
  draft := fun _ _ _ hlock => by cases hlock

theorem committed_eq_none_of_read (h : table.read t k = none)
    (hfree : (table.lock k).available t = true) : table.committed k = none := by
  unfold RowTable.read at h
  split at h
  · next v draft hlock =>
      rw [hlock] at hfree
      simp [RowLock.holder_of_available hfree] at h
  · exact h

theorem Tracks.read (h : table.Tracks P R) (hrefl : ∀ row, R row row)
    (hread : table.read t k = some row) :
    P k row ∧ ∀ old, table.committed k = some old → R old row := by
  unfold RowTable.read at hread
  split at hread
  · next v draft hlock =>
      split at hread
      · obtain rfl := Option.some.inj hread
        exact h.draft k v draft hlock
      · refine ⟨h.committed k row hread, fun old hold => ?_⟩
        obtain rfl := Option.some.inj (hold.symm.trans hread)
        exact hrefl old
  · refine ⟨h.committed k row hread, fun old hold => ?_⟩
    obtain rfl := Option.some.inj (hold.symm.trans hread)
    exact hrefl old

theorem Tracks.update (h : table.Tracks P R) (hrefl : ∀ row, R row row)
    (htrans : ∀ a b c, R a b → R b c → R a c) {f : κ → ρ → Option ρ}
    (hf : ∀ k row new, P k row → f k row = some new → P k new ∧ R row new) (t : ℕ) :
    (table.update t f).Tracks P R where
  committed := h.committed
  draft := by
    intro k u draft hlock
    rw [RowTable.update] at hlock
    dsimp only at hlock
    split at hlock
    · next hnew =>
        cases hlock
        obtain ⟨row, hread, hrow⟩ := Option.bind_eq_some_iff.mp hnew
        obtain ⟨hsound, hfollows⟩ := h.read hrefl hread
        obtain ⟨hsound', hstep⟩ := hf k row draft hsound hrow
        exact ⟨hsound', fun old hold => htrans _ _ _ (hfollows old hold) hstep⟩
    · exact h.draft k u draft hlock

section

variable [DecidableEq κ]

theorem Tracks.write (h : table.Tracks P R) (hP : P k new)
    (hR : ∀ old, table.committed k = some old → R old new) :
    (table.write t k new).Tracks P R where
  committed := h.committed
  draft := by
    intro k' u draft hlock
    by_cases heq : k' = k
    · subst heq
      rw [lock_write_self] at hlock
      cases hlock
      exact ⟨hP, hR⟩
    · rw [lock_write_of_ne heq] at hlock
      exact h.draft k' u draft hlock

theorem Tracks.insert (h : table.Tracks P R) (hfresh : table.committed k = none) (hP : P k new) :
    (table.insert t k new).Tracks P R :=
  have hwrite : (table.write t k new).Tracks P R := h.write hP fun old hold => by
    rw [hfresh] at hold
    cases hold
  ⟨hwrite.committed, hwrite.draft⟩

theorem Tracks.share (h : table.Tracks P R) (t : ℕ) (k : κ) : (table.share t k).Tracks P R where
  committed := h.committed
  draft := by
    intro k' u draft hlock
    by_cases heq : k' = k
    · subst heq
      rw [lock_share_self] at hlock
      exact h.draft k' u draft (RowLock.share_eq_exclusive hlock)
    · rw [lock_share_of_ne heq] at hlock
      exact h.draft k' u draft hlock

end

theorem Tracks.rollback (h : table.Tracks P R) (t : ℕ) : (table.rollback t).Tracks P R where
  committed := h.committed
  draft := fun k u draft hlock => h.draft k u draft (RowLock.release_eq_exclusive hlock).1

/-- A commit only replaces the versions of the rows which the transaction wrote. -/
theorem committed_commit (k : κ) : (table.commit t).committed k = table.committed k ∨
    ∃ draft, table.lock k = .exclusive t draft ∧ (table.commit t).committed k = some draft := by
  rw [RowTable.commit]
  cases hlock : table.lock k with
  | shared holders => exact .inl (by simp [hlock])
  | exclusive u draft =>
      by_cases heq : u = t
      · exact .inr ⟨draft, by rw [heq], by simp [hlock, heq]⟩
      · exact .inl (by simp [hlock, heq])

theorem committed_commit_of_shared (h : (table.lock k).SharedBy u) :
    (table.commit t).committed k = table.committed k := by
  obtain ⟨holders, hlock, -⟩ := h
  rw [RowTable.commit]
  simp [hlock]

theorem committed_commit_of_exclusive (h : table.lock k = .exclusive u new) (hne : u ≠ t) :
    (table.commit t).committed k = table.committed k := by
  rw [RowTable.commit]
  simp [h, hne]

theorem committed_commit_self (h : table.lock k = .exclusive t new) :
    (table.commit t).committed k = some new := by
  rw [RowTable.commit]
  simp [h]

theorem Tracks.commit (h : table.Tracks P R) (t : ℕ) : (table.commit t).Tracks P R where
  committed := by
    intro k row hrow
    rcases committed_commit k with hsame | ⟨draft, hlock, hdraft⟩
    · exact h.committed k row (hsame ▸ hrow)
    · obtain rfl := Option.some.inj (hrow.symm.trans hdraft)
      exact (h.draft k t row hlock).1
  draft := by
    intro k u draft hlock
    obtain ⟨hlock', hne⟩ := RowLock.release_eq_exclusive hlock
    obtain ⟨hsound, hfollows⟩ := h.draft k u draft hlock'
    exact ⟨hsound, fun row hrow => hfollows row
      ((committed_commit_of_exclusive hlock' hne).symm.trans hrow)⟩

/-- What a commit does to a row may follow the version before. -/
theorem Tracks.follows (h : table.Tracks P R) (hrefl : ∀ row, R row row)
    (hrow : table.committed k = some row) :
    ∃ row', (table.commit t).committed k = some row' ∧ R row row' := by
  rcases committed_commit k with hsame | ⟨draft, hlock, hdraft⟩
  · exact ⟨row, hsame.trans hrow, hrefl row⟩
  · exact ⟨draft, hdraft, (h.draft k t draft hlock).2 row hrow⟩

end Tracks

/-- What one step of an open transaction does to a table: it leaves it alone, locks a row,
writes a row, or inserts one. -/
inductive Touch [DecidableEq κ] (P : κ → ρ → Prop) (R : ρ → ρ → Prop) (t : ℕ) :
    RowTable κ ρ → RowTable κ ρ → Prop
  | keep (table : RowTable κ ρ) : Touch P R t table table
  | share (table : RowTable κ ρ) (k : κ) (hfree : (table.lock k).sharable t = true) :
      Touch P R t table (table.share t k)
  | write (table : RowTable κ ρ) (k : κ) (new : ρ) (hfree : (table.lock k).available t = true)
      (hsound : P k new) (hnext : ∀ old, table.committed k = some old → R old new) :
      Touch P R t table (table.write t k new)
  | insert (table : RowTable κ ρ) (k : κ) (new : ρ) (hfree : (table.lock k).available t = true)
      (hread : table.read t k = none) (hsound : P k new) : Touch P R t table (table.insert t k new)

section Touch

variable [DecidableEq κ] {P : κ → ρ → Prop} {R : ρ → ρ → Prop} {t u : ℕ}
  {table table' : RowTable κ ρ} {k : κ} {draft : ρ}

theorem Touch.committed (h : Touch P R t table table') : table'.committed = table.committed := by
  cases h with
  | keep => rfl
  | share k hfree => rfl
  | write k new hfree hsound hnext => rfl
  | insert k new hfree hread hsound => rfl

/-- The others keep their shared locks. -/
theorem Touch.sharedBy (h : Touch P R t table table') (hne : u ≠ t)
    (hlock : (table.lock k).SharedBy u) : (table'.lock k).SharedBy u := by
  have hbusy : (table.lock k).available t ≠ true := by
    rw [RowLock.not_available_of_shared hlock hne]
    exact Bool.false_ne_true
  have hwrite : ∀ k' new, (table.lock k').available t = true →
      ((table.write t k' new).lock k).SharedBy u := by
    intro k' new hfree
    have heq : k ≠ k' := fun heq => hbusy (heq ▸ hfree)
    rwa [lock_write_of_ne heq]
  cases h with
  | keep => exact hlock
  | share k' hfree =>
      by_cases heq : k = k'
      · subst heq
        rw [lock_share_self]
        exact hlock.share t
      · rwa [lock_share_of_ne heq]
  | write k' new hfree hsound hnext => exact hwrite k' new hfree
  | insert k' new hfree hread hsound => exact hwrite k' new hfree

/-- The others keep the versions which they have written. -/
theorem Touch.exclusive (h : Touch P R t table table') (hne : u ≠ t)
    (hlock : table.lock k = .exclusive u draft) : table'.lock k = .exclusive u draft := by
  have hbusy : (table.lock k).available t ≠ true := fun hfree =>
    hne (RowLock.holder_of_available (hlock ▸ hfree))
  have hwrite : ∀ k' new, (table.lock k').available t = true →
      (table.write t k' new).lock k = .exclusive u draft := by
    intro k' new hfree
    have heq : k ≠ k' := fun heq => hbusy (heq ▸ hfree)
    rwa [lock_write_of_ne heq]
  cases h with
  | keep => exact hlock
  | share k' hfree =>
      by_cases heq : k = k'
      · subst heq
        rw [hlock] at hfree
        exact absurd (of_decide_eq_true hfree) hne
      · rwa [lock_share_of_ne heq]
  | write k' new hfree hsound hnext => exact hwrite k' new hfree
  | insert k' new hfree hread hsound => exact hwrite k' new hfree

theorem Tracks.touch (h : table.Tracks P R) (htouch : Touch P R t table table') :
    table'.Tracks P R := by
  cases htouch with
  | keep => exact h
  | share k hfree => exact h.share t k
  | write k new hfree hsound hnext => exact h.write hsound hnext
  | insert k new hfree hread hsound => exact h.insert (committed_eq_none_of_read hread hfree) hsound

end Touch

/-- A transaction has written nothing. -/
def Unwritten (table : RowTable κ ρ) (t : ℕ) : Prop := ∀ k draft, table.lock k ≠ .exclusive t draft

section Unwritten

variable {table table' : RowTable κ ρ} {P : κ → ρ → Prop} {R : ρ → ρ → Prop} {t u : ℕ}

theorem Unwritten.read (h : table.Unwritten t) (k : κ) : table.read t k = table.committed k := by
  unfold RowTable.read
  split
  · next u draft hlock =>
      exact if_neg fun heq : u = t => h k draft (heq ▸ hlock)
  · rfl

theorem unwritten_commit : (table.commit t).Unwritten t := fun _ _ hlock =>
  (RowLock.release_eq_exclusive hlock).2 rfl

theorem unwritten_rollback : (table.rollback t).Unwritten t := fun _ _ hlock =>
  (RowLock.release_eq_exclusive hlock).2 rfl

theorem Unwritten.commit (h : table.Unwritten u) (t : ℕ) : (table.commit t).Unwritten u :=
  fun k draft hlock => h k draft (RowLock.release_eq_exclusive hlock).1

theorem Unwritten.rollback (h : table.Unwritten u) (t : ℕ) : (table.rollback t).Unwritten u :=
  fun k draft hlock => h k draft (RowLock.release_eq_exclusive hlock).1

theorem Unwritten.touch [DecidableEq κ] (h : table.Unwritten u) (hne : u ≠ t)
    (htouch : Touch P R t table table') : table'.Unwritten u := by
  have hwrite : ∀ k' new k draft, (table.write t k' new).lock k ≠ .exclusive u draft := by
    intro k' new k draft hlock
    by_cases heq : k = k'
    · subst heq
      rw [lock_write_self] at hlock
      cases hlock
      exact hne rfl
    · exact h k draft (lock_write_of_ne heq ▸ hlock)
  cases htouch with
  | keep => exact h
  | share k' hfree =>
      intro k draft hlock
      by_cases heq : k = k'
      · subst heq
        rw [lock_share_self] at hlock
        exact h k draft (RowLock.share_eq_exclusive hlock)
      · exact h k draft (lock_share_of_ne heq ▸ hlock)
  | write k' new hfree hsound hnext => exact hwrite k' new
  | insert k' new hfree hread hsound => exact hwrite k' new

end Unwritten

/-- What a transaction relies on is left alone by a step of another one. -/
structure Frames (u : ℕ) (table table' : RowTable κ ρ) : Prop where
  unwritten : table.Unwritten u → table'.Unwritten u
  shared : ∀ k, (table.lock k).SharedBy u →
    (table'.lock k).SharedBy u ∧ table'.committed k = table.committed k
  exclusive : ∀ k draft, table.lock k = .exclusive u draft →
    table'.lock k = .exclusive u draft ∧ table'.committed k = table.committed k

section Frames

variable {table table' : RowTable κ ρ} {P : κ → ρ → Prop} {R : ρ → ρ → Prop} {t u : ℕ}

theorem Frames.refl (u : ℕ) (table : RowTable κ ρ) : Frames u table table :=
  ⟨id, fun _ h => ⟨h, rfl⟩, fun _ _ h => ⟨h, rfl⟩⟩

theorem Touch.frames [DecidableEq κ] (h : Touch P R t table table') (hne : u ≠ t) :
    Frames u table table' where
  unwritten := fun hnone => hnone.touch hne h
  shared := fun k hlock => ⟨h.sharedBy hne hlock, by rw [h.committed]⟩
  exclusive := fun k draft hlock => ⟨h.exclusive hne hlock, by rw [h.committed]⟩

theorem frames_commit (hne : u ≠ t) : Frames u table (table.commit t) where
  unwritten := fun hnone => hnone.commit t
  shared := fun _ hlock => ⟨hlock.release hne, committed_commit_of_shared hlock⟩
  exclusive := fun k draft hlock => by
    refine ⟨?_, committed_commit_of_exclusive hlock hne⟩
    change (table.lock k).release t = .exclusive u draft
    rw [hlock, RowLock.release_exclusive_of_ne hne]

theorem frames_rollback (hne : u ≠ t) : Frames u table (table.rollback t) where
  unwritten := fun hnone => hnone.rollback t
  shared := fun _ hlock => ⟨hlock.release hne, rfl⟩
  exclusive := fun k draft hlock => by
    refine ⟨?_, rfl⟩
    change (table.lock k).release t = .exclusive u draft
    rw [hlock, RowLock.release_exclusive_of_ne hne]

end Frames

theorem mem_rows {table : RowTable κ ρ} {t : ℕ} {r : κ × ρ} (h : r ∈ table.rows t) :
    table.read t r.1 = some r.2 := by
  obtain ⟨k, -, hrow⟩ := List.mem_filterMap.mp h
  obtain ⟨row, hread, rfl⟩ := Option.map_eq_some_iff.mp hrow
  exact hread

end RowTable
