import Mathlib.Algebra.BigOperators.Group.List.Basic
import Mathlib.Data.List.Nodup

/-!
# Tables with a primary key

A table is a list of rows without two rows of one key.  Rows are deleted, changed under
their keys, and inserted under a key which is not taken.  A row is found by its key.
-/

structure Table {ρ κ : Type*} (key : ρ → κ) where
  rows : List ρ
  key_nodup : (rows.map key).Nodup

namespace Table

variable {ρ κ : Type*} {key : ρ → κ} {table : Table key} {row row' : ρ}

def empty : Table key := ⟨[], List.nodup_nil⟩

instance : Membership ρ (Table key) := ⟨fun table row => row ∈ table.rows⟩

theorem mem_def : row ∈ table ↔ row ∈ table.rows := Iff.rfl

theorem eq_of_key_eq (h : row ∈ table) (h' : row' ∈ table) (hkey : key row = key row') : row = row' :=
  List.inj_on_of_nodup_map table.key_nodup h h' hkey

/-- Keep the rows with a property. -/
def keep (table : Table key) (p : ρ → Bool) : Table key where
  rows := table.rows.filter p
  key_nodup := table.key_nodup.sublist (List.Sublist.map key List.filter_sublist)

@[simp] theorem mem_keep {p : ρ → Bool} : row ∈ table.keep p ↔ row ∈ table ∧ p row = true :=
  List.mem_filter

/-- Change rows under their keys. -/
def change (table : Table key) (f : ρ → ρ) (hf : ∀ row, key (f row) = key row) : Table key where
  rows := table.rows.map f
  key_nodup := by
    rw [List.map_map]
    exact (List.map_congr_left fun row _ => hf row).symm ▸ table.key_nodup

@[simp] theorem mem_change {f : ρ → ρ} (hf : ∀ row, key (f row) = key row) :
    row ∈ table.change f hf ↔ ∃ old ∈ table, f old = row :=
  List.mem_map

/-- Insert a row, unless its key is taken. -/
def insert [DecidableEq κ] (table : Table key) (row : ρ) : Option (Table key) :=
  if h : key row ∈ table.rows.map key then none
  else some ⟨row :: table.rows, List.nodup_cons.mpr ⟨h, table.key_nodup⟩⟩

theorem mem_of_insert [DecidableEq κ] {new : Table key} (row : ρ)
    (h : table.insert row' = some new) :
    row ∈ new ↔ row = row' ∨ row ∈ table := by
  unfold insert at h
  split at h
  · cases h
  · obtain rfl := Option.some.inj h
    exact List.mem_cons

section Statements

variable {p : ρ → Bool} {f : ρ → ρ} {hf : ∀ row, key (f row) = key row}

/-- Change the rows with a property. -/
def update (table : Table key) (p : ρ → Bool) (f : ρ → ρ) (hf : ∀ row, key (f row) = key row) :
    Table key :=
  table.change (fun row => if p row then f row else row) fun row => by
    split
    · exact hf row
    · rfl

theorem mem_update : row ∈ table.update p f hf ↔
    (∃ old ∈ table, p old = true ∧ f old = row) ∨ (row ∈ table ∧ p row = false) := by
  rw [update, mem_change]
  constructor
  · rintro ⟨old, hold, heq⟩
    cases hp : p old with
    | true =>
      rw [if_pos hp] at heq
      exact .inl ⟨old, hold, hp, heq⟩
    | false =>
      rw [if_neg (ne_true_of_eq_false hp)] at heq
      subst heq
      exact .inr ⟨hold, hp⟩
  · rintro (⟨old, hold, hp, heq⟩ | ⟨hrow, hp⟩)
    · exact ⟨old, hold, (if_pos hp).trans heq⟩
    · exact ⟨row, hrow, if_neg (ne_true_of_eq_false hp)⟩

variable [DecidableEq κ]

def get? (table : Table key) (k : κ) : Option ρ := table.rows.find? fun row => decide (key row = k)

theorem get?_eq_some {k : κ} : table.get? k = some row ↔ row ∈ table ∧ key row = k := by
  constructor
  · intro h
    exact ⟨List.mem_of_find?_eq_some h, by simpa using List.find?_some h⟩
  · rintro ⟨hrow, rfl⟩
    cases hfind : table.get? (key row) with
    | none => simpa using List.find?_eq_none.mp hfind row hrow
    | some other =>
      have hkey : key other = key row := by simpa using List.find?_some hfind
      rw [eq_of_key_eq (List.mem_of_find?_eq_some hfind) hrow hkey]

theorem get?_eq_none {k : κ} : table.get? k = none ↔ ∀ row ∈ table, key row ≠ k := by
  rw [get?, List.find?_eq_none]
  exact forall₂_congr fun row _ => by rw [decide_eq_true_eq]

/-- Insert a row, or change the row which has its key. -/
def upsert (table : Table key) (row : ρ) (f : ρ → ρ) (hf : ∀ row, key (f row) = key row) :
    Table key :=
  if h : key row ∈ table.rows.map key then table.update (fun old => decide (key old = key row)) f hf
  else ⟨row :: table.rows, List.nodup_cons.mpr ⟨h, table.key_nodup⟩⟩

theorem mem_upsert {new : ρ} : new ∈ table.upsert row f hf ↔
    (∃ old ∈ table, key old = key row ∧ f old = new) ∨ (new ∈ table ∧ key new ≠ key row) ∨
      (new = row ∧ ∀ old ∈ table, key old ≠ key row) := by
  unfold upsert
  split
  next h =>
    obtain ⟨taken, htaken, hkey⟩ := List.mem_map.mp h
    simp only [mem_update, decide_eq_true_eq, decide_eq_false_iff_not]
    constructor
    · rintro (hold | hnew)
      · exact .inl hold
      · exact .inr (.inl hnew)
    · rintro (hold | hnew | ⟨-, hfree⟩)
      · exact .inl hold
      · exact .inr hnew
      · exact absurd hkey (hfree taken htaken)
  next h =>
    have hfree : ∀ old ∈ table, key old ≠ key row := fun old hold hkey =>
      h (hkey ▸ List.mem_map_of_mem hold)
    constructor
    · intro hnew
      rcases List.mem_cons.mp hnew with rfl | hnew
      · exact .inr (.inr ⟨rfl, hfree⟩)
      · exact .inr (.inl ⟨hnew, hfree new hnew⟩)
    · rintro (⟨old, hold, hkey, -⟩ | ⟨hnew, -⟩ | ⟨rfl, -⟩)
      · exact absurd hkey (hfree old hold)
      · exact List.mem_cons_of_mem row hnew
      · exact List.mem_cons_self

end Statements

section Puts

variable {k : κ} {new : Option ρ} {table' : Table key} {p : ρ → Bool} {f : ρ → ρ}

/-- A table with other rows, or none, under one key. -/
def Puts (table : Table key) (k : κ) (new : Option ρ) (table' : Table key) : Prop :=
  ∀ row, row ∈ table' ↔ (row ∈ table ∧ key row ≠ k) ∨ new = some row

theorem Puts.mem {row : ρ} (h : table.Puts k (some row) table') : row ∈ table' :=
  (h row).mpr (.inr rfl)

theorem puts_update {old : ρ} {hf : ∀ row, key (f row) = key row} (hold : old ∈ table)
    (hp : p old = true) (hk : ∀ row ∈ table, p row = true → key row = k) :
    table.Puts k (some (f old)) (table.update p f hf) := by
  intro row
  have hkey : key old = k := hk old hold hp
  rw [mem_update]
  constructor
  · rintro (⟨other, hother, hpother, rfl⟩ | ⟨hrow, hprow⟩)
    · obtain rfl := eq_of_key_eq hother hold ((hk other hother hpother).trans hkey.symm)
      exact .inr rfl
    · refine .inl ⟨hrow, fun hrowk => ?_⟩
      rw [eq_of_key_eq hrow hold (hrowk.trans hkey.symm), hp] at hprow
      exact Bool.noConfusion hprow
  · rintro (⟨hrow, hne⟩ | heq)
    · exact .inr ⟨hrow, Bool.eq_false_iff.mpr fun hprow => hne (hk row hrow hprow)⟩
    · exact .inl ⟨old, hold, hp, Option.some.inj heq⟩

theorem update_eq_self {hf : ∀ row, key (f row) = key row} (h : ∀ row ∈ table, p row = false) :
    table.update p f hf = table := by
  have hrows : (table.update p f hf).rows = table.rows := by
    refine (List.map_congr_left fun row hrow => ?_).trans (List.map_id _)
    exact if_neg (ne_true_of_eq_false (h row hrow))
  cases hupdate : table.update p f hf
  rw [hupdate] at hrows
  subst hrows
  rfl

theorem puts_keep (hk : ∀ row ∈ table, p row = false ↔ key row = k) :
    table.Puts k none (table.keep p) := by
  intro row
  rw [mem_keep]
  constructor
  · rintro ⟨hrow, hp⟩
    exact .inl ⟨hrow, fun hkey => ne_true_of_eq_false ((hk row hrow).mpr hkey) hp⟩
  · rintro (⟨hrow, hne⟩ | heq)
    · exact ⟨hrow, eq_true_of_ne_false fun hp => hne ((hk row hrow).mp hp)⟩
    · cases heq

theorem keep_eq_self (h : ∀ row ∈ table, p row = true) : table.keep p = table := by
  have hrows : (table.keep p).rows = table.rows := List.filter_eq_self.mpr h
  cases hkeep : table.keep p
  rw [hkeep] at hrows
  subst hrows
  rfl

/-- The sum of the weights of the rows. -/
def weight {M : Type*} [AddCommMonoid M] (g : ρ → M) (table : Table key) : M :=
  (table.rows.map g).sum

theorem countP_rows (table : Table key) (p : ρ → Bool) :
    table.rows.countP p = table.weight fun row => if p row then 1 else 0 := by
  rw [weight]
  induction table.rows with
  | nil => rfl
  | cons row rows ih => rw [List.countP_cons, List.map_cons, List.sum_cons, ih, Nat.add_comm]

/-- Tables with the same rows, in any order, have one weight. -/
theorem weight_congr {M : Type*} [AddCommMonoid M] {g : ρ → M} {rows : List ρ}
    (hnd : (rows.map key).Nodup) (h : ∀ row, row ∈ table ↔ row ∈ rows) :
    table.weight g = (rows.map g).sum :=
  (((List.perm_ext_iff_of_nodup (List.Nodup.of_map key table.key_nodup)
    (List.Nodup.of_map key hnd)).mpr h).map g).sum_eq

variable [DecidableEq κ]

theorem puts_upsert {new : ρ} {hf : ∀ row, key (f row) = key row} (hk : key row = k)
    (hfree : (∀ old ∈ table, key old ≠ k) → row = new)
    (htaken : ∀ old ∈ table, key old = k → f old = new) :
    table.Puts k (some new) (table.upsert row f hf) := by
  subst hk
  intro other
  rw [mem_upsert]
  constructor
  · rintro (⟨old, hold, hkey, rfl⟩ | hother | ⟨rfl, hall⟩)
    · exact .inr (congrArg some (htaken old hold hkey).symm)
    · exact .inl hother
    · exact .inr (congrArg some (hfree hall).symm)
  · rintro (hother | heq)
    · exact .inr (.inl hother)
    · obtain rfl := Option.some.inj heq
      by_cases hall : ∀ old ∈ table, key old ≠ key row
      · exact .inr (.inr ⟨(hfree hall).symm, hall⟩)
      · obtain ⟨old, hold, hkey⟩ : ∃ old ∈ table, key old = key row := by
          simpa only [not_forall, not_not, exists_prop] using hall
        exact .inl ⟨old, hold, hkey, htaken old hold hkey⟩

/-- Put a row in the place of the one which has its key, if any. -/
def put (table : Table key) (row : ρ) : Table key where
  rows := row :: (table.keep fun old => decide (key old ≠ key row)).rows
  key_nodup := by
    refine List.nodup_cons.mpr ⟨fun hmem => ?_, (table.keep _).key_nodup⟩
    obtain ⟨old, hold, hkey⟩ := List.mem_map.mp hmem
    exact of_decide_eq_true (mem_keep.mp hold).2 hkey

theorem puts_put {row : ρ} (hk : key row = k) : table.Puts k (some row) (table.put row) := by
  subst hk
  intro other
  refine List.mem_cons.trans ?_
  rw [← mem_def, mem_keep, decide_eq_true_eq, or_comm, Option.some.injEq, eq_comm]

/-- Leave out the row under a key. -/
def remove (table : Table key) (k : κ) : Table key := table.keep fun row => decide (key row ≠ k)

theorem puts_remove : table.Puts k none (table.remove k) :=
  puts_keep fun row _ => by rw [decide_eq_false_iff_not, not_not]

theorem Puts.get?_self (h : table.Puts k new table') (hnew : ∀ row ∈ new, key row = k) :
    table'.get? k = new := by
  cases new with
  | none =>
    refine get?_eq_none.mpr fun row hrow hkey => ?_
    rcases (h row).mp hrow with ⟨-, hne⟩ | heq
    · exact hne hkey
    · cases heq
  | some row => exact get?_eq_some.mpr ⟨h.mem, hnew row rfl⟩

theorem Puts.get?_of_ne {k' : κ} (h : table.Puts k new table') (hnew : ∀ row ∈ new, key row = k)
    (hne : k' ≠ k) : table'.get? k' = table.get? k' := by
  cases hget : table.get? k' with
  | none =>
    refine get?_eq_none.mpr fun row hrow hkey => ?_
    rcases (h row).mp hrow with ⟨hold, -⟩ | heq
    · exact get?_eq_none.mp hget row hold hkey
    · exact hne (hkey.symm.trans (hnew row heq))
  | some row =>
    obtain ⟨hrow, hkey⟩ := get?_eq_some.mp hget
    exact get?_eq_some.mpr ⟨(h row).mpr (.inl ⟨hrow, hkey ▸ hne⟩), hkey⟩

theorem Puts.weight_eq {M : Type*} [AddCommMonoid M] (h : table.Puts k new table')
    (hnew : ∀ row ∈ new, key row = k) (g : ρ → M) :
    table'.weight g = (table.keep fun row => decide (key row ≠ k)).weight g + new.elim 0 g := by
  cases new with
  | none =>
    refine (weight_congr (table.keep fun row => decide (key row ≠ k)).key_nodup fun row => ?_).trans
      (add_zero _).symm
    rw [h, ← mem_def, mem_keep, decide_eq_true_eq]
    simp
  | some new =>
    have hnd : ((new :: (table.keep fun row => decide (key row ≠ k)).rows).map key).Nodup := by
      refine List.nodup_cons.mpr ⟨fun hmem => ?_, (table.keep _).key_nodup⟩
      obtain ⟨row, hrow, hkey⟩ := List.mem_map.mp hmem
      have hne := of_decide_eq_true (mem_keep.mp hrow).2
      exact hne (hkey.trans (hnew new rfl))
    refine (weight_congr hnd fun row => ?_).trans ?_
    · rw [h, List.mem_cons, ← mem_def, mem_keep, decide_eq_true_eq, Option.some.injEq, or_comm]
      exact or_congr_left eq_comm
    · rw [List.map_cons, List.sum_cons, add_comm]
      rfl

/-- The new row takes the place of the old one. -/
theorem Puts.weight_add {M : Type*} [AddCommMonoid M] (h : table.Puts k new table')
    (hnew : ∀ row ∈ new, key row = k) (g : ρ → M) :
    table'.weight g + (table.get? k).elim 0 g = table.weight g + new.elim 0 g := by
  have hold : table.weight g = (table.keep fun row => decide (key row ≠ k)).weight g +
      (table.get? k).elim 0 g := by
    have hself : table.Puts k (table.get? k) table := fun row => by
      rw [get?_eq_some]
      by_cases hkey : key row = k <;> simp [hkey]
    exact hself.weight_eq (fun row hrow => (get?_eq_some.mp hrow).2) g
  rw [hold, h.weight_eq hnew g, add_right_comm]

end Puts

end Table
