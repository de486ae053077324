import Mathlib.Algebra.BigOperators.Group.List.Lemmas
import Mathlib.Algebra.Order.BigOperators.Group.List
import Mathlib.Algebra.Order.Ring.Defs
import Mathlib.Tactic.Abel
import Rsctf.Data.Keyed

/-!
# Joins and groups

A join on a key of the right table pairs every row of the left table with at most
one row.  Grouping a table by a key splits a sum over the table into the sums of
its groups: no row is lost or counted twice as long as the list of keys is free of
repetitions and covers every row.
-/

open Keyed

namespace Grouping

variable {α κ M : Type*} [DecidableEq κ]

theorem rows_cons (key : α → κ) (k : κ) (a : α) (l : List α) :
    rows key k (a :: l) = if key a = k then a :: rows key k l else rows key k l := by
  simp [rows, List.filter_cons]

theorem sum_single [AddCommMonoid M] {ks : List κ} {k : κ} (x : M) (hnd : ks.Nodup)
    (hk : k ∈ ks) : (ks.map fun k' => if k = k' then x else 0).sum = x := by
  induction ks with
  | nil => simp at hk
  | cons k' ks ih =>
      obtain ⟨hfresh, hnd⟩ := List.nodup_cons.mp hnd
      rw [List.map_cons, List.sum_cons]
      by_cases heq : k = k'
      · subst heq
        have hzero : ∀ y ∈ ks.map fun k' => if k = k' then x else 0, y = 0 := by
          intro y hy
          obtain ⟨k', hk', rfl⟩ := List.mem_map.mp hy
          have hne : k ≠ k' := fun h => hfresh (by rw [h]; exact hk')
          exact if_neg hne
        rw [if_pos rfl, List.sum_eq_zero hzero, add_zero]
      · have hmem : k ∈ ks := (List.mem_cons.mp hk).resolve_left heq
        rw [if_neg heq, zero_add, ih hnd hmem]

/-- The sums of the groups add up to the sum of the table. -/
theorem sum_rows [AddCommMonoid M] {key : α → κ} {ks : List κ} {l : List α} (f : α → M)
    (hnd : ks.Nodup) (hcover : ∀ a ∈ l, key a ∈ ks) :
    (ks.map fun k => ((rows key k l).map f).sum).sum = (l.map f).sum := by
  induction l with
  | nil => simp
  | cons a l ih =>
      have hsplit : ∀ k, ((rows key k (a :: l)).map f).sum =
          (if key a = k then f a else 0) + ((rows key k l).map f).sum := by
        intro k
        rw [rows_cons]
        split <;> simp
      rw [List.map_congr_left fun k _ => hsplit k, List.sum_map_add,
        sum_single (f a) hnd (hcover a List.mem_cons_self),
        ih fun b hb => hcover b (List.mem_cons_of_mem a hb), List.map_cons, List.sum_cons]

theorem sum_filter [AddCommMonoid M] (p : α → Bool) (f : α → M) (l : List α) :
    ((l.filter p).map f).sum = (l.map fun a => if p a then f a else 0).sum := by
  induction l with
  | nil => rfl
  | cons a l ih =>
      rw [List.filter_cons, List.map_cons, List.sum_cons, ← ih]
      split
      · rw [List.map_cons, List.sum_cons]
      · rw [zero_add]

/-- A sum in which one term of a table changes. -/
theorem sum_change [AddCommGroup M] {f f' : α → M} {l : List α} (hnd : l.Nodup) {a : α}
    (ha : a ∈ l) (h : ∀ b ∈ l, b ≠ a → f' b = f b) :
    (l.map f').sum = (l.map f).sum + (f' a - f a) := by
  induction l with
  | nil => simp at ha
  | cons b l ih =>
      obtain ⟨hfresh, hnd⟩ := List.nodup_cons.mp hnd
      rw [List.map_cons, List.sum_cons, List.map_cons, List.sum_cons]
      rcases List.mem_cons.mp ha with rfl | ha
      · have hrest : l.map f' = l.map f := List.map_congr_left fun c hc =>
          h c (List.mem_cons_of_mem _ hc) fun heq => hfresh (heq ▸ hc)
        rw [hrest]
        abel
      · have hne : b ≠ a := fun heq => hfresh (heq ▸ ha)
        rw [h b List.mem_cons_self hne, ih hnd ha fun c hc => h c (List.mem_cons_of_mem _ hc)]
        abel

section Join

variable {β : Type*} {key : α → κ} {key' : β → κ} {l : List α} {m : List β}

/-- The rows of a table paired with the row of another table which they refer to. -/
def join (key : α → κ) (key' : β → κ) (l : List α) (m : List β) : List (α × β) :=
  l.filterMap fun a => (m.find? fun b => key' b = key a).map (a, ·)

theorem join_cons (key : α → κ) (key' : β → κ) (a : α) (l : List α) (m : List β) :
    join key key' (a :: l) m =
      ((m.find? fun b => key' b = key a).map (a, ·)).toList ++ join key key' l m := by
  rw [join, List.filterMap_cons]
  cases m.find? fun b => key' b = key a <;> rfl

theorem mem_join {p : α × β} (h : p ∈ join key key' l m) :
    p.1 ∈ l ∧ p.2 ∈ m ∧ key' p.2 = key p.1 := by
  obtain ⟨a, ha, hlookup⟩ := List.mem_filterMap.mp h
  obtain ⟨b, hfind, hp⟩ := Option.map_eq_some_iff.mp hlookup
  subst hp
  exact ⟨ha, List.mem_of_find?_eq_some hfind, by simpa using List.find?_some hfind⟩

/-- The left rows keep their order, and none is repeated. -/
theorem map_fst_join_sublist : ((join key key' l m).map Prod.fst).Sublist l := by
  induction l with
  | nil => exact List.Sublist.refl _
  | cons a l ih =>
      rw [join_cons]
      cases m.find? fun b => key' b = key a with
      | none => simpa using ih.cons a
      | some b => simpa using ih.cons_cons a

/-- The pairs of a right row are as many as the left rows which refer to it. -/
theorem length_rows_join (hnd : (m.map key').Nodup) {b : β} (hb : b ∈ m) :
    (rows (fun p => key' p.2) (key' b) (join key key' l m)).length =
      (rows key (key' b) l).length := by
  induction l with
  | nil => rfl
  | cons a l ih =>
      rw [join_cons, rows_append, List.length_append, ih, rows_cons]
      by_cases hkey : key a = key' b
      · simp only [hkey, find?_key_eq_some hnd hb, Option.map_some, Option.toList_some, rows_cons,
          rows_nil, if_true, List.length_cons, List.length_nil]
        omega
      · cases hfind : m.find? fun b => key' b = key a with
        | none => simp [hkey]
        | some c =>
            have hc : key' c = key a := by simpa using List.find?_some hfind
            simp [rows_cons, hc, hkey]

theorem sum_ite_key [AddCommMonoid M] (hnd : (m.map key').Nodup) (k : κ) (f : β → M) :
    (m.map fun b => if key' b = k then f b else 0).sum =
      ((m.find? fun b => key' b = k).map f).getD 0 := by
  induction m with
  | nil => rfl
  | cons b m ih =>
      obtain ⟨hfresh, hnd⟩ := List.nodup_cons.mp hnd
      rw [List.map_cons, List.sum_cons, List.find?_cons]
      by_cases hkey : key' b = k
      · have hzero : ∀ x ∈ m.map fun b => if key' b = k then f b else 0, x = 0 := by
          intro x hx
          obtain ⟨c, hc, rfl⟩ := List.mem_map.mp hx
          refine if_neg fun h => hfresh ?_
          rw [hkey, ← h]
          exact List.mem_map_of_mem hc
        rw [if_pos hkey, List.sum_eq_zero hzero, add_zero, decide_eq_true hkey]
        rfl
      · rw [if_neg hkey, zero_add, ih hnd, decide_eq_false hkey]

/-- A sum over a join, grouped by the rows of the right table. -/
theorem sum_join [AddCommMonoid M] (f : α × β → M) (hnd : (m.map key').Nodup) :
    ((join key key' l m).map f).sum =
      (m.map fun b => ((rows key (key' b) l).map fun a => f (a, b)).sum).sum := by
  induction l with
  | nil =>
      have hzero : ∀ x ∈ m.map fun b => ((rows key (key' b) []).map fun a => f (a, b)).sum,
          x = 0 := by
        intro x hx
        obtain ⟨b, _, rfl⟩ := List.mem_map.mp hx
        rfl
      rw [List.sum_eq_zero hzero]
      rfl
  | cons a l ih =>
      have hsplit : ∀ b, ((rows key (key' b) (a :: l)).map fun a => f (a, b)).sum =
          (if key' b = key a then f (a, b) else 0) +
            ((rows key (key' b) l).map fun a => f (a, b)).sum := by
        intro b
        rw [rows_cons]
        by_cases hkey : key a = key' b
        · rw [if_pos hkey, if_pos hkey.symm, List.map_cons, List.sum_cons]
        · rw [if_neg hkey, if_neg (Ne.symm hkey), zero_add]
      rw [join_cons, List.map_append, List.sum_append, ih, List.map_congr_left fun b _ => hsplit b,
        List.sum_map_add, sum_ite_key hnd]
      cases m.find? fun b => key' b = key a with
      | none => rfl
      | some b => simp

end Join

/-- A sum of terms of the unit interval is at most the number of terms. -/
theorem sum_mem_unit [CommRing M] [LinearOrder M] [IsStrictOrderedRing M]
    {l : List M} (h : ∀ x ∈ l, 0 ≤ x ∧ x ≤ 1) : 0 ≤ l.sum ∧ l.sum ≤ l.length := by
  refine ⟨List.sum_nonneg fun x hx => (h x hx).1, ?_⟩
  have hle := List.sum_le_card_nsmul l 1 fun x hx => (h x hx).2
  simpa using hle

/-- Rows with distinct images in a list are no more than the list is long. -/
theorem length_le_of_nodup_map {β : Type*} {f : α → β} {l : List α} {m : List β}
    (hnd : (l.map f).Nodup) (hsub : ∀ a ∈ l, f a ∈ m) : l.length ≤ m.length := by
  have hsubset : l.map f ⊆ m := by
    intro b hb
    obtain ⟨a, ha, rfl⟩ := List.mem_map.mp hb
    exact hsub a ha
  have hle := (List.subperm_of_subset hnd hsubset).length_le
  simpa using hle

end Grouping
