import Mathlib.Algebra.Order.Group.Nat
import Mathlib.Data.List.Basic
import Mathlib.Data.List.Count
import Mathlib.Data.List.Nodup

/-!
# Counting the members with a property

How many members of a list have a property, and whether those which have it differ in a key.
Neither is disturbed by a change which gives the property to no member, nor by a deletion; an
insertion is bounded by a count taken before it.
-/

namespace Census

variable {α κ : Type*} {p q : α → Bool} {f : α → α} {key : α → κ} {l : List α} {a b : α}

theorem countP_map_le (h : ∀ a ∈ l, p (f a) = true → q a = true) :
    (l.map f).countP p ≤ l.countP q := by
  rw [List.countP_map]
  exact List.countP_mono_left h

theorem countP_filter_le (p q : α → Bool) (l : List α) : (l.filter q).countP p ≤ l.countP p :=
  List.Sublist.countP_le List.filter_sublist

/-- A member is inserted after the others were counted. -/
theorem countP_append_singleton_le {n : ℕ} (hl : l.countP p ≤ n)
    (ha : p a = true → l.countP p < n) : (l ++ [a]).countP p ≤ n := by
  rw [List.countP_append, List.countP_singleton]
  split
  next h => exact ha h
  next => exact hl

/-- A change which gives the property to the member with one key at most. -/
theorem countP_map_le_succ (hnd : (l.map key).Nodup) (k : κ)
    (h : ∀ a ∈ l, key a ≠ k → p (f a) = true → p a = true) :
    (l.map f).countP p ≤ l.countP p + 1 := by
  induction l with
  | nil => simp
  | cons c l ih =>
      rw [List.map_cons, List.nodup_cons] at hnd
      rw [List.map_cons, List.countP_cons, List.countP_cons]
      by_cases hc : key c = k
      · have hrest : (l.map f).countP p ≤ l.countP p := by
          refine countP_map_le fun a ha => h a (List.mem_cons_of_mem c ha) ?_
          rintro rfl
          exact hnd.1 (hc ▸ List.mem_map_of_mem ha)
        split <;> omega
      · have hrest := ih hnd.2 fun a ha => h a (List.mem_cons_of_mem c ha)
        by_cases hp : p (f c) = true
        · rw [if_pos hp, if_pos (h c List.mem_cons_self hc hp)]
          omega
        · rw [if_neg hp]
          omega

theorem nodup_map_append_singleton (h : (l.map key).Nodup) (ha : key a ∉ l.map key) :
    ((l ++ [a]).map key).Nodup := by
  rw [List.map_append, List.map_singleton]
  refine List.nodup_append.mpr ⟨h, List.nodup_singleton _, ?_⟩
  rintro k hk k' hk' rfl
  exact ha (List.mem_singleton.mp hk' ▸ hk)

section Unique

/-- The members with a property differ in their keys. -/
def Unique (key : α → κ) (p : α → Bool) (l : List α) : Prop := ((l.filter p).map key).Nodup

theorem unique_nil (key : α → κ) (p : α → Bool) : Unique key p [] := List.nodup_nil

theorem Unique.filter (h : Unique key p l) (q : α → Bool) : Unique key p (l.filter q) := by
  unfold Unique
  rw [List.filter_comm]
  exact h.sublist (List.filter_sublist.map key)

/-- A change under the keys which gives the property to no member. -/
theorem Unique.map (h : Unique key p l) (hp : ∀ a ∈ l, p (f a) = true → p a = true)
    (hkey : ∀ a ∈ l, key (f a) = key a) : Unique key p (l.map f) := by
  have hsub : ((l.map f).filter p).map key = ((l.filter fun a => p (f a)).map key) := by
    rw [List.filter_map, List.map_map]
    refine List.map_congr_left fun a ha => ?_
    exact hkey a (List.mem_filter.mp ha).1
  unfold Unique
  rw [hsub]
  refine h.sublist (List.Sublist.map key ?_)
  have hboth : (l.filter fun a => p (f a)) = (l.filter p).filter fun a => p (f a) := by
    rw [List.filter_filter]
    refine List.filter_congr fun a ha => ?_
    cases hpf : p (f a) with
    | true => simp [hp a ha hpf]
    | false => rfl
  rw [hboth]
  exact List.filter_sublist

theorem Unique.append_singleton (h : Unique key p l)
    (ha : p a = true → ∀ b ∈ l, p b = true → key b ≠ key a) : Unique key p (l ++ [a]) := by
  unfold Unique
  rw [List.filter_append, List.map_append]
  by_cases hp : p a = true
  · rw [List.filter_singleton, hp, Bool.cond_true, List.map_singleton]
    refine List.nodup_append.mpr ⟨h, List.nodup_singleton _, ?_⟩
    rintro k hk k' hk' rfl
    obtain ⟨b, hb, rfl⟩ := List.mem_map.mp hk
    rw [List.mem_singleton] at hk'
    exact ha hp b (List.mem_filter.mp hb).1 (List.mem_filter.mp hb).2 hk'
  · rw [List.filter_singleton, Bool.eq_false_iff.mpr hp, Bool.cond_false, List.map_nil,
      List.append_nil]
    exact h

end Unique

end Census
