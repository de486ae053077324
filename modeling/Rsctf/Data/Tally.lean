import Mathlib.Algebra.Order.BigOperators.Group.List
import Mathlib.Algebra.Order.Group.Nat
import Mathlib.Algebra.Ring.Nat

/-!
# Tallies

The sum of what the members of a list contribute, when one member is replaced.
-/

namespace Tally

variable {α : Type*} {f g : α → ℕ} {l : List α} {i j : ℕ} {a b c : α}

theorem getElem?_set_eq_some (ha : l[i]? = some a) :
    (l.set i b)[j]? = some c ↔ j = i ∧ b = c ∨ j ≠ i ∧ l[j]? = some c := by
  have hi := (List.getElem?_eq_some_iff.mp ha).1
  rw [List.getElem?_set]
  by_cases hij : i = j
  · simp [hij, hij ▸ hi]
  · simp [hij, Ne.symm hij]

theorem getElem?_concat_eq_some :
    (l ++ [b])[j]? = some c ↔ j = l.length ∧ b = c ∨ l[j]? = some c := by
  rw [List.getElem?_append]
  split
  next hj => simp [Nat.ne_of_lt hj]
  next hj =>
    rw [List.getElem?_eq_none (not_lt.mp hj), List.getElem?_singleton]
    have hj' : j - l.length = 0 ↔ j = l.length := by omega
    simp [hj']

theorem sum_map_set (f : α → ℕ) (ha : l[i]? = some a) :
    ((l.set i b).map f).sum + f a = (l.map f).sum + f b := by
  induction l generalizing i with
  | nil => cases ha
  | cons d l ih =>
      cases i with
      | zero =>
          obtain rfl := Option.some.inj ha
          simp only [List.set_cons_zero, List.map_cons, List.sum_cons]
          omega
      | succ i =>
          have := ih ha
          simp only [List.set_cons_succ, List.map_cons, List.sum_cons]
          omega

theorem sum_map_modify (f : α → ℕ) (g : α → α) (ha : l[i]? = some a) :
    ((l.modify i g).map f).sum + f a = (l.map f).sum + f (g a) := by
  rw [List.modify_eq_set_getElem?, ha]
  exact sum_map_set f ha

theorem le_sum_map (f : α → ℕ) (ha : l[i]? = some a) : f a ≤ (l.map f).sum :=
  List.single_le_sum (fun _ _ => Nat.zero_le _) _
    (List.mem_map_of_mem (List.mem_of_getElem? ha))

/-- Two members contribute no more than all of them. -/
theorem add_le_sum_map (f : α → ℕ) (hij : i ≠ j) (ha : l[i]? = some a) (hb : l[j]? = some b) :
    f a + f b ≤ (l.map f).sum := by
  induction l generalizing i j with
  | nil => cases ha
  | cons d l ih =>
      rw [List.map_cons, List.sum_cons]
      cases i with
      | zero =>
          obtain rfl := Option.some.inj ha
          cases j with
          | zero => exact absurd rfl hij
          | succ j =>
              have := le_sum_map (l := l) f hb
              omega
      | succ i =>
          cases j with
          | zero =>
              obtain rfl := Option.some.inj hb
              have := le_sum_map (l := l) f ha
              omega
          | succ j =>
              have := ih (fun h => hij (congrArg _ h)) ha hb
              omega

theorem exists_of_sum_map_pos (h : 0 < (l.map f).sum) :
    ∃ (i : ℕ) (a : α), l[i]? = some a ∧ 0 < f a := by
  by_contra hnone
  have hzero : ∀ n ∈ l.map f, n = 0 := by
    intro n hn
    obtain ⟨a, ha, rfl⟩ := List.mem_map.mp hn
    obtain ⟨i, hi⟩ := List.mem_iff_getElem?.mp ha
    by_contra hpos
    exact hnone ⟨i, a, hi, Nat.pos_of_ne_zero hpos⟩
  rw [List.sum_eq_zero hzero] at h
  exact absurd h (lt_irrefl 0)

end Tally
