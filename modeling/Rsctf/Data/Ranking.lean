import Mathlib.Algebra.Ring.Nat
import Mathlib.Data.List.Count
import Mathlib.Order.Lattice

/-!
# Competition ranks

The rank of a score is one more than the number of strictly greater scores, so that equal
scores share a rank and the ranks after them are skipped.  When the scores come in descending
order, a pass finds the ranks from the number of scores so far and from the last of them.
-/

namespace Ranking

variable {κ : Type*} [LinearOrder κ] {seen l l' : List κ} {x last : κ} {rank : ℕ}

/-- How many scores are greater. -/
def ahead (x : κ) (scores : List κ) : ℕ := scores.countP (x < ·)

theorem ahead_append (x : κ) (l l' : List κ) : ahead x (l ++ l') = ahead x l + ahead x l' :=
  List.countP_append

theorem ahead_eq_zero (h : ∀ a ∈ l, a ≤ x) : ahead x l = 0 := by
  rw [ahead, List.countP_eq_zero]
  intro a ha
  simpa using h a ha

theorem ahead_eq_length (h : ∀ a ∈ l, x < a) : ahead x l = l.length := by
  rw [ahead, List.countP_eq_length]
  intro a ha
  simpa using h a ha

theorem ahead_perm (x : κ) (h : l.Perm l') : ahead x l = ahead x l' :=
  h.countP_eq _

/-- What a pass knows of the scores it has seen. -/
structure Passed (seen : List κ) (last : κ) (rank : ℕ) : Prop where
  mem : last ∈ seen
  least : ∀ a ∈ seen, last ≤ a
  rank_eq : rank = 1 + ahead last seen

/-- The next score takes the last rank or its own position. -/
theorem Passed.next (h : Passed seen last rank) (hx : x ≤ last) :
    Passed (seen ++ [x]) x (if last = x then rank else seen.length + 1) where
  mem := by simp
  least := by
    intro a ha
    rcases List.mem_append.mp ha with ha | ha
    · exact hx.trans (h.least a ha)
    · exact (List.mem_singleton.mp ha).ge
  rank_eq := by
    rw [ahead_append, ahead_eq_zero (l := [x]) (by simp), add_zero]
    split
    next heq => rw [h.rank_eq, heq]
    next hne =>
      have hlt : x < last := lt_of_le_of_ne hx (Ne.symm hne)
      rw [ahead_eq_length fun a ha => hlt.trans_le (h.least a ha), add_comm]

/-- A score below all others takes its position. -/
theorem Passed.of_lt (h : ∀ a ∈ seen, x < a) : Passed (seen ++ [x]) x (seen.length + 1) where
  mem := by simp
  least := by
    intro a ha
    rcases List.mem_append.mp ha with ha | ha
    · exact (h a ha).le
    · exact (List.mem_singleton.mp ha).ge
  rank_eq := by
    rw [ahead_append, ahead_eq_zero (l := [x]) (by simp), add_zero, ahead_eq_length h, add_comm]

/-- The scores that follow do not change the rank. -/
theorem Passed.rank_eq_of_append (h : Passed seen last rank) (hl : ∀ a ∈ l, a ≤ last) :
    rank = 1 + ahead last (seen ++ l) := by
  rw [ahead_append, ahead_eq_zero hl, add_zero, h.rank_eq]

end Ranking
