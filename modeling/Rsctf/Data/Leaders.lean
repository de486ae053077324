import Mathlib.Data.List.Basic
import Mathlib.Order.Lattice

/-!
# Leaders of a list

The leaders of a list under a score are the elements no other element beats.  A scan
that keeps the later of two equal candidates ends at one of them, and the leaders are
the elements that tie with it.
-/

namespace Leaders

variable {α κ : Type*} [LinearOrder κ] {score : α → κ} {l : List α} {a b : α}

/-- The last element with the greatest score, if any. -/
def lastMax (score : α → κ) : List α → Option α
  | [] => none
  | a :: l => some (l.foldl (fun best b => if score b < score best then best else b) a)

/-- The elements that no element beats. -/
def leaders (score : α → κ) (l : List α) : List α :=
  l.filter fun a => ∀ b ∈ l, score b ≤ score a

theorem mem_leaders : a ∈ leaders score l ↔ a ∈ l ∧ ∀ b ∈ l, score b ≤ score a := by
  simp [leaders]

theorem foldl_lastMax (score : α → κ) (l : List α) (a : α) :
    let best := l.foldl (fun best b => if score b < score best then best else b) a
    best ∈ a :: l ∧ ∀ b ∈ a :: l, score b ≤ score best := by
  induction l generalizing a with
  | nil => simp
  | cons c l ih =>
      rw [List.foldl_cons]
      by_cases hlt : score c < score a
      · rw [if_pos hlt]
        obtain ⟨hmem, hle⟩ := ih a
        refine ⟨?_, ?_⟩
        · rcases List.mem_cons.mp hmem with heq | hmem
          · exact List.mem_cons.mpr (.inl heq)
          · exact List.mem_cons_of_mem _ (List.mem_cons_of_mem _ hmem)
        · intro b hb
          rcases List.mem_cons.mp hb with rfl | hb
          · exact hle b List.mem_cons_self
          · rcases List.mem_cons.mp hb with rfl | hb
            · exact hlt.le.trans (hle a List.mem_cons_self)
            · exact hle b (List.mem_cons_of_mem _ hb)
      · rw [if_neg hlt]
        obtain ⟨hmem, hle⟩ := ih c
        refine ⟨List.mem_cons_of_mem _ hmem, ?_⟩
        intro b hb
        rcases List.mem_cons.mp hb with rfl | hb
        · exact (not_lt.mp hlt).trans (hle c List.mem_cons_self)
        · exact hle b hb

theorem lastMax_eq_none_iff : lastMax score l = none ↔ l = [] := by
  cases l <;> simp [lastMax]

/-- The scan ends at a leader. -/
theorem mem_leaders_of_lastMax (h : lastMax score l = some a) : a ∈ leaders score l := by
  cases l with
  | nil => exact absurd h (by simp [lastMax])
  | cons b l =>
      obtain rfl := Option.some.inj h
      exact mem_leaders.mpr (foldl_lastMax score l b)

/-- The leaders are the elements that tie with a leader. -/
theorem leaders_eq_filter (h : a ∈ leaders score l) :
    leaders score l = l.filter fun b => score b = score a := by
  obtain ⟨ha, hle⟩ := mem_leaders.mp h
  apply List.filter_congr
  intro b hb
  rw [decide_eq_decide]
  constructor
  · intro hlead
    exact le_antisymm (hle b hb) (hlead a ha)
  · intro heq c hc
    exact (hle c hc).trans heq.ge

end Leaders
