import Mathlib.Algebra.BigOperators.Group.List.Basic
import Mathlib.Data.List.Basic

/-!
# Marking the first member

The first member of a list which has a property is changed, and the others stay.  A change
which a filter does not see commutes with the filter.
-/

namespace Marking

variable {α β M : Type*} {p q : α → Bool} {f : α → α} {l : List α} {b : α}

/-- Change the first member which has the property. -/
def mark (p : α → Bool) (f : α → α) : List α → List α
  | [] => []
  | a :: l => if p a then f a :: l else a :: mark p f l

theorem modify_findIdx (p : α → Bool) (f : α → α) :
    ∀ l : List α, l.modify (l.findIdx p) f = mark p f l
  | [] => rfl
  | a :: l => by
      by_cases ha : p a = true
      · simp [mark, List.findIdx_cons, ha]
      · simp [mark, List.findIdx_cons, ha, modify_findIdx p f l]

theorem map_modify {f' : β → β} {g : α → β} (h : ∀ a, g (f a) = f' (g a)) (l : List α) (i : ℕ) :
    (l.modify i f).map g = (l.map g).modify i f' := by
  induction l generalizing i with
  | nil => simp
  | cons a l ih => cases i <;> simp [h, ih]

theorem map_mark {g : α → β} (h : ∀ a, g (f a) = g a) : (mark p f l).map g = l.map g := by
  induction l with
  | nil => rfl
  | cons a l ih =>
      rw [mark]
      split
      · rw [List.map_cons, List.map_cons, h]
      · rw [List.map_cons, List.map_cons, ih]

theorem mark_eq_self (h : ∀ a ∈ l, p a = false) : mark p f l = l := by
  induction l with
  | nil => rfl
  | cons a l ih =>
      rw [mark, h a List.mem_cons_self, ih fun c hc => h c (List.mem_cons_of_mem a hc)]
      rfl

/-- A filter which does not tell the members with the property apart does not see the change. -/
theorem filter_mark (hf : ∀ a, q (f a) = q a) (h : ∀ a b, p a → p b → q a = q b) (l : List α) :
    (mark p f l).filter q = mark p f (l.filter q) := by
  induction l with
  | nil => rfl
  | cons a l ih =>
      by_cases ha : p a = true
      · cases hq : q a with
        | true => simp [mark, ha, hf, hq]
        | false =>
            have hnone : ∀ c ∈ l.filter q, p c = false := by
              intro c hc
              by_contra hp
              have hsame := h a c ha (Bool.not_eq_false _ ▸ hp)
              rw [hq, (List.mem_filter.mp hc).2] at hsame
              cases hsame
            simp [mark, ha, hf, hq, mark_eq_self hnone]
      · cases hq : q a with
        | true => simp [mark, ha, hq, ih]
        | false => simp [mark, ha, hq, ih]

theorem mem_mark (h : b ∈ mark p f l) : b ∈ l ∨ ∃ a ∈ l, p a ∧ b = f a := by
  induction l with
  | nil => exact .inl h
  | cons a l ih =>
      by_cases ha : p a = true
      · rw [mark, if_pos ha, List.mem_cons] at h
        rcases h with rfl | h
        · exact .inr ⟨a, List.mem_cons_self, ha, rfl⟩
        · exact .inl (List.mem_cons_of_mem a h)
      · rw [mark, if_neg ha, List.mem_cons] at h
        rcases h with rfl | h
        · exact .inl List.mem_cons_self
        · rcases ih h with hmem | ⟨c, hc, hp, heq⟩
          · exact .inl (List.mem_cons_of_mem a hmem)
          · exact .inr ⟨c, List.mem_cons_of_mem a hc, hp, heq⟩

theorem sum_map_mark [AddCommMonoid M] {g : α → M} {d : M} (hmem : ∃ a ∈ l, p a)
    (h : ∀ a ∈ l, p a → g (f a) = g a + d) : ((mark p f l).map g).sum = (l.map g).sum + d := by
  induction l with
  | nil => simp at hmem
  | cons a l ih =>
      by_cases ha : p a = true
      · rw [mark, if_pos ha, List.map_cons, List.sum_cons, List.map_cons, List.sum_cons,
          h a List.mem_cons_self ha, add_right_comm]
      · have hrest : ∃ c ∈ l, p c := by
          obtain ⟨c, hc, hp⟩ := hmem
          rcases List.mem_cons.mp hc with rfl | hc
          · exact absurd hp ha
          · exact ⟨c, hc, hp⟩
        rw [mark, if_neg ha, List.map_cons, List.sum_cons, List.map_cons, List.sum_cons,
          ih hrest fun c hc => h c (List.mem_cons_of_mem a hc), add_assoc]

end Marking
