import Mathlib.Algebra.Order.BigOperators.Group.List
import Mathlib.Data.List.Forall2

/-!
# Lists related element by element

Two lists are compared through their elements.  A lookup finds related elements, and
sums of related summands are ordered.
-/

namespace Related

open List (Forall₂)

variable {α β γ : Type*} {R : α → β → Prop} {l : List α} {l' : List β}

theorem exists_left (h : Forall₂ R l l') {b : β} (hb : b ∈ l') : ∃ a ∈ l, R a b := by
  induction h with
  | nil => cases hb
  | cons hab _ ih =>
      rcases List.mem_cons.mp hb with rfl | hb
      · exact ⟨_, List.mem_cons_self, hab⟩
      · obtain ⟨a, ha, hR⟩ := ih hb
        exact ⟨a, List.mem_cons_of_mem _ ha, hR⟩

theorem exists_right (h : Forall₂ R l l') {a : α} (ha : a ∈ l) : ∃ b ∈ l', R a b :=
  exists_left h.flip ha

theorem imp_of_mem {S : α → β → Prop} (hS : ∀ a ∈ l, ∀ b ∈ l', R a b → S a b)
    (h : Forall₂ R l l') : Forall₂ S l l' := by
  induction h with
  | nil => exact .nil
  | cons hab _ ih =>
      refine .cons (hS _ List.mem_cons_self _ List.mem_cons_self hab) (ih ?_)
      exact fun a ha b hb => hS a (List.mem_cons_of_mem _ ha) b (List.mem_cons_of_mem _ hb)

/-- A lookup finds related elements, or nothing in both lists. -/
theorem find? {p : α → Bool} {q : β → Bool} (hpq : ∀ a b, R a b → p a = q b)
    (h : Forall₂ R l l') : Option.Rel R (l.find? p) (l'.find? q) := by
  induction h with
  | nil => exact .none
  | @cons a b l l' hab _ ih =>
      cases hp : p a with
      | false =>
          rw [List.find?_cons_of_neg (by simp [hp]),
            List.find?_cons_of_neg (by simp [← hpq a b hab, hp])]
          exact ih
      | true =>
          rw [List.find?_cons_of_pos hp, List.find?_cons_of_pos ((hpq a b hab).symm.trans hp)]
          exact .some hab

theorem filterMap_same {f : γ → Option α} {g : γ → Option β} {l : List γ}
    (h : ∀ c ∈ l, Option.Rel R (f c) (g c)) : Forall₂ R (l.filterMap f) (l.filterMap g) := by
  induction l with
  | nil => exact .nil
  | cons c l ih =>
      have htail := ih fun d hd => h d (List.mem_cons_of_mem c hd)
      have hhead := h c List.mem_cons_self
      rw [List.filterMap_cons, List.filterMap_cons]
      cases hf : f c <;> cases hg : g c <;> rw [hf, hg] at hhead
      · exact htail
      · cases hhead
      · cases hhead
      · cases hhead with
        | some hab => exact .cons hab htail

theorem map_eq {f : α → γ} {g : β → γ} (hfg : ∀ a b, R a b → g b = f a) (h : Forall₂ R l l') :
    l'.map g = l.map f := by
  induction h with
  | nil => rfl
  | cons hab _ ih => rw [List.map_cons, List.map_cons, ih, hfg _ _ hab]

theorem sum_le {M : Type*} [AddCommMonoid M] [PartialOrder M] [IsOrderedAddMonoid M] {f : α → M} {g : β → M}
    (hfg : ∀ a b, R a b → f a ≤ g b) (h : Forall₂ R l l') :
    (l.map f).sum ≤ (l'.map g).sum := by
  induction h with
  | nil => exact le_rfl
  | cons hab _ ih =>
      rw [List.map_cons, List.sum_cons, List.map_cons, List.sum_cons]
      exact add_le_add (hfg _ _ hab) ih

end Related
