import Mathlib.Data.List.Basic

/-!
# Chains of rules

A chain is asked from its first rule on, and the first rule which matches decides.  The
outcome of a chain made of parts is the first outcome of its parts.
-/

namespace FirstMatch

variable {ρ V α : Type*} {matches? : ρ → Bool} {target : ρ → V}

/-- The target of the first rule which matches. -/
def outcome (matches? : ρ → Bool) (target : ρ → V) : List ρ → Option V
  | [] => none
  | rule :: rules => if matches? rule then some (target rule) else outcome matches? target rules

@[simp] theorem outcome_nil : outcome matches? target [] = none := rfl

theorem outcome_cons (rule : ρ) (rules : List ρ) : outcome matches? target (rule :: rules) =
    if matches? rule then some (target rule) else outcome matches? target rules := rfl

theorem outcome_append (l l' : List ρ) : outcome matches? target (l ++ l') =
    (outcome matches? target l).or (outcome matches? target l') := by
  induction l with
  | nil => rfl
  | cons rule l ih =>
      rw [List.cons_append, outcome_cons, outcome_cons, ih]
      split <;> rfl

/-- Rules of one target decide together. -/
theorem outcome_of_target {v : V} {l : List ρ} (h : ∀ rule ∈ l, target rule = v) :
    outcome matches? target l = if l.any matches? then some v else none := by
  induction l with
  | nil => rfl
  | cons rule l ih =>
      rw [outcome_cons, List.any_cons, h rule List.mem_cons_self,
        ih fun r hr => h r (List.mem_cons_of_mem _ hr)]
      cases matches? rule <;> rfl

/-- The parts are asked one after the other. -/
theorem outcome_flatMap (f : α → List ρ) (l : List α) : outcome matches? target (l.flatMap f) =
    l.findSome? fun a => outcome matches? target (f a) := by
  induction l with
  | nil => rfl
  | cons a l ih =>
      rw [List.flatMap_cons, outcome_append, ih, List.findSome?_cons]
      cases outcome matches? target (f a) <;> rfl

/-- The first part which decides at all. -/
theorem findSome?_eq_find? {c : α → Bool} {g : α → V} {f : α → Option V} {l : List α}
    (h : ∀ a ∈ l, f a = if c a then some (g a) else none) : l.findSome? f = (l.find? c).map g := by
  induction l with
  | nil => rfl
  | cons a l ih =>
      rw [List.findSome?_cons, List.find?_cons, h a List.mem_cons_self,
        ih fun b hb => h b (List.mem_cons_of_mem _ hb)]
      cases c a <;> rfl

end FirstMatch
