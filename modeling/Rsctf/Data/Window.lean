import Mathlib.Data.List.Induction

/-!
# Windows over preceding rows

A window which looks at all preceding rows and keeps the last one with a value
is `lastSome` of the values so far.  Cutting the rows into two parts splits the
window: the later part decides, and the earlier part is a fallback.
-/

namespace Window

variable {α β : Type*}

/-- The last value of a sequence in which values may be absent. -/
def lastSome (l : List (Option α)) : Option α := (l.filterMap id).getLast?

/-- The first value of a sequence in which values may be absent. -/
def firstSome (l : List (Option α)) : Option α := (l.filterMap id).head?

@[simp] theorem lastSome_nil : lastSome ([] : List (Option α)) = none := rfl

@[simp] theorem lastSome_append (l₁ l₂ : List (Option α)) :
    lastSome (l₁ ++ l₂) = (lastSome l₂).or (lastSome l₁) := by
  simp [lastSome, List.getLast?_append]

@[simp] theorem lastSome_singleton (x : Option α) : lastSome [x] = x := by
  cases x <;> rfl

theorem lastSome_eq_none_iff {l : List (Option α)} :
    lastSome l = none ↔ ∀ x ∈ l, x = none := by
  simp [lastSome]

theorem mem_of_lastSome {l : List (Option α)} {a : α} (h : lastSome l = some a) :
    some a ∈ l := by
  obtain ⟨x, hx, hxa⟩ := List.mem_filterMap.mp (List.mem_of_getLast? h)
  rwa [← show x = some a from hxa]

/-- The first value of a sequence is the one with no value before it. -/
theorem firstSome_eq_some_iff {l : List (Option α)} {a : α} :
    firstSome l = some a ↔
      ∃ l₁ l₂, l = l₁ ++ some a :: l₂ ∧ lastSome l₁ = none := by
  induction l with
  | nil => simp [firstSome]
  | cons x l ih =>
      cases x with
      | none =>
          have hstep : firstSome (none :: l) = firstSome l := rfl
          rw [hstep, ih]
          constructor
          · rintro ⟨l₁, l₂, rfl, hl₁⟩
            exact ⟨none :: l₁, l₂, rfl, by simpa [lastSome_eq_none_iff] using hl₁⟩
          · rintro ⟨l₁, l₂, hl, hl₁⟩
            cases l₁ with
            | nil => simp at hl
            | cons y l₁ =>
                obtain ⟨rfl, rfl⟩ := List.cons.inj hl
                refine ⟨l₁, l₂, rfl, lastSome_eq_none_iff.mpr fun z hz => ?_⟩
                exact lastSome_eq_none_iff.mp hl₁ z (List.mem_cons_of_mem _ hz)
      | some b =>
          have hstep : firstSome (some b :: l) = some b := rfl
          rw [hstep]
          constructor
          · rintro hba
            exact ⟨[], l, by rw [hba]; rfl, rfl⟩
          · rintro ⟨l₁, l₂, hl, hl₁⟩
            cases l₁ with
            | nil => exact (List.cons.inj hl).1
            | cons y l₁ =>
                obtain ⟨rfl, rfl⟩ := List.cons.inj hl
                exact absurd (lastSome_eq_none_iff.mp hl₁ (some b) (by simp)) (by simp)

theorem lastSome_map_map (f : α → β) (l : List (Option α)) :
    lastSome (l.map (Option.map f)) = (lastSome l).map f := by
  induction l using List.reverseRecOn with
  | nil => rfl
  | append_singleton l x ih =>
      rw [List.map_append, lastSome_append, ih]
      cases x <;> simp

end Window
