import Mathlib.Data.List.Forall2

/-!
# Fallible traversals

Computations which either return a value or stop at the first error are
`Except` values.  A traversal succeeds exactly when every element does, so a
successful traversal can be replaced by the pure map of its results.
-/

universe u v

namespace Fallible

theorem bind_eq_ok_iff {α β : Type u} {ε : Type v} {x : Except ε α} {f : α → Except ε β} {b : β} :
    (x >>= f) = .ok b ↔ ∃ a, x = .ok a ∧ f a = .ok b := by
  cases x <;> simp [bind, Except.bind]

theorem map_eq_ok_iff {α β : Type u} {ε : Type v} {x : Except ε α} {f : α → β} {b : β} :
    (f <$> x) = .ok b ↔ ∃ a, x = .ok a ∧ f a = b := by
  cases x <;> simp [Functor.map, Except.map]

theorem pure_eq_ok_iff {α ε : Type*} {a b : α} :
    (pure a : Except ε α) = .ok b ↔ a = b := by
  simp [pure, Except.pure]

theorem mapM_eq_ok_iff {α β : Type u} {ε : Type v} {f : α → Except ε β} {l : List α} {r : List β} :
    l.mapM f = .ok r ↔ List.Forall₂ (fun a b => f a = .ok b) l r := by
  induction l generalizing r with
  | nil => simp [pure, Except.pure, eq_comm]
  | cons a l ih =>
      rw [List.mapM_cons, List.forall₂_cons_left_iff]
      simp only [bind_eq_ok_iff, pure_eq_ok_iff, ih]
      constructor
      · rintro ⟨b, hb, bs, hbs, rfl⟩
        exact ⟨b, bs, hb, hbs, rfl⟩
      · rintro ⟨b, bs, hb, hbs, rfl⟩
        exact ⟨b, hb, bs, hbs, rfl⟩

/-- A traversal whose every step succeeds is the pure map of the results. -/
theorem mapM_eq_ok_map {α β : Type u} {ε : Type v} {f : α → Except ε β} {g : α → β} {l : List α}
    (h : ∀ a ∈ l, f a = .ok (g a)) :
    l.mapM f = .ok (l.map g) := by
  rw [mapM_eq_ok_iff, List.forall₂_map_right_iff, List.forall₂_same]
  exact h

theorem exists_of_mapM_eq_ok {α β : Type u} {ε : Type v} {f : α → Except ε β} {l : List α} {r : List β}
    (h : l.mapM f = .ok r) {a : α} (ha : a ∈ l) :
    ∃ b, f a = .ok b := by
  rw [mapM_eq_ok_iff] at h
  induction h with
  | nil => simp at ha
  | cons hab _ ih =>
      rcases List.mem_cons.mp ha with rfl | ha
      · exact ⟨_, hab⟩
      · exact ih ha

theorem exists_source_of_mapM_eq_ok {α β : Type u} {ε : Type v} {f : α → Except ε β} {l : List α}
    {r : List β} (h : l.mapM f = .ok r) {b : β} (hb : b ∈ r) : ∃ a ∈ l, f a = .ok b := by
  rw [mapM_eq_ok_iff] at h
  induction h with
  | nil => simp at hb
  | cons hab _ ih =>
      rcases List.mem_cons.mp hb with rfl | hb
      · exact ⟨_, List.mem_cons_self, hab⟩
      · obtain ⟨a, ha, hab⟩ := ih hb
        exact ⟨a, List.mem_cons_of_mem _ ha, hab⟩

/-- Every check of a loop that passes has passed. -/
theorem of_forM_eq_ok {α : Type u} {ε : Type v} {f : α → Except ε PUnit} {l : List α} {u : PUnit}
    (h : l.forM f = .ok u) {a : α} (ha : a ∈ l) : f a = .ok ⟨⟩ := by
  induction l with
  | nil => simp at ha
  | cons b l ih =>
      have hstep : (b :: l).forM f = (f b >>= fun _ => l.forM f) := rfl
      rw [hstep, bind_eq_ok_iff] at h
      obtain ⟨v, hb, hl⟩ := h
      rcases List.mem_cons.mp ha with rfl | ha
      · exact hb
      · exact ih hl ha

/-- A loop of checks passes when every check does. -/
theorem forM_eq_ok {α : Type u} {ε : Type v} {f : α → Except ε PUnit} {l : List α}
    (h : ∀ a ∈ l, f a = .ok ⟨⟩) :
    l.forM f = .ok ⟨⟩ := by
  induction l with
  | nil => rfl
  | cons a l ih =>
      have hstep : (a :: l).forM f = (f a >>= fun _ => l.forM f) := rfl
      rw [hstep, h a List.mem_cons_self]
      exact ih fun b hb => h b (List.mem_cons_of_mem a hb)

end Fallible
