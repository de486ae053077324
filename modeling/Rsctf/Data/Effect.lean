import Mathlib.Order.Basic

/-!
# Computations which fail and keep their state

An `EStateM` computation leaves a state whether it succeeds or fails.  What is said about
that state in both cases is a relation between the states before and after; relations
compose along the steps of a computation.
-/

universe u

namespace Effect

variable {ε σ α β : Type u}

/-- The state which a computation leaves. -/
def final (x : EStateM ε σ α) (s : σ) : σ :=
  match x s with
  | .ok _ t => t
  | .error _ t => t

theorem final_of_ok {x : EStateM ε σ α} {s t : σ} {a : α} (h : x s = .ok a t) : final x s = t := by
  rw [final, h]

theorem final_of_error {x : EStateM ε σ α} {s t : σ} {e : ε} (h : x s = .error e t) :
    final x s = t := by
  rw [final, h]

theorem bind_ok {x : EStateM ε σ α} {f : α → EStateM ε σ β} {s t : σ} {a : α}
    (h : x s = .ok a t) : (x >>= f) s = f a t := by
  change EStateM.bind x f s = f a t
  rw [EStateM.bind, h]

theorem bind_error {x : EStateM ε σ α} {f : α → EStateM ε σ β} {s t : σ} {e : ε}
    (h : x s = .error e t) : (x >>= f) s = .error e t := by
  change EStateM.bind x f s = .error e t
  rw [EStateM.bind, h]

theorem bind_eq_ok {x : EStateM ε σ α} {f : α → EStateM ε σ β} {s u : σ} {b : β}
    (h : (x >>= f) s = .ok b u) : ∃ a t, x s = .ok a t ∧ f a t = .ok b u := by
  cases hx : x s with
  | ok a t => exact ⟨a, t, rfl, (bind_ok hx).symm.trans h⟩
  | error e t => rw [bind_error hx] at h; cases h

/-- A failed sequence failed in its first step or in the rest. -/
theorem bind_eq_error {x : EStateM ε σ α} {f : α → EStateM ε σ β} {s u : σ} {e : ε}
    (h : (x >>= f) s = .error e u) :
    x s = .error e u ∨ ∃ a t, x s = .ok a t ∧ f a t = .error e u := by
  cases hx : x s with
  | ok a t => exact .inr ⟨a, t, rfl, (bind_ok hx).symm.trans h⟩
  | error e' t =>
      rw [bind_error hx] at h
      cases h
      exact .inl rfl

/-- A computation relates every state to the one it leaves, and fails only in some ways. -/
def Respects (R : σ → σ → Prop) (E : ε → Prop) (x : EStateM ε σ α) : Prop :=
  ∀ s, R s (final x s) ∧ ∀ e t, x s = .error e t → E e

section Respects

variable {R : σ → σ → Prop} {E : ε → Prop}

theorem respects_pure [Std.Refl R] (a : α) : Respects R E (pure a : EStateM ε σ α) := by
  intro s
  refine ⟨Std.Refl.refl s, fun e t h => ?_⟩
  cases h

theorem respects_throw [Std.Refl R] {e : ε} (he : E e) :
    Respects R E (throw e : EStateM ε σ α) := by
  intro s
  refine ⟨Std.Refl.refl s, fun e t h => ?_⟩
  cases h
  exact he

theorem respects_bind [IsTrans σ R] {x : EStateM ε σ α} {f : α → EStateM ε σ β}
    (hx : Respects R E x) (hf : ∀ a, Respects R E (f a)) : Respects R E (x >>= f) := by
  intro s
  obtain ⟨hfirst, herror⟩ := hx s
  cases h : x s with
  | ok a t =>
      obtain ⟨hrest, herror'⟩ := hf a t
      rw [final_of_ok h] at hfirst
      have hfinal : final (x >>= f) s = final (f a) t := by rw [final, bind_ok h, final]
      refine ⟨hfinal ▸ IsTrans.trans _ _ _ hfirst hrest, fun e u hu => ?_⟩
      exact herror' e u ((bind_ok h).symm.trans hu)
  | error e t =>
      rw [final_of_error h] at hfirst
      refine ⟨(final_of_error (bind_error h)).symm ▸ hfirst, fun e' u hu => ?_⟩
      rw [bind_error h] at hu
      cases hu
      exact herror e t h

theorem respects_ite {p : Prop} [Decidable p] {x y : EStateM ε σ α} (hx : Respects R E x)
    (hy : Respects R E y) : Respects R E (if p then x else y) := by
  split
  · exact hx
  · exact hy

theorem respects_mapM [Std.Refl R] [IsTrans σ R] {f : α → EStateM ε σ β} {l : List α}
    (hf : ∀ a, Respects R E (f a)) : Respects R E (l.mapM f) := by
  induction l with
  | nil => exact respects_pure []
  | cons a l ih =>
      rw [List.mapM_cons]
      exact respects_bind (hf a) fun b => respects_bind ih fun bs => respects_pure (b :: bs)

end Respects

/-- From the states with a property a computation succeeds, with a property of its value. -/
def Returns (P : σ → Prop) (Q : α → Prop) (x : EStateM ε σ α) : Prop :=
  ∀ s, P s → ∃ a t, x s = .ok a t ∧ Q a ∧ P t

section Returns

variable {P : σ → Prop} {Q : α → Prop} {Q' : β → Prop}

theorem returns_pure {a : α} (ha : Q a) : Returns P Q (pure a : EStateM ε σ α) :=
  fun s hs => ⟨a, s, rfl, ha, hs⟩

theorem returns_bind {x : EStateM ε σ α} {f : α → EStateM ε σ β} (hx : Returns P Q x)
    (hf : ∀ a, Q a → Returns P Q' (f a)) : Returns P Q' (x >>= f) := by
  intro s hs
  obtain ⟨a, t, hfirst, ha, ht⟩ := hx s hs
  obtain ⟨b, u, hrest, hb, hu⟩ := hf a ha t ht
  exact ⟨b, u, (bind_ok hfirst).trans hrest, hb, hu⟩

theorem returns_mapM {f : α → EStateM ε σ β} {l : List α} (hf : ∀ a, Returns P Q' (f a)) :
    Returns P (fun bs => ∀ b ∈ bs, Q' b) (l.mapM f) := by
  induction l with
  | nil => exact returns_pure (by simp)
  | cons a l ih =>
      rw [List.mapM_cons]
      refine returns_bind (hf a) fun b hb => returns_bind ih fun bs hbs => returns_pure ?_
      exact List.forall_mem_cons.mpr ⟨hb, hbs⟩

end Returns

end Effect
