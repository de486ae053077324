import Mathlib.Data.List.Induction

/-!
# Runs of a transition system

A run is a list of labelled steps from one state to another.  What every step preserves,
a run preserves; what is said about a state together with the labels that led to it is
proved by appending one label at a time.
-/

variable {σ ε : Type*}

/-- The runs of a labelled step relation. -/
inductive StepPath (step : σ → ε → σ → Prop) : σ → List ε → σ → Prop
  | nil (s : σ) : StepPath step s [] s
  | cons {s t u : σ} {e : ε} {es : List ε} :
      step s e t → StepPath step t es u → StepPath step s (e :: es) u

namespace StepPath

variable {step : σ → ε → σ → Prop} {s t u : σ} {e : ε} {es fs : List ε}

theorem append (h : StepPath step s es t) (h' : StepPath step t fs u) : StepPath step s (es ++ fs) u := by
  induction h with
  | nil => exact h'
  | cons hstep _ ih => exact .cons hstep (ih h')

theorem snoc (h : StepPath step s es t) (hstep : step t e u) : StepPath step s (es ++ [e]) u :=
  h.append (.cons hstep (.nil u))

theorem of_append (h : StepPath step s (es ++ fs) u) :
    ∃ t, StepPath step s es t ∧ StepPath step t fs u := by
  induction es generalizing s with
  | nil => exact ⟨s, .nil s, h⟩
  | cons e es ih =>
      cases h with
      | cons hstep hrest =>
          obtain ⟨t, hes, hfs⟩ := ih hrest
          exact ⟨t, .cons hstep hes, hfs⟩

/-- A run through a given label. -/
theorem of_middle (h : StepPath step s (es ++ e :: fs) u) :
    ∃ a b, StepPath step s es a ∧ step a e b ∧ StepPath step b fs u := by
  obtain ⟨a, hes, hrest⟩ := of_append h
  cases hrest with
  | cons hstep hfs => exact ⟨a, _, hes, hstep, hfs⟩

/-- What every step preserves holds at the end of a run. -/
theorem invariant {P : σ → Prop} (hstep : ∀ s e t, P s → step s e t → P t)
    (h : StepPath step s es t) (hs : P s) : P t := by
  induction h with
  | nil => exact hs
  | cons hfirst _ ih => exact ih (hstep _ _ _ hs hfirst)

/-- What the steps with some labels preserve holds at the end of a run of such labels. -/
theorem invariant_on {P : σ → Prop} {Q : ε → Prop}
    (hstep : ∀ s e t, Q e → P s → step s e t → P t) (h : StepPath step s es t)
    (hlabels : ∀ e ∈ es, Q e) (hs : P s) : P t := by
  induction h with
  | nil => exact hs
  | cons hfirst _ ih =>
      have hnext := hstep _ _ _ (hlabels _ List.mem_cons_self) hs hfirst
      exact ih (fun e he => hlabels e (List.mem_cons_of_mem _ he)) hnext

/-- A preorder which every step follows is followed by every run. -/
theorem related {R : σ → σ → Prop} (hrefl : ∀ s, R s s) (htrans : ∀ s t u, R s t → R t u → R s u)
    (hstep : ∀ s e t, step s e t → R s t) (h : StepPath step s es t) : R s t := by
  induction h with
  | nil => exact hrefl _
  | cons hfirst _ ih => exact htrans _ _ _ (hstep _ _ _ hfirst) ih

/-- What holds of a state and the labels before it, by appending one label at a time. -/
theorem history {P : List ε → σ → Prop} (hnil : P [] s)
    (hstep : ∀ es t e u, P es t → step t e u → P (es ++ [e]) u) (h : StepPath step s es t) :
    P es t := by
  induction es using List.reverseRecOn generalizing t with
  | nil =>
      cases h with
      | nil => exact hnil
  | append_singleton es e ih =>
      obtain ⟨m, hes, hlast⟩ := of_append h
      cases hlast with
      | cons hfirst hrest =>
          cases hrest with
          | nil => exact hstep es m e _ (ih hes) hfirst

/-- Steps of one system that are steps of another. -/
theorem mono {step' : σ → ε → σ → Prop} (h : StepPath step s es t)
    (hstep : ∀ s e t, step s e t → step' s e t) : StepPath step' s es t := by
  induction h with
  | nil s => exact .nil s
  | cons hfirst _ ih => exact .cons (hstep _ _ _ hfirst) ih

/-- A run of a step function is a path of its graph. -/
theorem of_foldlM {f : σ → ε → Option σ} (h : es.foldlM f s = some t) :
    StepPath (fun s e t => f s e = some t) s es t := by
  induction es generalizing s with
  | nil =>
      obtain rfl : s = t := by simpa using h
      exact .nil s
  | cons e es ih =>
      rw [List.foldlM_cons] at h
      cases hf : f s e with
      | none => simp [hf] at h
      | some m =>
          rw [hf] at h
          exact .cons hf (ih h)

end StepPath
