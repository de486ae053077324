import Mathlib.Algebra.BigOperators.Group.List.Basic
import Mathlib.Algebra.Order.BigOperators.Group.List
import Mathlib.Algebra.Ring.Nat
import Mathlib.Data.List.Infix
import Mathlib.Logic.Function.Basic

/-!
# Placeholders

A text holds tokens in brackets among its other characters, and every occurrence of a token
is replaced by a value, one token after the other.  Where the values have no brackets and are
no shorter than the tokens, a replacement neither makes nor breaks another token: the result
is the text with all its placeholders filled in.
-/

namespace Placeholder

variable {α ι : Type*}

section Cut

variable [DecidableEq α]

/-- A text cut at the occurrences of a token, from the left on: `none` for an occurrence, and
every other character.  So many characters still belong to the last occurrence. -/
def cut (token : List α) : ℕ → List α → List (Option α)
  | _, [] => []
  | skip + 1, _ :: l => cut token skip l
  | 0, a :: l =>
      if token <+: a :: l then none :: cut token (token.length - 1) l
      else some a :: cut token 0 l

/-- Replace every occurrence of a token. -/
def replaceAll (token value l : List α) : List α :=
  (cut token 0 l).flatMap fun c => c.elim value fun a => [a]

/-- How many occurrences of a token there are. -/
def occurrences (token l : List α) : ℕ := (cut token 0 l).count none

theorem cut_skip (token w l : List α) : cut token w.length (w ++ l) = cut token 0 l := by
  induction w with
  | nil => rfl
  | cons a w ih => exact ih

theorem cut_token_append {token : List α} (h : token ≠ []) (l : List α) :
    cut token 0 (token ++ l) = none :: cut token 0 l := by
  obtain ⟨a, w, rfl⟩ := List.exists_cons_of_ne_nil h
  rw [List.cons_append, cut, ← List.cons_append, if_pos (List.prefix_append _ l), List.length_cons,
    Nat.add_sub_cancel, cut_skip]

theorem cut_cons_of_not_prefix {token l : List α} {a : α} (h : ¬token <+: a :: l) :
    cut token 0 (a :: l) = some a :: cut token 0 l := by
  rw [cut, if_neg h]

/-- A stretch without the first character of the token has no occurrence. -/
theorem cut_append_of_not_mem {first : α} {body w : List α} (h : first ∉ w) (l : List α) :
    cut (first :: body) 0 (w ++ l) = w.map some ++ cut (first :: body) 0 l := by
  induction w with
  | nil => rfl
  | cons a w ih =>
      have hne := List.ne_of_not_mem_cons h
      have hrest := List.not_mem_of_not_mem_cons h
      have hstart : ¬first :: body <+: a :: (w ++ l) := fun hp =>
        hne (List.cons_prefix_cons.mp hp).1
      rw [List.cons_append, cut_cons_of_not_prefix hstart, ih hrest, List.map_cons,
        List.cons_append]

end Cut

section Render

/-- A text made of characters and placeholders, the placeholders filled in. -/
def render (f : ι → List α) (t : List (α ⊕ ι)) : List α :=
  t.flatMap (Sum.elim (fun a => [a]) f)

variable {f : ι → List α} {t : List (α ⊕ ι)} {a : α} {i : ι}

@[simp] theorem render_nil : render f [] = [] := rfl

@[simp] theorem render_inl : render f (.inl a :: t) = a :: render f t := rfl

@[simp] theorem render_inr : render f (.inr i :: t) = f i ++ render f t := rfl

/-- Tokens are told apart, and stand in brackets which they do not have inside. -/
structure Bracketed (first last : α) (token : ι → List α) : Prop where
  distinct : first ≠ last
  injective : Function.Injective token
  shape : ∀ i, ∃ body, token i = first :: (body ++ [last]) ∧ first ∉ body ∧ last ∉ body

/-- No character of the text starts a token. -/
def Tight (token : ι → List α) : List (α ⊕ ι) → Prop
  | [] => True
  | .inl a :: t => (∀ i, ¬token i <+: a :: render token t) ∧ Tight token t
  | .inr _ :: t => Tight token t

/-- Every placeholder stands for its token, or for a value without brackets which is no
shorter than the tokens. -/
def Settled (first last : α) (token f : ι → List α) : Prop :=
  ∀ j, f j = token j ∨ first ∉ f j ∧ last ∉ f j ∧ ∀ i, (token i).length ≤ (f j).length

/-- The places of a placeholder. -/
def places [DecidableEq ι] (i : ι) : List (α ⊕ ι) → ℕ
  | [] => 0
  | .inl _ :: t => places i t
  | .inr j :: t => places i t + if j = i then 1 else 0

variable {first last : α} {token : ι → List α}

theorem Bracketed.ne_nil (h : Bracketed first last token) (i : ι) : token i ≠ [] := by
  obtain ⟨body, hbody, -⟩ := h.shape i
  rw [hbody]
  exact List.cons_ne_nil _ _

/-- Every text is made of characters which start no token, and of tokens. -/
theorem Bracketed.exists_tight (h : Bracketed first last token) (l : List α) :
    ∃ t, render token t = l ∧ Tight token t := by
  generalize hn : l.length = n
  induction n using Nat.strong_induction_on generalizing l with
  | _ n ih =>
    cases l with
    | nil => exact ⟨[], rfl, trivial⟩
    | cons a l =>
        by_cases htoken : ∃ i, token i <+: a :: l
        · obtain ⟨i, rest, hrest⟩ := htoken
          have hlt : rest.length < n := by
            have hpos := List.length_pos_of_ne_nil (h.ne_nil i)
            rw [← hn, ← hrest, List.length_append]
            omega
          obtain ⟨t, ht, htight⟩ := ih _ hlt rest rfl
          exact ⟨.inr i :: t, by rw [render_inr, ht, hrest], htight⟩
        · push Not at htoken
          obtain ⟨t, ht, htight⟩ := ih _ (by rw [← hn]; simp) l rfl
          refine ⟨.inl a :: t, by rw [render_inl, ht], ?_, htight⟩
          rwa [ht]

/-- What follows an opening bracket up to the closing one does not reach over a placeholder. -/
theorem prefix_render (h : Bracketed first last token) (hf : Settled first last token f)
    {u : List α} (hu : first ∉ u) (hlength : ∃ i, (u ++ [last]).length ≤ (token i).length)
    (hstart : u ++ [last] <+: render f t) : u ++ [last] <+: render token t := by
  induction t generalizing u with
  | nil => exact hstart
  | cons piece t ih =>
      cases piece with
      | inl a =>
          rw [render_inl] at hstart ⊢
          cases u with
          | nil =>
              obtain ⟨rfl, -⟩ := List.cons_prefix_cons.mp hstart
              exact List.cons_prefix_cons.mpr ⟨rfl, List.nil_prefix⟩
          | cons b u =>
              obtain ⟨rfl, hrest⟩ := List.cons_prefix_cons.mp hstart
              obtain ⟨i, hi⟩ := hlength
              refine List.cons_prefix_cons.mpr ⟨rfl, ih (List.not_mem_of_not_mem_cons hu) ?_ hrest⟩
              exact ⟨i, (Nat.le_succ _).trans hi⟩
      | inr j =>
          rw [render_inr] at hstart
          obtain ⟨i, hi⟩ := hlength
          rcases hf j with htoken | ⟨-, hlast, hlong⟩
          · obtain ⟨body, hbody, -⟩ := h.shape j
            rw [htoken, hbody] at hstart
            cases u with
            | nil => exact absurd (List.cons_prefix_cons.mp hstart).1.symm h.distinct
            | cons b u =>
                obtain ⟨rfl, -⟩ := List.cons_prefix_cons.mp hstart
                exact absurd List.mem_cons_self hu
          · have hinside : u ++ [last] <+: f j :=
              List.prefix_of_prefix_length_le hstart (List.prefix_append ..)
                (hi.trans (hlong i))
            exact absurd (hinside.subset (by simp)) hlast

/-- What holds of the tokens of a text holds of it with values filled in. -/
theorem not_prefix_render (h : Bracketed first last token) (hf : Settled first last token f)
    (ht : Tight token (.inl a :: t)) (i : ι) : ¬token i <+: a :: render f t := by
  intro hstart
  obtain ⟨body, hbody, hfirst, -⟩ := h.shape i
  refine ht.1 i ?_
  rw [hbody] at hstart ⊢
  obtain ⟨rfl, hrest⟩ := List.cons_prefix_cons.mp hstart
  refine List.cons_prefix_cons.mpr ⟨rfl, prefix_render h hf hfirst ⟨i, ?_⟩ hrest⟩
  rw [hbody]
  exact Nat.le_succ _

/-- Two tokens of which one starts the other are one. -/
theorem Bracketed.eq_of_prefix (h : Bracketed first last token) {i j : ι} {l : List α}
    (hstart : token i <+: token j ++ l) : i = j := by
  obtain ⟨body, hbody, -, hlast⟩ := h.shape i
  obtain ⟨body', hbody', -, hlast'⟩ := h.shape j
  have hsame : ∀ u v : List α, last ∉ u → last ∉ v → u ++ [last] <+: v ++ last :: l → u = v := by
    intro u
    induction u with
    | nil =>
        intro v _ hv hp
        cases v with
        | nil => rfl
        | cons b v => exact absurd (List.cons_prefix_cons.mp hp).1 (List.ne_of_not_mem_cons hv)
    | cons a u ih =>
        intro v hu hv hp
        cases v with
        | nil =>
            exact absurd (List.cons_prefix_cons.mp hp).1.symm (List.ne_of_not_mem_cons hu)
        | cons b v =>
            obtain ⟨rfl, hrest⟩ := List.cons_prefix_cons.mp hp
            rw [ih v (List.not_mem_of_not_mem_cons hu) (List.not_mem_of_not_mem_cons hv) hrest]
  rw [hbody, hbody', List.cons_append, List.append_assoc] at hstart
  have hbodies := hsame body body' hlast hlast' (List.cons_prefix_cons.mp hstart).2
  exact h.injective (by rw [hbody, hbody', hbodies])

variable [DecidableEq α] [DecidableEq ι]

/-- The occurrences of a token are the placeholders which stand for it. -/
theorem cut_render (h : Bracketed first last token) (hf : Settled first last token f)
    (ht : Tight token t) (hi : f i = token i) : cut (token i) 0 (render f t) =
      t.flatMap (Sum.elim (fun a => [some a])
        fun j => if j = i then [none] else (f j).map some) := by
  induction t with
  | nil => rfl
  | cons piece t ih =>
      cases piece with
      | inl a =>
          rw [render_inl, cut_cons_of_not_prefix (not_prefix_render h hf ht i), ih ht.2]
          rfl
      | inr j =>
          have hrest := ih ht
          rw [render_inr, List.flatMap_cons, ← hrest]
          by_cases hj : j = i
          · rw [hj, hi, cut_token_append (h.ne_nil i)]
            simp
          · obtain ⟨body, hbody, -⟩ := h.shape i
            simp only [Sum.elim_inr, hj, if_false]
            rcases hf j with htoken | ⟨hfirst, -⟩
            · obtain ⟨body', hbody', hfirst', -⟩ := h.shape j
              have hnot : ¬token i <+: first :: (body' ++ [last] ++ render f t) := by
                intro hstart
                rw [← List.cons_append, ← hbody'] at hstart
                exact hj (h.eq_of_prefix hstart).symm
              have hinside : first ∉ body' ++ [last] := by
                simp [hfirst', h.distinct]
              rw [htoken, hbody', List.cons_append, cut_cons_of_not_prefix hnot, hbody,
                cut_append_of_not_mem hinside]
              rfl
            · rw [hbody, cut_append_of_not_mem hfirst]

/-- Replacing a token fills in its placeholders. -/
theorem replaceAll_render (h : Bracketed first last token) (hf : Settled first last token f)
    (ht : Tight token t) (hi : f i = token i) (value : List α) :
    replaceAll (token i) value (render f t) = render (Function.update f i value) t := by
  rw [replaceAll, cut_render h hf ht hi, render, List.flatMap_assoc]
  congr 1
  funext piece
  cases piece with
  | inl a => rfl
  | inr j =>
      by_cases hj : j = i
      · subst hj
        simp
      · simp [hj, List.flatMap_map]

theorem occurrences_render (h : Bracketed first last token) (hf : Settled first last token f)
    (ht : Tight token t) (hi : f i = token i) :
    occurrences (token i) (render f t) = places i t := by
  rw [occurrences, cut_render h hf ht hi]
  clear ht
  induction t with
  | nil => rfl
  | cons piece t ih =>
      rw [List.flatMap_cons, List.count_append, ih]
      cases piece with
      | inl a => simp [places]
      | inr j =>
          by_cases hj : j = i
          · simp [places, hj, Nat.add_comm]
          · have hnone : none ∉ (f j).map some := by simp
            simp [places, hj, List.count_eq_zero_of_not_mem hnone]

omit [DecidableEq α] [DecidableEq ι] in
/-- A text whose placeholders are filled with values has no token. -/
theorem not_infix_render (h : Bracketed first last token) (hf : Settled first last token f)
    (ht : Tight token t) (hvalues : ∀ j, first ∉ f j) (i : ι) : ¬token i <:+: render f t := by
  induction t with
  | nil =>
      intro hinfix
      exact h.ne_nil i (List.infix_nil.mp hinfix)
  | cons piece t ih =>
      cases piece with
      | inl a =>
          rw [render_inl, List.infix_cons_iff]
          exact not_or.mpr ⟨not_prefix_render h hf ht i, ih ht.2⟩
      | inr j =>
          obtain ⟨body, hbody, -⟩ := h.shape i
          have hskip : ∀ w : List α, first ∉ w → ¬token i <:+: w ++ render f t := by
            intro w hw
            induction w with
            | nil => exact ih ht
            | cons a w ihw =>
                rw [List.cons_append, List.infix_cons_iff, hbody]
                refine not_or.mpr ⟨fun hstart => ?_, ?_⟩
                · exact List.ne_of_not_mem_cons hw (List.cons_prefix_cons.mp hstart).1
                · rw [← hbody]
                  exact ihw (List.not_mem_of_not_mem_cons hw)
          exact hskip (f j) (hvalues j)

omit [DecidableEq α] in
/-- Longer values for a placeholder add to the size once for each place. -/
theorem sum_render_update (size : α → ℕ) (value : List α) (t : List (α ⊕ ι)) :
    ((render (Function.update f i value) t).map size).sum + places i t * ((f i).map size).sum =
      ((render f t).map size).sum + places i t * (value.map size).sum := by
  induction t with
  | nil => simp [places]
  | cons piece t ih =>
      cases piece with
      | inl a =>
          rw [render_inl, render_inl, List.map_cons, List.sum_cons, List.map_cons, List.sum_cons,
            places]
          omega
      | inr j =>
          rw [render_inr, render_inr, List.map_append, List.sum_append, List.map_append,
            List.sum_append, places]
          by_cases hj : j = i
          · rw [hj, Function.update_self, if_pos rfl, Nat.succ_mul, Nat.succ_mul]
            omega
          · rw [Function.update_of_ne hj, if_neg hj, Nat.add_zero]
            omega

end Render

section Ends

variable {f f' : ι → List α} {t : List (α ⊕ ι)} {P : α → Prop}

/-- A property of the first character of the text which all values have passes over to it
with values filled in. -/
theorem forall_head?_render (hne : ∀ j, f j ≠ []) (hvalues : ∀ j, ∀ a ∈ f j, P a)
    (h : ∀ a ∈ (render f' t).head?, P a) : ∀ a ∈ (render f t).head?, P a := by
  intro a ha
  cases t with
  | nil => cases ha
  | cons piece t =>
      cases piece with
      | inl b => exact h a ha
      | inr j =>
          rw [render_inr, List.head?_append_of_ne_nil _ (hne j)] at ha
          exact hvalues j a (List.mem_of_mem_head? ha)

theorem forall_getLast?_render (hne : ∀ j, f j ≠ []) (hvalues : ∀ j, ∀ a ∈ f j, P a)
    (h : ∀ a ∈ (render f' t).getLast?, P a) : ∀ a ∈ (render f t).getLast?, P a := by
  intro a ha
  induction t using List.reverseRecOn with
  | nil => cases ha
  | append_singleton t piece _ =>
      have hconcat : ∀ g : ι → List α, render g (t ++ [piece]) =
          render g t ++ Sum.elim (fun a => [a]) g piece := fun g => by
        simp [render]
      rw [hconcat] at ha
      cases piece with
      | inl b =>
          refine h a ?_
          rw [hconcat]
          simpa using ha
      | inr j =>
          rw [Sum.elim_inr, List.getLast?_append_of_ne_nil _ (hne j)] at ha
          exact hvalues j a (List.mem_of_getLast? ha)

end Ends

end Placeholder
