import Mathlib.Computability.Language
import Mathlib.Data.List.Basic

/-!
# Delimited lists

A language of items with separators between them.  With one character as the separator, which
the items do not have, a word is taken apart by splitting it.
-/

open Computability

namespace Delimited

variable {α : Type*} {item separator : Language α} {l w : List α} {c : α}

/-- One item, and further ones after separators. -/
def delimited (item separator : Language α) : Language α := item * (separator * item)∗

theorem delimited_eq (item separator : Language α) :
    delimited item separator = item + item * (separator * delimited item separator) := by
  have hstar : (separator * item)∗ = 1 + separator * item * (separator * item)∗ :=
    (Language.one_add_self_mul_kstar_eq_kstar _).symm
  calc delimited item separator
      = item * (1 + separator * item * (separator * item)∗) := by rw [delimited, ← hstar]
    _ = item + item * (separator * delimited item separator) := by
        rw [delimited, mul_add, mul_one, mul_assoc separator]

theorem item_mem_delimited (h : w ∈ item) : w ∈ delimited item separator := by
  rw [delimited_eq]
  exact .inl h

theorem append_mem_delimited {s : List α} (hw : w ∈ item) (hs : s ∈ separator)
    (hl : l ∈ delimited item separator) : w ++ (s ++ l) ∈ delimited item separator := by
  rw [delimited_eq]
  exact .inr (Language.append_mem_mul hw (Language.append_mem_mul hs hl))

/-- What holds of the items and passes over a separator holds of the delimited words. -/
theorem delimited_induction {P : List α → Prop} (hitem : ∀ w ∈ item, P w)
    (hmore : ∀ w s l, w ∈ item → s ∈ separator → l ∈ delimited item separator → P l →
      P (w ++ (s ++ l))) (h : l ∈ delimited item separator) : P l := by
  obtain ⟨w, hw, tail, htail, rfl⟩ := Language.mem_mul.mp h
  obtain ⟨steps, rfl, hsteps⟩ := Language.mem_kstar.mp htail
  clear h htail
  induction steps generalizing w with
  | nil => simpa using hitem w hw
  | cons step steps ih =>
      obtain ⟨s, hs, w', hw', rfl⟩ := Language.mem_mul.mp (hsteps step List.mem_cons_self)
      have hrest : ∀ y ∈ steps, y ∈ separator * item := fun y hy =>
        hsteps y (List.mem_cons_of_mem _ hy)
      have hl : w' ++ steps.flatten ∈ delimited item separator :=
        Language.append_mem_mul hw' (Language.join_mem_kstar hrest)
      have hmore := hmore w s _ hw hs hl (ih w' hw' hrest)
      simpa using hmore

theorem intercalate_mem_delimited {parts : List (List α)} (hne : parts ≠ [])
    (h : ∀ part ∈ parts, part ∈ item) : [c].intercalate parts ∈ delimited item {[c]} := by
  induction parts with
  | nil => exact absurd rfl hne
  | cons part parts ih =>
      have hpart := h part List.mem_cons_self
      cases parts with
      | nil => simpa using item_mem_delimited hpart
      | cons next parts =>
          rw [List.intercalate_cons_cons]
          have hrest := ih (List.cons_ne_nil _ _) fun p hp => h p (List.mem_cons_of_mem part hp)
          have hseparator : [c] ∈ ({[c]} : Language α) := rfl
          simpa using append_mem_delimited hpart hseparator hrest

/-- A character which is neither in the items nor the separator is not in a delimited word. -/
theorem not_mem_of_mem_delimited {a : α} (hitem : ∀ w ∈ item, a ∉ w)
    (hseparator : ∀ s ∈ separator, a ∉ s) (h : l ∈ delimited item separator) : a ∉ l := by
  refine delimited_induction (P := fun l => a ∉ l) hitem ?_ h
  intro w s l hw hs _ hl hmem
  rcases List.mem_append.mp hmem with hmem | hmem
  · exact hitem w hw hmem
  · rcases List.mem_append.mp hmem with hmem | hmem
    · exact hseparator s hs hmem
    · exact hl hmem

/-- An element other than the separator is in one of the parts. -/
theorem exists_part [DecidableEq α] {a : α} (ha : a ∈ l) (hne : a ≠ c) :
    ∃ part ∈ l.splitOn c, a ∈ part := by
  by_contra hnone
  push Not at hnone
  have hmem : l ∈ delimited {part : List α | a ∉ part} {[c]} := by
    have hjoin : [c].intercalate (l.splitOn c) = l := List.intercalate_splitOn c
    rw [← hjoin]
    exact intercalate_mem_delimited (List.splitOn_ne_nil c l) hnone
  refine not_mem_of_mem_delimited (fun w hw => hw) ?_ hmem ha
  rintro s (rfl : s = [c])
  simpa using hne

/-- Splitting takes a word apart into its items. -/
theorem mem_delimited_iff [DecidableEq α] (h : ∀ w ∈ item, c ∉ w) :
    l ∈ delimited item {[c]} ↔ ∀ part ∈ l.splitOn c, part ∈ item := by
  constructor
  · refine delimited_induction (P := fun l => ∀ part ∈ l.splitOn c, part ∈ item) ?_ ?_
    · intro w hw part hpart
      rw [List.splitOn_eq_singleton (h w hw), List.mem_singleton] at hpart
      exact hpart ▸ hw
    · intro w s l hw hs _ ih part hpart
      obtain rfl : s = [c] := hs
      rw [List.singleton_append, List.splitOn_append_cons_self_of_not_mem (h w hw),
        List.mem_cons] at hpart
      rcases hpart with rfl | hpart
      · exact hw
      · exact ih part hpart
  · intro hparts
    have hjoin : [c].intercalate (l.splitOn c) = l := List.intercalate_splitOn c
    rw [← hjoin]
    exact intercalate_mem_delimited (List.splitOn_ne_nil c l) hparts

end Delimited
