import Rsctf.Data.Keyed

/-!
# Reading a table with hidden rows

A query which only takes rows that satisfy a condition reads the same from the table
and from what remains of it when the other rows are hidden.
-/

open Keyed

namespace Hidden

variable {α β κ : Type*} {p q : α → Bool} {l : List α}

theorem filter_filter (h : ∀ a ∈ l, p a = true → q a = true) :
    (l.filter q).filter p = l.filter p := by
  rw [List.filter_filter]
  apply List.filter_congr
  intro a ha
  cases hp : p a with
  | false => rfl
  | true => exact h a ha hp

theorem find?_filter (h : ∀ a ∈ l, p a = true → q a = true) :
    (l.filter q).find? p = l.find? p := by
  rw [← List.head?_filter, ← List.head?_filter, filter_filter h]

theorem filterMap_filter {f : α → Option β} (h : ∀ a ∈ l, (f a).isSome → q a = true) :
    (l.filter q).filterMap f = l.filterMap f := by
  rw [List.filterMap_filter]
  apply List.filterMap_congr
  intro a ha
  cases hq : q a with
  | true => rfl
  | false =>
      cases hf : f a with
      | none => rfl
      | some b => exact absurd (h a ha (by simp [hf])) (by simp [hq])

theorem rows_filter [DecidableEq κ] {key : α → κ} {k : κ}
    (h : ∀ a ∈ l, key a = k → q a = true) : rows key k (l.filter q) = rows key k l :=
  filter_filter fun a ha hk => h a ha (of_decide_eq_true hk)

end Hidden
