import Mathlib.Data.Nat.Notation

/-!
# Row locks

A lock is held by one transaction until that transaction ends.  Taking locks which nobody
else holds leaves the locks of the others alone, and so does the end of a transaction.
-/

/-- The transaction which holds each lock. -/
abbrev Locks (ρ : Type*) := ρ → Option ℕ

namespace Locks

variable {ρ : Type*} {locks : Locks ρ} {t u : ℕ} {r : ρ} {rs : List ρ}

def none : Locks ρ := fun _ => .none

/-- No other transaction holds the lock. -/
def available (locks : Locks ρ) (t : ℕ) (r : ρ) : Bool :=
  locks r = .none || locks r = some t

def acquire [DecidableEq ρ] (locks : Locks ρ) (t : ℕ) (rs : List ρ) : Locks ρ := fun r =>
  if r ∈ rs then some t else locks r

def release (locks : Locks ρ) (t : ℕ) : Locks ρ := fun r =>
  if locks r = some t then .none else locks r

theorem not_available_of_held (h : locks r = some u) (hne : u ≠ t) :
    locks.available t r = false := by
  simp [available, h, hne]

section

variable [DecidableEq ρ]

theorem acquire_self (h : r ∈ rs) : locks.acquire t rs r = some t := if_pos h

theorem acquire_of_held_self (h : locks r = some t) : locks.acquire t rs r = some t := by
  by_cases hr : r ∈ rs
  · exact acquire_self hr
  · exact (if_neg hr).trans h

/-- The locks of the others are kept. -/
theorem acquire_of_held (hrs : ∀ r ∈ rs, locks.available t r = true) (h : locks r = some u)
    (hne : u ≠ t) : locks.acquire t rs r = some u := by
  have hr : r ∉ rs := by
    intro hr
    have hbusy := not_available_of_held h hne
    rw [hrs r hr] at hbusy
    contradiction
  exact (if_neg hr).trans h

end

theorem release_of_held (h : locks r = some u) (hne : u ≠ t) : locks.release t r = some u := by
  have ht : locks r ≠ some t := by
    rw [h]
    exact fun heq => hne (Option.some.inj heq)
  exact (if_neg ht).trans h

end Locks
