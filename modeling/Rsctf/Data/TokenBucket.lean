import Mathlib.Algebra.Order.Group.Nat
import Mathlib.Algebra.BigOperators.Group.List.Basic
import Mathlib.Tactic.Ring

/-!
# Token buckets

A bucket holds at most its capacity and is filled at a constant rate; what is taken must be
in it.  What was taken can be told from windows of time alone: an amount can be taken exactly
when in every window which ends now the amounts taken, with the new one, are at most the
capacity and what flowed in since the beginning of the window.
-/

namespace Bucket

/-- An amount and the instant at which it was taken. -/
structure Charge where
  time : ℕ
  amount : ℕ

variable {capacity rate : ℕ}

/-- What is in the bucket some time after it held an amount. -/
def fill (capacity rate amount elapsed : ℕ) : ℕ := min capacity (amount + rate * elapsed)

theorem fill_le (amount elapsed : ℕ) : fill capacity rate amount elapsed ≤ capacity :=
  Nat.min_le_left _ _

theorem fill_fill (amount first second : ℕ) :
    fill capacity rate (fill capacity rate amount first) second =
      fill capacity rate amount (first + second) := by
  unfold fill
  rw [Nat.mul_add]
  omega

theorem fill_zero {amount : ℕ} (h : amount ≤ capacity) : fill capacity rate amount 0 = amount := by
  rw [fill, Nat.mul_zero, Nat.add_zero, Nat.min_eq_right h]

/-- The content of a bucket, full at first, after some charges, the latest one first. -/
def level (capacity rate : ℕ) : List Charge → ℕ → ℕ
  | [], _ => capacity
  | charge :: past, now =>
    fill capacity rate (level capacity rate past charge.time - charge.amount) (now - charge.time)

theorem level_le (past : List Charge) (now : ℕ) : level capacity rate past now ≤ capacity := by
  cases past with
  | nil => exact le_refl capacity
  | cons charge past => exact fill_le _ _

/-- Time passes without a charge. -/
theorem fill_level {past : List Charge} {now later : ℕ}
    (hpast : ∀ charge ∈ past.head?, charge.time ≤ now)
    (h : now ≤ later) :
    fill capacity rate (level capacity rate past now) (later - now) =
      level capacity rate past later := by
  cases past with
  | nil =>
      rw [level, fill]
      exact Nat.min_eq_left (Nat.le_add_right _ _)
  | cons charge past =>
      have htime : charge.time ≤ now := hpast charge rfl
      rw [level, fill_fill, level]
      congr 1
      omega

/-- The charges were made in this order, the latest one first, and not after an instant. -/
def Ordered : List Charge → ℕ → Prop
  | [], _ => True
  | charge :: past, now => charge.time ≤ now ∧ Ordered past charge.time

/-- Every charge was in the bucket. -/
def Covered (capacity rate : ℕ) : List Charge → Prop
  | [] => True
  | charge :: past =>
    charge.amount ≤ level capacity rate past charge.time ∧ Covered capacity rate past

def total (charges : List Charge) : ℕ := (charges.map (·.amount)).sum

/-- An amount keeps to the capacity and the rate in every window which ends now; a window
begins with one of the charges. -/
def Conforms (capacity rate : ℕ) (past : List Charge) (now amount : ℕ) : Prop :=
  amount ≤ capacity ∧ ∀ recent first older, past = recent ++ first :: older →
    total (recent ++ [first]) + amount ≤ capacity + rate * (now - first.time)

theorem total_cons (charge : Charge) (charges : List Charge) :
    total (charge :: charges) = charge.amount + total charges := by
  rw [total, List.map_cons, List.sum_cons, total]

theorem Ordered.head {past : List Charge} {now : ℕ} (h : Ordered past now) :
    ∀ charge ∈ past.head?, charge.time ≤ now := by
  cases past with
  | nil => exact fun _ hcharge => by cases hcharge
  | cons charge past =>
      intro other hother
      obtain rfl := Option.some.inj hother
      exact h.1

theorem Ordered.mono {past : List Charge} {now later : ℕ} (h : Ordered past now)
    (hlater : now ≤ later) : Ordered past later := by
  cases past with
  | nil => exact trivial
  | cons charge past => exact ⟨h.1.trans hlater, h.2⟩

theorem Ordered.le_of_mem {past : List Charge} {now : ℕ} (h : Ordered past now) :
    ∀ charge ∈ past, charge.time ≤ now := by
  induction past generalizing now with
  | nil => exact fun _ hcharge => by cases hcharge
  | cons charge past ih =>
      intro other hother
      rcases List.mem_cons.mp hother with rfl | hother
      · exact h.1
      · exact (ih h.2 other hother).trans h.1

/-- The windows over a charge and its past are the window of the charge alone and the windows
over the past, each with the charge. -/
theorem conforms_cons {charge : Charge} {past : List Charge} {now amount : ℕ} :
    Conforms capacity rate (charge :: past) now amount ↔
      amount ≤ capacity ∧ charge.amount + amount ≤ capacity + rate * (now - charge.time) ∧
      ∀ recent first older, past = recent ++ first :: older →
        charge.amount + total (recent ++ [first]) + amount ≤
          capacity + rate * (now - first.time) := by
  constructor
  · intro ⟨hamount, hwindows⟩
    refine ⟨hamount, ?_, fun recent first older heq => ?_⟩
    · simpa [total] using hwindows [] charge past rfl
    · have hwindow := hwindows (charge :: recent) first older (by rw [heq]; rfl)
      rwa [List.cons_append, total_cons] at hwindow
  · rintro ⟨hamount, hcharge, hpast⟩
    refine ⟨hamount, fun recent first older heq => ?_⟩
    cases recent with
    | nil =>
        obtain ⟨rfl, -⟩ := List.cons.inj heq
        simpa [total] using hcharge
    | cons other recent =>
        obtain ⟨rfl, htail⟩ := List.cons.inj heq
        rw [List.cons_append, total_cons]
        exact hpast recent first older htail

/-- What can be taken is what conforms; by induction on the past, where the last charge counts
for the windows before it with what has not flowed in since. -/
theorem le_level_iff {past : List Charge} {now amount : ℕ} (hordered : Ordered past now)
    (hcovered : Covered capacity rate past) :
    amount ≤ level capacity rate past now ↔ Conforms capacity rate past now amount := by
  induction past generalizing now amount with
  | nil => exact ⟨fun h => ⟨h, fun _ _ _ heq => by simp at heq⟩, fun h => h.1⟩
  | cons charge past ih =>
      obtain ⟨htime, hpast⟩ := hordered
      obtain ⟨hcharge, hcovered⟩ := hcovered
      have hflow : ∀ first ∈ past, rate * (now - first.time) =
          rate * (charge.time - first.time) + rate * (now - charge.time) := by
        intro first hfirst
        have hle := hpast.le_of_mem first hfirst
        rw [← Nat.mul_add]
        congr 1
        omega
      have hbefore := @ih charge.time (charge.amount + amount - rate * (now - charge.time)) hpast
        hcovered
      have hzero := (@ih charge.time 0 hpast hcovered).mp (Nat.zero_le _)
      rw [conforms_cons, level, fill, le_min_iff]
      constructor
      · rintro ⟨hcapacity, hamount⟩
        obtain ⟨hlast, hwindows⟩ := hbefore.mp (by omega)
        refine ⟨hcapacity, by omega, fun recent first older heq => ?_⟩
        have hmem : first ∈ past := by rw [heq]; simp
        have hwindow := hwindows recent first older heq
        have hzero := hzero.2 recent first older heq
        rw [hflow first hmem]
        omega
      · rintro ⟨hcapacity, hlast, hwindows⟩
        refine ⟨hcapacity, ?_⟩
        have hconforms : Conforms capacity rate past charge.time
            (charge.amount + amount - rate * (now - charge.time)) := by
          refine ⟨by omega, fun recent first older heq => ?_⟩
          have hmem : first ∈ past := by rw [heq]; simp
          have hwindow := hwindows recent first older heq
          have hzero := hzero.2 recent first older heq
          rw [hflow first hmem] at hwindow
          omega
        have hle := hbefore.mpr hconforms
        omega

end Bucket
