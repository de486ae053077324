import Mathlib.Data.List.Induction
import Mathlib.Data.List.Nodup
import Mathlib.Data.List.Range
import Mathlib.Order.Lattice

/-!
# Consecutive numbers

The keys of a journal are numbered when they are `1, 2, …` without a gap.
-/

namespace Numbering

/-- The numbers from one without a gap, in increasing order. -/
def Numbered (ks : List ℤ) : Prop :=
  ks = (List.range ks.length).map fun i : ℕ => (i : ℤ) + 1

theorem numbered_nil : Numbered [] := rfl

theorem numbered_append_singleton {ks : List ℤ} {k : ℤ} :
    Numbered (ks ++ [k]) ↔ Numbered ks ∧ k = ks.length + 1 := by
  simp only [Numbered, List.length_append, List.length_singleton, List.range_succ,
    List.map_append, List.map_cons, List.map_nil]
  constructor
  · intro h
    obtain ⟨hks, hlast⟩ := List.append_inj' h rfl
    exact ⟨hks, List.singleton_inj.mp hlast⟩
  · rintro ⟨hks, hlast⟩
    rw [← hks, hlast]

namespace Numbered

variable {ks ls : List ℤ}

theorem of_append (h : Numbered (ks ++ ls)) : Numbered ks := by
  induction ls using List.reverseRecOn with
  | nil => simpa using h
  | append_singleton ls k ih =>
      rw [← List.append_assoc, numbered_append_singleton] at h
      exact ih h.1

theorem of_map_append {α : Type*} {key : α → ℤ} {l₁ l₂ : List α}
    (h : Numbered ((l₁ ++ l₂).map key)) : Numbered (l₁.map key) := by
  rw [List.map_append] at h
  exact h.of_append

/-- The number before the next one is the last number. -/
theorem previous {j k : ℤ} (h : Numbered (ks ++ [j] ++ [k])) : k - 1 = j := by
  obtain ⟨hks, hk⟩ := numbered_append_singleton.mp h
  obtain ⟨-, hj⟩ := numbered_append_singleton.mp hks
  simp only [List.length_append, List.length_singleton] at hk
  omega

theorem pairwise (h : Numbered ks) : ks.Pairwise (· < ·) := by
  rw [h]
  exact List.pairwise_lt_range.map _ fun i j hij => by omega

theorem nodup (h : Numbered ks) : ks.Nodup := h.pairwise.imp fun hlt => hlt.ne

theorem mem_iff (h : Numbered ks) {k : ℤ} : k ∈ ks ↔ 1 ≤ k ∧ k ≤ ks.length := by
  rw [h, List.mem_map]
  simp only [List.mem_range, List.length_map, List.length_range]
  constructor
  · rintro ⟨i, hi, rfl⟩
    omega
  · rintro ⟨hpos, hle⟩
    exact ⟨(k - 1).toNat, by omega, by omega⟩

end Numbered

/-- The blocks of a width which follow one another from a start on, counted from one. -/
theorem block_eq_iff {start width number k : ℤ} (hwidth : 0 < width) (h : start ≤ number) :
    (number - start).tdiv width + 1 = k ↔
      start + (k - 1) * width ≤ number ∧ number < start + k * width := by
  have hdiv : (number - start).tdiv width = (number - start) / width :=
    Int.tdiv_eq_ediv_of_nonneg (by omega)
  have hlow := Int.le_ediv_iff_mul_le (a := k - 1) (b := number - start) hwidth
  have hhigh := Int.ediv_lt_iff_lt_mul (a := number - start) (b := k) hwidth
  rw [hdiv]
  constructor
  · intro heq
    have hle := hlow.mp (by omega)
    have hlt := hhigh.mp (by omega)
    omega
  · intro ⟨hle, hlt⟩
    have hle := hlow.mpr (by omega)
    have hlt := hhigh.mpr (by omega)
    omega

theorem exists_min {l : List ℤ} (h : l ≠ []) : l.min?.getD 0 ∈ l ∧ ∀ b ∈ l, l.min?.getD 0 ≤ b := by
  cases hmin : l.min? with
  | none => exact absurd (List.min?_eq_none_iff.mp hmin) h
  | some a => exact List.min?_eq_some_iff.mp hmin

theorem exists_max {l : List ℤ} (h : l ≠ []) : l.max?.getD 0 ∈ l ∧ ∀ b ∈ l, b ≤ l.max?.getD 0 := by
  cases hmax : l.max? with
  | none => exact absurd (List.max?_eq_none_iff.mp hmax) h
  | some a => exact List.max?_eq_some_iff.mp hmax

/-- The largest number is the last one. -/
theorem Numbered.max?_getD {ks : List ℤ} (h : Numbered ks) : ks.max?.getD 0 = ks.length := by
  cases ks with
  | nil => rfl
  | cons k ks =>
      obtain ⟨hmem, hmax⟩ := exists_max (List.cons_ne_nil k ks)
      have hlast : ((k :: ks).length : ℤ) ∈ k :: ks :=
        h.mem_iff.mpr ⟨by rw [List.length_cons]; omega, le_rfl⟩
      exact le_antisymm (h.mem_iff.mp hmem).2 (hmax _ hlast)

/-- The numbers from a first one on, without a gap. -/
def Consecutive : ℤ → List ℤ → Prop
  | _, [] => True
  | k, j :: js => j = k ∧ Consecutive (k + 1) js

/-- Increasing numbers which leave out none between the first one and themselves. -/
theorem consecutive_of_pairwise {k : ℤ} {ks : List ℤ} (hsorted : ks.Pairwise (· < ·))
    (h : ∀ j ∈ ks, k ≤ j ∧ ∀ i, k ≤ i → i ≤ j → i ∈ ks) : Consecutive k ks := by
  induction ks generalizing k with
  | nil => trivial
  | cons j js ih =>
      obtain ⟨hlt, hsorted⟩ := List.pairwise_cons.mp hsorted
      obtain ⟨hle, hall⟩ := h j List.mem_cons_self
      have hj : j = k := by
        rcases List.mem_cons.mp (hall k le_rfl hle) with rfl | hk
        · rfl
        · have hjk := hlt k hk
          omega
      subst hj
      refine ⟨rfl, ih hsorted fun i hi => ⟨hlt i hi, fun i' hlow hhigh => ?_⟩⟩
      have hmem := (h i (List.mem_cons_of_mem j hi)).2 i' (by omega) hhigh
      rcases List.mem_cons.mp hmem with rfl | hmem
      · omega
      · exact hmem

end Numbering
