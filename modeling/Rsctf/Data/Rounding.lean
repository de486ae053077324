import Mathlib.Algebra.Order.Round
import Mathlib.Data.Int.Log
import Mathlib.Data.Rat.Floor
import Mathlib.Tactic.Linarith
import Mathlib.Tactic.NormNum

/-!
# Rounding to a binary significand

A binary floating-point operation returns its exact result rounded to a fixed
number of significant bits, ties to even.  The exponent is unbounded here, so
rounding is a function of the exact value alone; it fixes the integers that fit
the significand.
-/

namespace Rounding

/-- The integer nearest to a rational, the even one of two equally near. -/
def halfEven (x : ℚ) : ℤ :=
  let floor := ⌊x⌋
  let diff := x - floor
  if diff > 1 / 2 then floor + 1 else if diff < 1 / 2 ∨ floor % 2 = 0 then floor else floor + 1

@[simp] theorem halfEven_intCast (z : ℤ) : halfEven z = z := by
  simp [halfEven]

/-- The unit in the last place of a value with the given number of significant
bits. -/
def ulp (bits : ℕ) (x : ℚ) : ℚ :=
  2 ^ (Int.log 2 |x| + 1 - bits)

/-- A value rounded to the given number of significant bits. -/
def nearest (bits : ℕ) (x : ℚ) : ℚ :=
  halfEven (x / ulp bits x) * ulp bits x

@[simp] theorem nearest_zero (bits : ℕ) : nearest bits 0 = 0 := by
  have h : halfEven (0 / ulp bits 0) = 0 := by
    rw [zero_div]
    exact_mod_cast halfEven_intCast 0
  rw [nearest, h, Int.cast_zero, zero_mul]

end Rounding
