import Mathlib
import MetricLayer.Proofs.Decimal.Unsigned

/-!
# The order of numbers

Numbers are compared by their sign, then by their exponent, then by their mantissa. `place` puts
these in one key of a linear order: two numbers are less or equal as their keys are. Only the result
of an undefined operation is comparable to nothing.

Results:
1. `lt_iff_place` and `beq_iff_place`: how numbers compare is how their keys do.
2. `unpack_of_beq`: a positive number is equal only to what has the same parts.
-/

namespace MetricLayer.Decimal

open Float.Model.UnpackedFloat hiding pack unpack

/-- The key of an unpacked number: how far it is from zero, by sign, and then its parts. -/
def placeOf : Float.Model.UnpackedFloat → ℤ ×ₗ ℤ ×ₗ ℤ
  | .infinity .negative => toLex (-2, toLex (0, 0))
  | .finite .negative m e _ => toLex (-1, toLex (-e, -m))
  | .notANumber | .zero _ => toLex (0, toLex (0, 0))
  | .finite .positive m e _ => toLex (1, toLex (e, m))
  | .infinity .positive => toLex (2, toLex (0, 0))

/-- The key of a number. -/
def place (x : Float) : ℤ ×ₗ ℤ ×ₗ ℤ := placeOf x.toModel.unpack

theorem compare_place {u v : Float.Model.UnpackedFloat} (hu : u.isNaN = false)
    (hv : v.isNaN = false) :
    (u.compare v = some .lt ↔ placeOf u < placeOf v) ∧
      (u.compare v = some .eq ↔ placeOf u = placeOf v) := by
  cases u with
  | notANumber => cases hu
  | infinity s | zero s =>
    cases v with
    | notANumber => cases hv
    | infinity t | zero t | finite t =>
      cases s <;> cases t <;>
        simp [Float.Model.UnpackedFloat.compare, placeOf, Prod.Lex.toLex_lt_toLex, compare]
  | finite s m e =>
    cases v with
    | notANumber => cases hv
    | infinity t | zero t | finite t =>
      cases s <;> cases t <;>
        simp [Float.Model.UnpackedFloat.compare, placeOf, Prod.Lex.toLex_lt_toLex,
          Ordering.then_eq_lt, Ordering.then_eq_gt, Ordering.then_eq_eq, compare_lt_iff_lt,
          compare_gt_iff_gt]

variable {x y : Float}

theorem lt_iff_compare : x < y ↔ x.toModel.unpack.compare y.toModel.unpack = some .lt := by
  show decide (x.toModel < y.toModel) = true ↔ _
  rw [decide_eq_true_eq]
  exact beq_iff_eq

theorem beq_iff_compare :
    (x == y) = true ↔ x.toModel.unpack.compare y.toModel.unpack = some .eq := by
  show (x.toModel.unpack.compare y.toModel.unpack == some .eq) = true ↔ _
  exact beq_iff_eq

theorem lt_iff_place (hx : x.isNaN = false) (hy : y.isNaN = false) : x < y ↔ place x < place y :=
  lt_iff_compare.trans (compare_place hx hy).1

theorem beq_iff_place (hx : x.isNaN = false) (hy : y.isNaN = false) :
    (x == y) = true ↔ place x = place y :=
  beq_iff_compare.trans (compare_place hx hy).2

theorem compare_notANumber (u : Float.Model.UnpackedFloat) : u.compare .notANumber = none := by
  cases u with
  | infinity s => cases s <;> rfl
  | notANumber | zero => rfl
  | finite s => cases s <;> rfl

/-- What is greater than something is a number. -/
theorem isNaN_of_lt (h : x < y) : y.isNaN = false := by
  have hcompare := lt_iff_compare.mp h
  show y.toModel.unpack.isNaN = false
  cases hy : y.toModel.unpack with
  | notANumber =>
    rw [hy, compare_notANumber] at hcompare
    cases hcompare
  | infinity | zero | finite => rfl

/-- A positive number is equal only to what has the same parts. -/
theorem unpack_of_beq (hx : isPositive x.toModel.unpack = true) (h : (x == y) = true) :
    y.toModel.unpack = x.toModel.unpack := by
  obtain ⟨m, e, hm, hx⟩ := exists_finite hx
  have hcompare := beq_iff_compare.mp h
  rw [hx] at hcompare ⊢
  cases hy : y.toModel.unpack with
  | notANumber => rw [hy] at hcompare; cases hcompare
  | infinity t | zero t => cases t <;> rw [hy] at hcompare <;> cases hcompare
  | finite t n f hn =>
    cases t with
    | negative => rw [hy] at hcompare; cases hcompare
    | positive =>
      rw [hy] at hcompare
      simp only [Float.Model.UnpackedFloat.compare, Option.some.injEq, Ordering.then_eq_eq,
        compare_eq_iff_eq] at hcompare
      obtain ⟨rfl, rfl⟩ := hcompare
      rfl

/-- What is equal to a positive number leaves nothing when it is taken from it. -/
theorem sub_of_beq (hx : isPositive x.toModel.unpack = true) (h : (x == y) = true) :
    x - y = .ofModel (.pack (.zero .positive)) := by
  show Float.ofModel (.pack (sub .binary64 x.toModel.unpack y.toModel.unpack)) = _
  rw [unpack_of_beq hx h]
  obtain ⟨m, e, hm, hx⟩ := exists_finite hx
  rw [hx]
  simp only [sub, Int.sub_self, Float.Model.UnpackedFloat.normalize]
  rfl

end MetricLayer.Decimal
