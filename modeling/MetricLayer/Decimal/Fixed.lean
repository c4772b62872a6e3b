import MetricLayer.Decimal.Shortest

/-!
# Decimals with a fixed number of places

The exact binary value is rounded, a half to the even neighbour.
-/

namespace MetricLayer.Decimal

/-- The quotient rounded to the nearest whole number, a half to the even one. -/
def roundHalfEven (num den : Nat) : Nat :=
  let t := num / den
  let twice := 2 * (num % den)
  if den < twice || (twice == den && t % 2 == 1) then t + 1 else t

/-- The rounded quotient is within half a unit of the quotient. -/
theorem two_mul_roundHalfEven (num den : Nat) (h : 0 < den) :
    2 * (roundHalfEven num den * den) ≤ 2 * num + den ∧
      2 * num ≤ 2 * (roundHalfEven num den * den) + den := by
  have split := Nat.div_add_mod num den
  have small := Nat.mod_lt num h
  unfold roundHalfEven
  generalize num / den = t at *
  generalize num % den = r at *
  have mul : den * t = t * den := Nat.mul_comm ..
  have step : (t + 1) * den = t * den + den := Nat.succ_mul ..
  dsimp only
  split
  · rename_i up
    simp only [Bool.or_eq_true, decide_eq_true_eq, Bool.and_eq_true, beq_iff_eq] at up
    omega
  · rename_i stay
    simp only [Bool.or_eq_true, decide_eq_true_eq, Bool.and_eq_true, beq_iff_eq, not_or] at stay
    omega

/-- The number with `places` digits after the point. -/
def fixed (places : Nat) (x : Float) : String :=
  if x.isNaN then "NaN" else if x.isInf then (if x < 0 then "-inf" else "inf") else
  let magnitude := x.toBits.toNat % bitValues 63
  let i := Interval.ofBits magnitude
  let whole := Nat.toDigits 10 (roundHalfEven (i.value * digitValues places) i.den)
  let padded := List.replicate (places + 1 - whole.length) '0' ++ whole
  let body := padded.take (padded.length - places) ++
    (if places = 0 then [] else '.' :: padded.drop (padded.length - places))
  String.ofList (if isNegative x then '-' :: body else body)

end MetricLayer.Decimal
