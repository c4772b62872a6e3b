import MetricLayer.Decimal.Width

/-!
# The shortest decimal of a binary floating-point number

A finite `Float` is `m · 2^q`. The reals that are read back as that number form an interval around
it, which includes its ends when `m` is even. `Float.shortest` takes the fewest significant digits
for which some decimal lies in the interval, and of two such decimals the nearer one. Only an exact
tie is left open; `tieUp` decides it.

`Layout` says where the point stands: it is the choice a written format makes.
-/

namespace MetricLayer.Decimal

/-- A decimal `significand · 10^scale`. -/
structure Scaled where
  significand : Nat
  scale : Int
  deriving DecidableEq, Repr

namespace Scaled

/-- The decimal digits of the significand. -/
def digits (d : Scaled) : List Char := Nat.toDigits 10 d.significand

/-- The exponent of the leading digit: the value is `d.ddd · 10^exponent`. -/
def exponent (d : Scaled) : Int := d.scale + (d.digits.length - 1 : Nat)

/-- The same value without trailing zeros in the significand; `fuel` bounds their number. -/
def stripZeros : Nat → Scaled → Scaled
  | 0, d => d
  | fuel + 1, d =>
    if d.significand ≠ 0 ∧ d.significand % 10 = 0 then
      stripZeros fuel ⟨d.significand / 10, d.scale + 1⟩
    else d

end Scaled

/-- A positive number with the interval of the reals nearest to it, all over one denominator. -/
structure Interval where
  low : Nat
  value : Nat
  high : Nat
  den : Nat
  /-- The ends belong to the interval. -/
  closed : Bool
  deriving DecidableEq, Repr

namespace Interval

/-- The interval around `m · 2^q`. Below a power of two the neighbours lie half as far apart, so
the lower end is nearer there (`narrow`). -/
def around (m : Nat) (q : Int) (narrow : Bool) : Interval :=
  let up : Nat := (q - 2).toNat
  let down : Nat := (2 - q).toNat
  { low := (4 * m - if narrow then 1 else 2) * bitValues up
    value := 4 * m * bitValues up
    high := (4 * m + 2) * bitValues up
    den := bitValues down
    closed := m % 2 == 0 }

/-- The interval of a positive finite number, from its binary fields. -/
def ofBits (bits : Nat) : Interval :=
  let fraction : Nat := bits % bitValues 52
  let biased : Nat := bits / bitValues 52 % bitValues 11
  if biased = 0 then around fraction (-1074) false
  else around (fraction + bitValues 52) (Int.ofNat biased - 1075) (fraction == 0 && biased != 1)

/-- The exponent `e` with `10^e ≤ value / den < 10^(e+1)`. -/
def exponent (i : Interval) : Int :=
  if i.den ≤ i.value then ((Nat.toDigits 10 (i.value / i.den)).length : Int) - 1
  else -((Nat.toDigits 10 ((i.den + i.value - 1) / i.value - 1)).length : Int)

/-- The decimal `t · 10^scale` lies in the interval. -/
def has (i : Interval) (scale : Int) (t : Nat) : Bool :=
  let x := t * i.den * digitValues scale.toNat
  let grow := digitValues (-scale).toNat
  if i.closed then i.low * grow ≤ x && x ≤ i.high * grow
  else i.low * grow < x && x < i.high * grow

/-- The decimal on the grid of step `10^scale` that lies in the interval and is nearest to the
value, if there is one. -/
def onGrid (tieUp : Bool) (i : Interval) (scale : Int) : Option Scaled :=
  let unit := i.den * digitValues scale.toNat
  let v := i.value * digitValues (-scale).toNat
  let t := v / unit
  let below := v - t * unit
  let above := (t + 1) * unit - v
  let preferUp := above < below || (above == below && (tieUp || t % 2 == 1))
  match i.has scale t && t != 0, i.has scale (t + 1) with
  | true, true => some ⟨if preferUp then t + 1 else t, scale⟩
  | true, false => some ⟨t, scale⟩
  | false, true => some ⟨t + 1, scale⟩
  | false, false => none

/-- The first decimal found with `n`, `n + 1`, … significant digits, at most `fuel` tries. -/
def search (tieUp : Bool) (i : Interval) : Nat → Nat → Scaled
  | 0, _ => ⟨0, 0⟩
  | fuel + 1, n => (i.onGrid tieUp (i.exponent - n + 1)).getD (search tieUp i fuel (n + 1))

end Interval

/-- The shortest decimal that is read back as the magnitude of the finite number. -/
def shortest (tieUp : Bool) (x : Float) : Scaled :=
  let magnitude := x.toBits.toNat % bitValues 63
  if magnitude = 0 then ⟨0, 0⟩
  else ((Interval.ofBits magnitude).search tieUp 18 1).stripZeros 20

/-- The sign bit of the number is set. -/
def isNegative (x : Float) : Bool := bitValues 63 ≤ x.toBits.toNat

/-- How a format lays out the digits of a decimal. -/
structure Layout where
  /-- The exponents of the leading digit that are written without an exponent part. -/
  plain : Int → Bool
  /-- Whole numbers end in `.0`. -/
  pointZero : Bool
  /-- Of two equally near shortest decimals the larger is taken, not the even one. -/
  tieUp : Bool

namespace Layout

/-- The digits with the point in its place. -/
def positional (l : Layout) (d : Scaled) : List Char :=
  if 0 ≤ d.scale then
    d.digits ++ List.replicate d.scale.toNat '0' ++ (if l.pointZero then ['.', '0'] else [])
  else
    let places := (-d.scale).toNat
    let padded := List.replicate (places + 1 - d.digits.length) '0' ++ d.digits
    padded.take (padded.length - places) ++ '.' :: padded.drop (padded.length - places)

/-- The digits with one of them before the point, and the exponent with its sign. -/
def scientific (d : Scaled) : List Char :=
  let mantissa := match d.digits with
    | [] => []
    | [c] => [c]
    | c :: cs => c :: '.' :: cs
  let e := d.exponent
  mantissa ++ 'e' :: (if e < 0 then '-' else '+') :: Nat.toDigits 10 e.natAbs

/-- The text of a finite number. -/
def write (l : Layout) (x : Float) : String :=
  let d := shortest l.tieUp x
  let body := if l.plain d.exponent then l.positional d else scientific d
  String.ofList (if isNegative x then '-' :: body else body)

end Layout

/-- Numbers of the wire format: positional from `10^-5` below `10^16`, always with a point. -/
def wire : Layout := ⟨fun e => -5 ≤ e && e < 16, true, false⟩

/-- Numbers in running text: never an exponent, whole numbers without a point. -/
def running : Layout := ⟨fun _ => true, false, true⟩

/-- The text of any number in running text. -/
def display (x : Float) : String :=
  if x.isNaN then "NaN" else if x.isInf then (if x < 0 then "-inf" else "inf")
  else running.write x

end MetricLayer.Decimal
