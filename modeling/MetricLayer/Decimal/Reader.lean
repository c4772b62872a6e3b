import MetricLayer.Decimal.Width

/-!
# Reading numbers

Whole numbers and decimals in ASCII digits with an optional sign. A decimal is rounded correctly
to the nearest binary number; one that is too large becomes an infinity.
-/

namespace MetricLayer.Decimal

/-- The value of the character as a decimal digit, counted from `0`. -/
def digitValue (c : Char) : Nat := c.toNat - '0'.toNat

/-- The number whose decimal digits are given. -/
def ofDigits (cs : List Char) : Nat := cs.foldl (fun n c => 10 * n + digitValue c) 0

/-- A nonempty list of ASCII digits as a number. -/
def readNat? (cs : List Char) : Option Nat :=
  if !cs.isEmpty && cs.all Char.isDigit then some (ofDigits cs) else none

/-- The sign in front of a number, `-` being `true`, and what follows it. -/
def readSign : List Char → Bool × List Char
  | '+' :: cs => (false, cs)
  | '-' :: cs => (true, cs)
  | cs => (false, cs)

/-- A whole number with an optional sign, as long as it fits 64 bits. -/
def readInt64? (s : String) : Option Int :=
  let (negative, cs) := readSign s.toList
  match readNat? cs with
  | none => none
  | some n =>
    let value : Int := if negative then -n else n
    if -(bitValues 63 : Int) ≤ value ∧ value < bitValues 63 then some value else none

/-- A number from 0 below `bound`, with an optional `+`. -/
def readBelow? (bound : Nat) (s : String) : Option Nat :=
  let cs := match s.toList with
    | '+' :: cs => cs
    | cs => cs
  (readNat? cs).filter (· < bound)

/-- The binary number nearest to `significand · 10^scale`. Beyond the range of binary numbers no
power is computed. -/
def nearest (significand : Nat) (scale : Int) : Float :=
  let exponent := scale + (Nat.toDigits 10 significand).length
  if significand = 0 then 0
  else if 400 < exponent then 1 / 0
  else if exponent < -400 then 0
  else Float.ofScientific significand (scale < 0) scale.natAbs

/-- The exponent part of a decimal: nothing, or `e` and a whole number. -/
def readExponent? : List Char → Option Int
  | [] => some 0
  | c :: cs =>
    if c = 'e' ∨ c = 'E' then
      let (negative, ds) := readSign cs
      (readNat? ds).map fun n => if negative then -n else n
    else none

/-- A decimal without its sign: digits with at most one point among or around them, and an
exponent. -/
def readUnsigned? (cs : List Char) : Option Float :=
  let whole := cs.takeWhile Char.isDigit
  let (fraction, rest) := match cs.dropWhile Char.isDigit with
    | '.' :: r => (r.takeWhile Char.isDigit, r.dropWhile Char.isDigit)
    | r => ([], r)
  if whole.isEmpty && fraction.isEmpty then none
  else (readExponent? rest).map fun e =>
    nearest (ofDigits (whole ++ fraction)) (e - fraction.length)

/-- A decimal with an optional sign; `inf`, `infinity` and `nan` are read in any letter case. -/
def readFloat? (s : String) : Option Float :=
  let (negative, cs) := readSign s.toList
  let magnitude := match String.ofList (cs.map Char.toLower) with
    | "inf" | "infinity" => some (1 / 0)
    | "nan" => some (0 / 0)
    | _ => readUnsigned? cs
  magnitude.map fun x => if negative then -x else x

end MetricLayer.Decimal
