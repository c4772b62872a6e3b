/-!
# Widths of numbers

How many values so many binary or decimal digits have. Numbers on the wire have 32 or 64 bits.
-/

namespace MetricLayer

/-- The number of values of so many bits. -/
def bitValues (bits : Nat) : Nat := Nat.pow 2 bits

/-- The number of values of so many decimal digits. -/
def digitValues (digits : Nat) : Nat := Nat.pow 10 digits

end MetricLayer
