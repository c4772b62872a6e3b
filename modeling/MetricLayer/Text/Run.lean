/-!
# Character classes as runs of code points

A class of characters is a list of runs in increasing order. `Run.anyHas` looks a character up and
stops at the first run that begins after it, so a character with a small code point is decided by
the first few runs.
-/

namespace MetricLayer.Text

/-- The code points `first`, `first + step`, `first + 2 * step`, … that are at most `last`. -/
structure Run where
  first : Nat
  last : Nat
  step : Nat
  deriving DecidableEq, Repr

namespace Run

/-- The run contains the character. -/
def has (r : Run) (c : Char) : Bool :=
  r.first ≤ c.toNat && c.toNat ≤ r.last && (c.toNat - r.first) % r.step == 0

/-- One of the runs, which are in increasing order, contains the character. -/
def anyHas (c : Char) : List Run → Bool
  | [] => false
  | r :: rs => if c.toNat < r.first then false else r.has c || anyHas c rs

end Run

/-- A run of characters that a character map moves by one and the same distance. -/
structure Shift where
  first : Nat
  last : Nat
  step : Nat
  distance : Int
  deriving DecidableEq, Repr

namespace Shift

/-- The image of the character under the map that the shifts, in increasing order, describe;
a character in none of them stays as it is. -/
def apply (c : Char) : List Shift → Char
  | [] => c
  | s :: ss =>
    if c.toNat < s.first then c
    else if (Run.mk s.first s.last s.step).has c then Char.ofNat (c.toNat + s.distance).toNat
    else apply c ss

end Shift

end MetricLayer.Text
