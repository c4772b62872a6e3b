import MetricLayer.Calendar.DateText

/-!
# Instants

Points of time on one scale, from the start of the first day of the calendar to the last nanosecond
of its last day. Steps into the future stop at the last instant.
-/

namespace MetricLayer

/-- A point of time, in nanoseconds from the start of year 1. -/
structure Instant where
  nanos : Int
  deriving DecidableEq, Repr, Inhabited

namespace Instant

/-- The nanoseconds of a second. -/
def secondNanos : Nat := digitValues 9

/-- The nanoseconds of a day. -/
def dayNanos : Nat := 86400 * secondNanos

/-- The start of a day. -/
def ofDate (d : Date) : Instant := ⟨d.number * dayNanos⟩

/-- The last instant of the calendar. -/
def last : Instant := ⟨(Date.last.number + 1) * dayNanos - 1⟩

instance : LE Instant := ⟨fun a b => a.nanos ≤ b.nanos⟩

instance : LT Instant := ⟨fun a b => a.nanos < b.nanos⟩

instance (a b : Instant) : Decidable (a ≤ b) := inferInstanceAs (Decidable (a.nanos ≤ b.nanos))

instance (a b : Instant) : Decidable (a < b) := inferInstanceAs (Decidable (a.nanos < b.nanos))

/-- The instant so many seconds later, at most the last one. -/
def plus (t : Instant) (seconds : Nat) : Instant :=
  let later := t.nanos + seconds * secondNanos
  if later ≤ last.nanos then ⟨later⟩ else last

/-- The most seconds that a clock can be moved by at once: as many as have no more than 63 bits when
they are counted in milliseconds. -/
def stepLimit : Nat := (bitValues 63 - 1) / 1000

/-- The instant that a clock shows when it is moved; too great a step does not move it. -/
def advance (t : Instant) (seconds : Nat) : Instant :=
  if seconds ≤ stepLimit then t.plus seconds else t

/-- The day of the instant. -/
def date (t : Instant) : Date := (Date.ofNumber? (t.nanos / dayNanos)).getD Date.last

/-- The moment of the instant within its day. -/
def ofDay (t : Instant) : Nat := (t.nanos % dayNanos).toNat

/-- The wire text. -/
def wire (t : Instant) : String :=
  let seconds := t.ofDay / secondNanos
  t.date.text ++ "T" ++ DateText.padded 2 (seconds / 3600) ++ ":" ++
    DateText.padded 2 (seconds / 60 % 60) ++ ":" ++ DateText.padded 2 (seconds % 60) ++
    DateText.fractionText (t.ofDay % secondNanos) ++ "Z"

end Instant

end MetricLayer
