import MetricLayer.Calendar.Date

/-!
# Ranges of days

Inclusive ranges of calendar days, the unit they are measured in, and the ranges that a range is
compared against. Weeks start on Sunday.
-/

namespace MetricLayer

/-- A unit of calendar time. -/
inductive TimeUnit where
  | day
  | week
  | month
  | quarter
  | year
  deriving DecidableEq, Repr

namespace TimeUnit

/-- The word for the unit. -/
def name : TimeUnit → String
  | day => "day"
  | week => "week"
  | month => "month"
  | quarter => "quarter"
  | year => "year"

/-- The unit of a word on the wire. -/
def ofName? : String → Option TimeUnit
  | "day" => some day
  | "week" => some week
  | "month" => some month
  | "quarter" => some quarter
  | "year" => some year
  | _ => none

end TimeUnit

/-- Which earlier range a range is compared against. -/
inductive Comparison where
  | yearOverYear
  | monthOverMonth
  | previousPeriod
  deriving DecidableEq, Repr

namespace Comparison

/-- The word for the comparison. -/
def name : Comparison → String
  | yearOverYear => "year_over_year"
  | monthOverMonth => "month_over_month"
  | previousPeriod => "previous_period"

/-- The comparison of a word on the wire. -/
def ofName? : String → Option Comparison
  | "year_over_year" => some yearOverYear
  | "month_over_month" => some monthOverMonth
  | "previous_period" => some previousPeriod
  | _ => none

end Comparison

namespace Date

/-- The day `n` units earlier, if it lies in the calendar. -/
def back? (d : Date) (unit : TimeUnit) (n : Nat) : Option Date :=
  match unit with
  | .day => d.addDays? (-n)
  | .week => d.addDays? (-(7 * n : Nat))
  | .month => d.addMonths? (-n)
  | .quarter => d.addMonths? (-(3 * n : Nat))
  | .year => d.addMonths? (-(12 * n : Nat))

/-- The day `n` units later, at most the last day of the calendar. -/
def forward (d : Date) (unit : TimeUnit) (n : Nat) : Date :=
  (match unit with
    | .day => d.addDays? n
    | .week => d.addDays? (7 * n : Nat)
    | .month => d.addMonths? n
    | .quarter => d.addMonths? (3 * n : Nat)
    | .year => d.addMonths? (12 * n : Nat)).getD last

/-- The day `n` days earlier, at least the first day of the calendar. -/
def backDays (d : Date) (n : Nat) : Date := (d.addDays? (-n)).getD first

/-- The first day of the unit that the day lies in. -/
def startOf (d : Date) : TimeUnit → Date
  | .day => d
  | .week => d.backDays d.daysSinceSunday
  | .month => (ofCivil? d.year d.month 1).getD d
  | .quarter => (ofCivil? d.year ((d.month - 1) / 3 * 3 + 1) 1).getD d
  | .year => (ofCivil? d.year 1 1).getD d

end Date

/-- The days from `start` to `stop`, both included. -/
structure DayRange where
  start : Date
  stop : Date
  deriving DecidableEq, Repr

namespace DayRange

/-- The range between two days, the earlier one first. -/
def between (a b : Date) : DayRange := if a ≤ b then ⟨a, b⟩ else ⟨b, a⟩

/-- The range reaches the day, so what it covers can still change on that day. -/
def touches (r : DayRange) (today : Date) : Bool := today ≤ r.stop

/-- The number of days in the range, its ends taken in either order. -/
def days (r : DayRange) : Nat := (r.stop.number - r.start.number).natAbs + 1

/-- The whole unit that the day lies in. -/
def whole (unit : TimeUnit) (today : Date) : DayRange :=
  let start := today.startOf unit
  between start ((start.forward unit 1).backDays 1)

/-- The unit that the day lies in, up to that day. -/
def toDate (unit : TimeUnit) (today : Date) : DayRange := between (today.startOf unit) today

/-- The range that ends with the day and begins `n` units earlier. -/
def lastUnits? (unit : TimeUnit) (n : Nat) (today : Date) : Option DayRange :=
  (today.back? unit n).map (between · today)

/-- The range that a comparison looks at. -/
def shift (r : DayRange) : Comparison → DayRange
  | .yearOverYear =>
    between ((r.start.back? .year 1).getD Date.first) ((r.stop.back? .year 1).getD Date.first)
  | .monthOverMonth =>
    between ((r.start.back? .month 1).getD Date.first) ((r.stop.back? .month 1).getD Date.first)
  | .previousPeriod => between (r.start.backDays r.days) (r.stop.backDays r.days)

end DayRange

end MetricLayer
