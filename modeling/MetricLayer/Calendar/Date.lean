/-!
# Calendar days

Days of the proleptic Gregorian calendar in the years `minYear` to `maxYear`; there is a year 0. A
`Date` is a valid year, month and day. `Date.number` counts days, so that distances between days
and steps of days are differences and sums of whole numbers; steps of months keep the day of the
month, or take the last day of a shorter month.
-/

namespace MetricLayer

/-- The first year of the calendar. -/
def minYear : Int := -262143

/-- The last year of the calendar. -/
def maxYear : Int := 262142

/-- The year has 366 days. -/
def isLeapYear (y : Int) : Bool := y % 4 = 0 && (y % 100 ≠ 0 || y % 400 = 0)

/-- The number of days of a month. -/
def daysInMonth (y : Int) (m : Nat) : Nat :=
  if m = 2 then (if isLeapYear y then 29 else 28)
  else if m = 4 ∨ m = 6 ∨ m = 9 ∨ m = 11 then 30
  else 31

/-- The number of days of the months before a month. -/
def daysBeforeMonth (y : Int) : Nat → Nat
  | 0 => 0
  | 1 => 0
  | m + 2 => daysBeforeMonth y (m + 1) + daysInMonth y (m + 1)

/-- The number of days from the first day of year 1 to the first day of a year. -/
def daysBeforeYear (y : Int) : Int :=
  365 * (y - 1) + (y - 1) / 4 - (y - 1) / 100 + (y - 1) / 400

/-- A day of the calendar. -/
structure Date where
  year : Int
  month : Nat
  day : Nat
  year_mem : minYear ≤ year ∧ year ≤ maxYear
  month_mem : 1 ≤ month ∧ month ≤ 12
  day_mem : 1 ≤ day ∧ day ≤ daysInMonth year month
  deriving DecidableEq, Repr

namespace Date

/-- The day with the year, month and day, if there is one. -/
def ofCivil? (y : Int) (m d : Nat) : Option Date :=
  if hy : minYear ≤ y ∧ y ≤ maxYear then
    if hm : 1 ≤ m ∧ m ≤ 12 then
      if hd : 1 ≤ d ∧ d ≤ daysInMonth y m then some ⟨y, m, d, hy, hm, hd⟩ else none
    else none
  else none

/-- The first day of the calendar. -/
def first : Date := ⟨minYear, 1, 1, by decide, by decide, by decide⟩

/-- The last day of the calendar. -/
def last : Date := ⟨maxYear, 12, 31, by decide, by decide, by decide⟩

instance : Inhabited Date := ⟨first⟩

/-- The number of days from the first day of year 1 to the day. -/
def number (d : Date) : Int := daysBeforeYear d.year + daysBeforeMonth d.year d.month + d.day - 1

/-- The year that contains the day with the number. -/
def yearOfNumber (n : Int) : Int :=
  let guess := 400 * n / 146097 + 1
  if n < daysBeforeYear guess then guess - 1
  else if daysBeforeYear (guess + 1) ≤ n then guess + 1
  else guess

/-- The month, and the day in it, that a count of days into a year falls on; `m` is the month to
try and `fuel` bounds the months after it. -/
def monthOfOffset (y : Int) : Nat → Nat → Nat → Nat × Nat
  | 0, m, offset => (m, offset + 1)
  | fuel + 1, m, offset =>
    if offset < daysInMonth y m then (m, offset + 1)
    else monthOfOffset y fuel (m + 1) (offset - daysInMonth y m)

/-- The day with the number, if it lies in the calendar. -/
def ofNumber? (n : Int) : Option Date :=
  let y := yearOfNumber n
  let (m, d) := monthOfOffset y 11 1 (n - daysBeforeYear y).toNat
  ofCivil? y m d

/-- The day so many days later, or earlier for a negative count, if it lies in the calendar. -/
def addDays? (d : Date) (k : Int) : Option Date := ofNumber? (d.number + k)

/-- The same day of the month so many months later, or earlier for a negative count, if it lies in
the calendar; a month that is too short gives its last day. -/
def addMonths? (d : Date) (k : Int) : Option Date :=
  let t := 12 * d.year + (d.month - 1 : Nat) + k
  let y := t / 12
  let m := (t % 12).toNat + 1
  ofCivil? y m (min d.day (daysInMonth y m))

/-- The number of days since the last Sunday. -/
def daysSinceSunday (d : Date) : Nat := ((d.number + 1) % 7).toNat

/-- The days in calendar order: by year, then month, then day. -/
def le (d e : Date) : Bool :=
  d.year < e.year || (d.year == e.year &&
    (d.month < e.month || (d.month == e.month && d.day ≤ e.day)))

instance : LE Date := ⟨fun d e => d.le e = true⟩

instance (d e : Date) : Decidable (d ≤ e) := inferInstanceAs (Decidable (_ = true))

/-- The day comes before the other. -/
def lt (d e : Date) : Bool := d.le e && d != e

end Date

end MetricLayer
