import MetricLayer.Calendar.DayRange
import MetricLayer.Decimal.Reader
import MetricLayer.Text.Casing
import MetricLayer.Text.Blank
import MetricLayer.Text.Letter

/-!
# Relative periods

A relative period is named in a few words, such as `last 30 days`, `this quarter` or
`year to date`, and stands for a range of days around today. `RelativePeriod.ofText?` reads the
words and `RelativePeriod.range?` gives the range.
-/

namespace MetricLayer

/-- A period that is named relative to today. -/
inductive RelativePeriod where
  | today
  | yesterday
  | last (n : Nat) (unit : TimeUnit)
  | this (unit : TimeUnit)
  | toDate (unit : TimeUnit)
  deriving DecidableEq, Repr

namespace RelativePeriod

/-- The unit that a word in the singular names. -/
def unitOf? : String → Option TimeUnit
  | "day" => some .day
  | "week" => some .week
  | "month" => some .month
  | "quarter" => some .quarter
  | "year" => some .year
  | _ => none

/-- The unit that a word in the singular or plural names. -/
def countedUnitOf? : String → Option TimeUnit
  | "days" => some .day
  | "weeks" => some .week
  | "months" => some .month
  | "quarters" => some .quarter
  | "years" => some .year
  | word => unitOf? word

/-- The unit of a calendar period: anything but a day. -/
def calendarUnitOf? (word : String) : Option TimeUnit :=
  (unitOf? word).filter (· ≠ .day)

/-- The word introduces a span that ends today. -/
def isLastWord (word : String) : Bool := word = "last" || word = "past" || word = "previous"

/-- The word introduces the period that today lies in. -/
def isThisWord (word : String) : Bool := word = "this" || word = "current"

/-- The units counted back in `last …`: one, or a number below `2^32`. -/
def ofCount? : List String → Option RelativePeriod
  | [unit] => (countedUnitOf? unit).map (last 1)
  | [count, unit] =>
    if count.toList.all Text.isDecimalDigit then
      (countedUnitOf? unit).bind fun u =>
        (Decimal.readBelow? (bitValues 32) count).map (last · u)
    else none
  | _ => none

/-- The period that the words, in lower case, name. -/
def ofWords? : List String → Option RelativePeriod
  | ["today"] => some today
  | ["yesterday"] => some yesterday
  | ["ytd"] => some (toDate .year)
  | ["qtd"] => some (toDate .quarter)
  | ["mtd"] => some (toDate .month)
  | ["wtd"] => some (toDate .week)
  | [unit, "to", "date"] => (calendarUnitOf? unit).map toDate
  | "the" :: word :: rest => if isLastWord word then ofCount? rest else none
  | word :: rest =>
    if isLastWord word then ofCount? rest
    else match rest with
      | [unit] => if isThisWord word then (calendarUnitOf? unit).map this else none
      | _ => none
  | [] => none

/-- The period that the text names, in any letter case and spacing. -/
def ofText? (text : String) : Option RelativePeriod :=
  ofWords? ((Text.words text).map Text.lower)

/-- The days of the period, as long as they lie in the calendar. -/
def range? (p : RelativePeriod) (today : Date) : Option DayRange :=
  match p with
  | .today => some (.between today today)
  | .yesterday => some (.between (today.backDays 1) (today.backDays 1))
  | .last n unit => DayRange.lastUnits? unit n today
  | .this unit => some (.whole unit today)
  | .toDate unit => some (.toDate unit today)

/-- The period that is used when none is named or the named one is not understood. -/
def standard : RelativePeriod := .last 30 .day

/-- The words of the standard period. -/
def standardText : String := "last 30 days"

end RelativePeriod

/-- The days that the text names. -/
def DayRange.ofText? (text : String) (today : Date) : Option DayRange :=
  (RelativePeriod.ofText? text).bind (·.range? today)

end MetricLayer
