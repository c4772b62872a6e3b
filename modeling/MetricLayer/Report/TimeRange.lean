import MetricLayer.Calendar.Period
import MetricLayer.Request.Basic

/-!
# The days of a mentioned time range

Days that are given count before a period that is named. A period that is not understood gives way
to the standard one, with a warning.
-/

namespace MetricLayer

/-- Something about a request that was settled by a default. -/
inductive MappingWarning where
  /-- The word for an operator is not understood. -/
  | operator (word field : String)
  /-- The period is not understood. -/
  | period (text : String)
  /-- There is a comparison and no time range. -/
  | noTimeRange
  deriving DecidableEq, Repr

/-- The text of a warning. -/
def MappingWarning.message : MappingWarning → String
  | operator word field =>
    "Operator '" ++ word ++ "' on '" ++ field ++ "' not understood; using equals"
  | period text =>
    "Time period '" ++ text ++ "' not understood; using " ++ RelativePeriod.standardText
  | noTimeRange => "Comparisons need a time range; using " ++ RelativePeriod.standardText

namespace TimeMention

/-- The days of the named period, or of the standard one. -/
def periodRange (text : String) (today : Date) : DayRange × Option MappingWarning :=
  match DayRange.ofText? text today with
  | some r => (r, none)
  | none =>
    ((RelativePeriod.standard.range? today).getD (.between today today), some (.period text))

/-- The days of a mentioned time range. A start without an end reaches to today. -/
def resolve (t : TimeMention) (today : Date) : DayRange × Option MappingWarning :=
  match t.start, t.stop with
  | some a, some b => (.between a b, none)
  | some a, none => (.between a today, none)
  | none, _ => periodRange (t.period.getD RelativePeriod.standardText) today

end TimeMention

end MetricLayer
