import MetricLayer.Request.Operator

/-!
# Aggregations

How the values of a metric are combined over the rows of a group.
-/

namespace MetricLayer

/-- An aggregate function. -/
inductive Aggregation where
  | sum
  | avg
  | count
  | countDistinct
  | min
  | max
  deriving DecidableEq, Repr

namespace Aggregation

/-- The aggregations in their order. -/
def list : List Aggregation := [sum, avg, count, countDistinct, min, max]

/-- The word for the aggregation. -/
def name : Aggregation → String
  | sum => "sum"
  | avg => "avg"
  | count => "count"
  | countDistinct => "count_distinct"
  | min => "min"
  | max => "max"

/-- The aggregation of a word on the wire. -/
def ofName? (s : String) : Option Aggregation := list.find? (·.name = s)

/-- The aggregation that a word names. -/
def ofText? (s : String) : Option Aggregation :=
  match Text.wordKey s with
  | "sum" | "total" => some sum
  | "avg" | "average" | "mean" => some avg
  | "count" | "number of" => some count
  | "count distinct" | "distinct count" | "unique" | "distinct" => some countDistinct
  | "min" | "minimum" | "lowest" => some min
  | "max" | "maximum" | "highest" => some max
  | _ => none

/-- The function's name in a query. -/
def function : Aggregation → String
  | sum => "SUM"
  | avg => "AVG"
  | count => "COUNT"
  | countDistinct => "COUNT"
  | min => "MIN"
  | max => "MAX"

/-- Aggregating the aggregates of parts gives the aggregate of the whole. -/
def isReaggregable : Aggregation → Bool
  | sum | min | max => true
  | _ => false

end Aggregation

end MetricLayer
