import MetricLayer.Text.Blank
import MetricLayer.Text.Casing

/-!
# Kinds of entities

Which part of a request an entity or a conflict belongs to.
-/

namespace MetricLayer

/-- A part of a request. -/
inductive EntityKind where
  | metric
  | dimension
  | filter
  | sort
  | timeRange
  deriving DecidableEq, Repr

namespace EntityKind

/-- The word for the kind. -/
def name : EntityKind → String
  | metric => "metric"
  | dimension => "dimension"
  | filter => "filter"
  | sort => "sort"
  | timeRange => "time_range"

/-- The kind of a word on the wire. -/
def ofName? : String → Option EntityKind
  | "metric" => some metric
  | "dimension" => some dimension
  | "filter" => some filter
  | "sort" => some sort
  | "time_range" => some timeRange
  | _ => none

/-- The kind that a word names, in singular or plural and in any letter case. -/
def ofText? (s : String) : Option EntityKind :=
  match Text.lower (Text.trim s) with
  | "metric" | "metrics" => some metric
  | "dimension" | "dimensions" => some dimension
  | "filter" | "filters" => some filter
  | "sort" => some sort
  | "time_range" | "time" => some timeRange
  | _ => none

end EntityKind

end MetricLayer
