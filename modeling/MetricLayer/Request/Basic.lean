import MetricLayer.Calendar.DayRange
import MetricLayer.Calendar.DateText
import MetricLayer.Request.Conflict
import MetricLayer.Vocabulary.Aggregation

/-!
# Requests

A request holds what somebody asked for in their own words: the metrics and dimensions they
mentioned, filters, a sort, a time range. Each mention carries how certain its reading is, and the
dictionary entry that was chosen for it in answer to a question, if there was one. A request also
carries the conflicts that are open, so it can be handed out and handed back.
-/

namespace MetricLayer

/-- A metric that was mentioned. -/
structure MetricMention where
  name : String
  aggregation : Option Aggregation := none
  confidence : Float := 1
  /-- The entry that was chosen for the mention. -/
  pinned : Option String := none
  deriving DecidableEq, Repr

/-- A dimension that was mentioned. -/
structure DimensionMention where
  name : String
  confidence : Float := 1
  pinned : Option String := none
  deriving DecidableEq, Repr

/-- The values of a filter as they were written: a list, a single one or none. -/
inductive FilterValues where
  | many (values : List String)
  | one (value : String)
  | none
  deriving DecidableEq, Repr

namespace FilterValues

/-- The values in order. -/
def toList : FilterValues → List String
  | many values => values
  | one value => [value]
  | none => []

/-- The values in their plainest shape. -/
def ofList : List String → FilterValues
  | [] => none
  | [v] => one v
  | vs => many vs

@[simp] theorem toList_ofList (xs : List String) : (ofList xs).toList = xs := by
  rcases xs with _ | ⟨x, _ | ⟨y, ys⟩⟩ <;> rfl

/-- The values with commas between them. -/
def text (v : FilterValues) : String := String.intercalate ", " v.toList

end FilterValues

/-- A filter that was mentioned. -/
structure FilterMention where
  /-- The phrase for the filtered metric or dimension. -/
  field : String
  /-- The word for the operator. -/
  operator : String := "equals"
  value : FilterValues := .none
  negated : Bool := false
  confidence : Float := 1
  pinned : Option String := none
  deriving DecidableEq, Repr

namespace FilterMention

/-- The operator of the filter, if its word is understood. A list of values turns equality into
membership. -/
def operator? (f : FilterMention) : Option Operator :=
  (Operator.ofText? f.operator).map fun op =>
    if 1 < f.value.toList.length then
      match op with
      | .equals => .in
      | .notEquals => .notIn
      | op => op
    else op

/-- The condition in words, such as `not in UK, DE`. -/
def describe (f : FilterMention) : String :=
  let op := match f.operator? with
    | some op => String.ofList (op.name.toList.map fun c => if c = '_' then ' ' else c)
    | none => f.operator
  let values := f.value.text
  (if f.negated then "not " else "") ++ op ++ (if values.isEmpty then "" else " " ++ values)

end FilterMention

/-- The direction of a sort. -/
inductive Direction where
  | asc
  | desc
  deriving DecidableEq, Repr

namespace Direction

/-- The word for the direction. -/
def name : Direction → String
  | asc => "asc"
  | desc => "desc"

/-- The direction of a word on the wire. -/
def ofName? : String → Option Direction
  | "asc" => some asc
  | "desc" => some desc
  | _ => none

end Direction

/-- A sort that was mentioned. -/
structure SortMention where
  field : String
  direction : Direction := .desc
  deriving DecidableEq, Repr

/-- A time range that was mentioned: a relative period, or days. -/
structure TimeMention where
  period : Option String := none
  start : Option Date := none
  stop : Option Date := none
  deriving DecidableEq, Repr

/-- A request in the words of whoever asked. -/
structure Request where
  /-- The text that was asked. -/
  question : String := ""
  timeRange : Option TimeMention := none
  metrics : List MetricMention := []
  dimensions : List DimensionMention := []
  filters : List FilterMention := []
  sortBy : Option SortMention := none
  limit : Option Nat := none
  comparisons : List Comparison := []
  conflicts : List Conflict := []
  overallConfidence : Float := 0
  /-- The stamp of the dictionary and schema that questions were asked against. -/
  snapshot : Option String := none
  deriving DecidableEq, Repr

namespace Request

/-- A request of a text, about which nothing is known yet. -/
def ofText (s : String) : Request := { question := s, overallConfidence := 1 }

end Request

end MetricLayer
