import MetricLayer.Json.Decode
import MetricLayer.Request.Basic

/-!
# Requests as data trees

A request can be handed out as a tree and handed back. A choice that was not made and a value that
was not refused are left out of the tree; everything else is there, `null` included.
-/

namespace MetricLayer

open Json (ofList ofOption)

/-- A member that is left out if there is no value. -/
def optionalMember (name : String) : Option String → List (String × Json)
  | none => []
  | some s => [(name, .str s)]

/-- A day from a tree. -/
def Date.ofJson? (j : Json) : Option Date := j.asText?.bind Date.ofWire?

/-- A day. -/
def Date.toJson (d : Date) : Json := .str d.text

/-- A metric that was mentioned. -/
def MetricMention.toJson (m : MetricMention) : Json :=
  .obj ([("name", .str m.name), ("aggregation", ofOption (fun a => .str a.name) m.aggregation),
    ("confidence", .float m.confidence)] ++ optionalMember "resolved" m.pinned)

/-- A metric that was mentioned, from a tree. -/
def MetricMention.ofJson? (j : Json) : Option MetricMention := do
  let r ← j.fields? .strict ["name", "aggregation", "confidence", "resolved"]
  pure
    { name := ← r.required "name" Json.asText?
      aggregation := ← r.omissible "aggregation" (Json.asWord? .strict Aggregation.ofName?)
      confidence := ← r.defaulted "confidence" 1 Json.asFloat?
      pinned := ← r.omissible "resolved" Json.asText? }

/-- A dimension that was mentioned. -/
def DimensionMention.toJson (d : DimensionMention) : Json :=
  .obj ([("name", .str d.name), ("confidence", .float d.confidence)] ++
    optionalMember "resolved" d.pinned)

/-- A dimension that was mentioned, from a tree. -/
def DimensionMention.ofJson? (j : Json) : Option DimensionMention := do
  let r ← j.fields? .strict ["name", "confidence", "resolved"]
  pure
    { name := ← r.required "name" Json.asText?
      confidence := ← r.defaulted "confidence" 1 Json.asFloat?
      pinned := ← r.omissible "resolved" Json.asText? }

/-- The values of a filter. -/
def FilterValues.toJson : FilterValues → Json
  | many values => Json.ofList .str values
  | one value => .str value
  | none => .null

/-- The values of a filter from a tree. -/
def FilterValues.ofJson? : Json → Option FilterValues
  | .null => some none
  | .str s => some (one s)
  | j => (Json.asList? Json.asText? j).map many

/-- A filter that was mentioned. -/
def FilterMention.toJson (f : FilterMention) : Json :=
  .obj ([("field", .str f.field), ("operator", .str f.operator), ("value", f.value.toJson),
    ("negated", .bool f.negated), ("confidence", .float f.confidence)] ++
    optionalMember "resolved" f.pinned)

/-- A filter that was mentioned, from a tree. -/
def FilterMention.ofJson? (j : Json) : Option FilterMention := do
  let r ← j.fields? .strict ["field", "operator", "value", "negated", "confidence", "resolved"]
  pure
    { field := ← r.required "field" Json.asText?
      operator := ← r.defaulted "operator" "equals" Json.asText?
      value := ← r.defaulted "value" .none FilterValues.ofJson?
      negated := ← r.defaulted "negated" false Json.asBool?
      confidence := ← r.defaulted "confidence" 1 Json.asFloat?
      pinned := ← r.omissible "resolved" Json.asText? }

/-- A sort that was mentioned. -/
def SortMention.toJson (s : SortMention) : Json :=
  .obj [("field", .str s.field), ("direction", .str s.direction.name)]

/-- A sort that was mentioned, from a tree. -/
def SortMention.ofJson? (j : Json) : Option SortMention := do
  let r ← j.fields? .strict ["field", "direction"]
  pure
    { field := ← r.required "field" Json.asText?
      direction := ← r.defaulted "direction" .desc (Json.asWord? .strict Direction.ofName?) }

/-- A time range that was mentioned. -/
def TimeMention.toJson (t : TimeMention) : Json :=
  .obj [("relative_period", ofOption .str t.period), ("start", ofOption Date.toJson t.start),
    ("end", ofOption Date.toJson t.stop)]

/-- A time range that was mentioned, from a tree. -/
def TimeMention.ofJson? (j : Json) : Option TimeMention := do
  let r ← j.fields? .strict ["relative_period", "start", "end"]
  pure
    { period := ← r.omissible "relative_period" Json.asText?
      start := ← r.omissible "start" Date.ofJson?
      stop := ← r.omissible "end" Date.ofJson? }

/-- A conflict. -/
def Conflict.toJson (c : Conflict) : Json :=
  .obj ([("id", .str c.id), ("conflict_type", .str c.kind.name),
    ("entity_type", .str c.entity.name), ("original_term", .str c.term),
    ("message", .str c.message), ("suggestions", ofList .str c.suggestions)] ++
    optionalMember "value" c.value ++ [("upstream", .bool c.reported)])

/-- A conflict from a tree. -/
def Conflict.ofJson? (j : Json) : Option Conflict := do
  let r ← j.fields? .strict ["id", "conflict_type", "entity_type", "original_term", "message",
    "suggestions", "value", "upstream"]
  pure
    { id := ← r.defaulted "id" "" Json.asText?
      kind := ← r.required "conflict_type" (Json.asWord? .strict ConflictKind.ofName?)
      entity := ← r.required "entity_type" (Json.asWord? .strict EntityKind.ofName?)
      term := ← r.required "original_term" Json.asText?
      message := ← r.defaulted "message" "" Json.asText?
      suggestions := ← r.defaulted "suggestions" [] (Json.asList? Json.asText?)
      value := ← r.omissible "value" Json.asText?
      reported := ← r.defaulted "upstream" false Json.asBool? }

/-- The members of a request, in the order of their places. -/
def Request.memberNames : List String :=
  ["original_query", "time_range", "metrics", "dimensions", "filters", "sort_by", "limit",
    "comparisons", "conflicts", "overall_confidence", "snapshot"]

/-- A request. -/
def Request.toJson (r : Request) : Json :=
  .obj [("original_query", .str r.question),
    ("time_range", ofOption TimeMention.toJson r.timeRange),
    ("metrics", ofList MetricMention.toJson r.metrics),
    ("dimensions", ofList DimensionMention.toJson r.dimensions),
    ("filters", ofList FilterMention.toJson r.filters),
    ("sort_by", ofOption SortMention.toJson r.sortBy), ("limit", ofOption .ofNat r.limit),
    ("comparisons", ofList (fun c => .str c.name) r.comparisons),
    ("conflicts", ofList Conflict.toJson r.conflicts),
    ("overall_confidence", .float r.overallConfidence), ("snapshot", ofOption .str r.snapshot)]

/-- A request from a tree. -/
def Request.ofJson? (j : Json) : Option Request := do
  let r ← j.fields? .strict memberNames
  pure
    { question := ← r.defaulted "original_query" "" Json.asText?
      timeRange := ← r.omissible "time_range" TimeMention.ofJson?
      metrics := ← r.defaulted "metrics" [] (Json.asList? MetricMention.ofJson?)
      dimensions := ← r.defaulted "dimensions" [] (Json.asList? DimensionMention.ofJson?)
      filters := ← r.defaulted "filters" [] (Json.asList? FilterMention.ofJson?)
      sortBy := ← r.omissible "sort_by" SortMention.ofJson?
      limit := ← r.omissible "limit" (Json.asNatBelow? (bitValues 32))
      comparisons := ← r.defaulted "comparisons" []
        (Json.asList? (Json.asWord? .strict Comparison.ofName?))
      conflicts := ← r.defaulted "conflicts" [] (Json.asList? Conflict.ofJson?)
      overallConfidence := ← r.defaulted "overall_confidence" 0 Json.asFloat?
      snapshot := ← r.omissible "snapshot" Json.asText? }

end MetricLayer
