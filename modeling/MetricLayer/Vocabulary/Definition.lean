import MetricLayer.Calendar.DayRange
import MetricLayer.Json.Decode
import MetricLayer.Schema.Wire
import MetricLayer.Vocabulary.Aggregation

/-!
# Dictionary definitions

What somebody writes down about the vocabulary of a business: metrics, which are numbers, and
dimensions, by which numbers are broken down. The members of their data trees stand in a fixed
order, which the fingerprint of a dictionary depends on.
-/

namespace MetricLayer

open Json (ofList ofOption)

/-- A metric: the aggregate of a field, or a formula over other metrics. -/
structure MetricDefinition where
  name : String
  description : String := ""
  field : Option Field := none
  aggregation : Aggregation := .sum
  type : DataType := .decimal
  category : Option String := none
  synonyms : List String := []
  formula : Option String := none
  deriving DecidableEq, Repr

namespace MetricDefinition

/-- The metric has a formula. -/
def isCalculated (m : MetricDefinition) : Bool := m.formula.isSome

/-- The metric as a tree. -/
def toJson (m : MetricDefinition) : Json :=
  .obj [("name", .str m.name), ("description", .str m.description),
    ("field", ofOption Field.toJson m.field), ("aggregation", .str m.aggregation.name),
    ("type", .str m.type.name), ("category", ofOption .str m.category),
    ("synonyms", ofList .str m.synonyms), ("formula", ofOption .str m.formula)]

/-- A metric from a tree. -/
def ofJson? (rigor : Json.Rigor) (j : Json) : Option MetricDefinition := do
  let r ← j.fields? rigor ["name", "description", "field", "aggregation", "type", "category",
    "synonyms", "formula"]
  pure
    { name := ← r.required "name" Json.asText?
      description := ← r.defaulted "description" "" Json.asText?
      field := ← r.omissible "field" Field.ofJson?
      aggregation := ← r.defaulted "aggregation" .sum (Json.asWord? rigor Aggregation.ofName?)
      type := ← r.defaulted "type" .decimal DataType.ofJson?
      category := ← r.omissible "category" Json.asText?
      synonyms := ← r.defaulted "synonyms" [] (Json.asList? Json.asText?)
      formula := ← r.omissible "formula" Json.asText? }

end MetricDefinition

/-- A dimension: a field, or a part of the date in it if there is a grain. -/
structure DimensionDefinition where
  name : String
  description : String := ""
  field : Field
  grain : Option TimeUnit := none
  isDate : Bool := false
  category : Option String := none
  synonyms : List String := []
  deriving DecidableEq, Repr

namespace DimensionDefinition

/-- The dimension as a tree. -/
def toJson (d : DimensionDefinition) : Json :=
  .obj [("name", .str d.name), ("description", .str d.description), ("field", d.field.toJson),
    ("grain", ofOption (fun g => .str g.name) d.grain), ("is_date", .bool d.isDate),
    ("category", ofOption .str d.category), ("synonyms", ofList .str d.synonyms)]

/-- A dimension from a tree. -/
def ofJson? (rigor : Json.Rigor) (j : Json) : Option DimensionDefinition := do
  let r ← j.fields? rigor ["name", "description", "field", "grain", "is_date", "category",
    "synonyms"]
  pure
    { name := ← r.required "name" Json.asText?
      description := ← r.defaulted "description" "" Json.asText?
      field := ← r.required "field" Field.ofJson?
      grain := ← r.omissible "grain" (Json.asWord? rigor TimeUnit.ofName?)
      isDate := ← r.defaulted "is_date" false Json.asBool?
      category := ← r.omissible "category" Json.asText?
      synonyms := ← r.defaulted "synonyms" [] (Json.asList? Json.asText?) }

end DimensionDefinition

/-- A whole vocabulary. -/
structure DictionaryDefinition where
  metrics : List MetricDefinition := []
  dimensions : List DimensionDefinition := []
  deriving DecidableEq, Repr

namespace DictionaryDefinition

/-- The vocabulary as a tree. -/
def toJson (d : DictionaryDefinition) : Json :=
  .obj [("metrics", ofList MetricDefinition.toJson d.metrics),
    ("dimensions", ofList DimensionDefinition.toJson d.dimensions)]

/-- A vocabulary from a tree. -/
def ofJson? (rigor : Json.Rigor) (j : Json) : Option DictionaryDefinition := do
  let r ← j.fields? rigor ["metrics", "dimensions"]
  pure
    { metrics := ← r.defaulted "metrics" [] (Json.asList? (MetricDefinition.ofJson? rigor))
      dimensions := ← r.defaulted "dimensions" []
        (Json.asList? (DimensionDefinition.ofJson? rigor)) }

end DictionaryDefinition

end MetricLayer
