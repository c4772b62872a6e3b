import MetricLayer.Report.Wire
import MetricLayer.Translation.View

/-!
# Translations as data trees

A translation is only handed out. Values of parameters are bare values.
-/

namespace MetricLayer

open Json (ofList ofOption)

/-- A parameter with its name. -/
def Parameter.toJson (p : Parameter) : Json :=
  .obj [("name", .str p.name), ("value", p.value.toJson)]

/-- A comparison with its statement. -/
def ComparisonQuery.toJson (c : ComparisonQuery) : Json :=
  .obj [("comparison", .str c.comparison.name), ("time_range", c.range.toJson),
    ("sql", .str c.statement.sql), ("parameters", ofList Parameter.toJson c.statement.parameters)]

/-- A translation with everything but its query. -/
def Translation.toJson (t : Translation) : Json :=
  .obj [("sql", .str t.statement.sql),
    ("parameters", ofList Parameter.toJson t.statement.parameters),
    ("required_tables", ofList .str t.neededTables), ("used_view", ofOption .str t.usedView),
    ("warnings", ofList (fun w => .str w.message) t.warnings),
    ("explanation", ofList (fun s => .str s.text) t.explanation),
    ("index_hints", ofList .str t.indexHints),
    ("comparison_queries", ofList ComparisonQuery.toJson t.comparisons),
    ("dialect", .str t.dialect.name)]

end MetricLayer
