import MetricLayer.CommandLine.Help
import MetricLayer.Sample.Gaming
import MetricLayer.Service.Wire

/-!
# What a command writes

A command ends with an exit code, lines of its answer and lines about what went wrong. The code is 0
for an answer, 1 for a failure and 2 where something has to be given differently: the arguments, or
responses to prompts.
-/

namespace MetricLayer

/-- What a command leaves behind. -/
structure Output where
  code : Nat := 0
  lines : List String := []
  /-- The lines about what went wrong. -/
  complaints : List String := []
  deriving DecidableEq, Repr

namespace Output

/-- Each of the lines with its end. -/
def textOf (lines : List String) : String := String.join (lines.map (· ++ "\n"))

/-- The output of a failure. -/
def failure (complaint : String) : Output := { code := 1, complaints := [complaint] }

/-- The output for arguments that cannot be read. -/
def ofUsageError (e : UsageError) : Output :=
  { code := 2
    complaints := ["error: " ++ e.message, "", "For more information, try '--help'."] }

/-- The lines under a heading, after an empty line. -/
def block (heading : String) : List String → List String
  | [] => []
  | lines => "" :: heading :: lines

/-- The questions of a response. -/
def promptLines (r : Response) : List String :=
  ["Clarification needed:"] ++ r.prompts.map (fun p => "  [" ++ p.conflictId ++ "] " ++ p.text) ++
    ["", "Answer with --respond '<id>=<value>'"]

/-- The statement of a translation, with its parameters, its plan and its hints. -/
def translationLines (t : Translation) : List String :=
  [t.statement.sql] ++
    block "-- Parameters:"
      (t.statement.parameters.map fun p => "--   " ++ p.name ++ " = " ++ p.value.display) ++
    block "-- Plan:" (t.explanation.map fun step => "--   " ++ step.text) ++
    t.indexHints.map ("-- Index: " ++ ·)

/-- The output of a response. -/
def ofResponse (r : Response) : Output :=
  { code := if r.needsClarification then 2 else 0
    lines := (r.translation.map translationLines).getD (promptLines r)
    complaints := r.warnings.map fun w => "Warning: " ++ w.message }

/-- The output of a response as a data tree. -/
def ofResponseJson (requestId : String) (r : Response) : Output :=
  { lines := [(Json.obj (("request_id", .str requestId) :: r.members)).renderIndented 0] }

/-- The output of a failed translation. -/
def ofTranslationError (e : TranslationError) : Output :=
  failure ("Translation error [" ++ e.kind ++ "]: " ++ e.message)

/-- The heading of a kind of tables. -/
def kindWord : TableKind → String
  | .fact => "Fact"
  | .dimension => "Dimension"
  | .regular => "Regular"

/-- The line of a table. -/
def tableLine (t : Table) : String :=
  "  - " ++ t.name ++ " [" ++ kindWord t.kind ++ "] (" ++
    String.intercalate ", " (t.columns.map (·.name)) ++ ")"

/-- The line of a view. -/
def viewLine (v : View) : String :=
  "  - " ++ v.name ++ " [" ++ (if v.materialized then "materialized" else "view") ++ "] over " ++
    String.intercalate ", " v.sourceTables

/-- The line of a relationship. -/
def relationshipLine (r : Relationship) : String :=
  "  - " ++ r.fromTable ++ "." ++ r.fromColumn ++ " -> " ++ r.toTable ++ "." ++ r.toColumn ++
    " (" ++ r.cardinality.text ++ ")"

/-- The tables, views and relationships of a schema. -/
def ofSchema (version : Nat) (s : Schema) : Output :=
  { lines :=
      ["Schema version " ++ toString version, "", "Tables:"] ++ s.tables.map tableLine ++
        block "Views:" (s.views.map viewLine) ++
        block "Relationships:" (s.relationships.map relationshipLine) }

/-- The entries that match a phrase. -/
def ofSuggestions (kind : EntityKind) (phrase : String) : List String → Output
  | [] => { code := 1, lines := ["No " ++ kind.name ++ " matches '" ++ phrase ++ "'"] }
  | names => { lines := names }

end Output

end MetricLayer
