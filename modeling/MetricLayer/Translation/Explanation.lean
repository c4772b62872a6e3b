import MetricLayer.Translation.Query

/-!
# Explanations

The steps of a query in words, in the order in which they are read.
-/

namespace MetricLayer

/-- A step of an explanation. -/
inductive PlanStep where
  | read (table : String)
  /-- A view is read in place of tables. -/
  | readView (view : String) (tables : List String)
  | join (step : JoinStep)
  | days (field : Field) (range : DayRange)
  | filter (f : ReportFilter)
  | group (names : List String)
  | compute (names : List String)
  | order (name : String) (direction : Direction)
  | limit (rows : Nat)
  deriving DecidableEq, Repr

/-- The names with commas between them. -/
def commaList (names : List String) : String := String.intercalate ", " names

namespace ReportFilter

/-- What a filter keeps, in words. -/
def explanation (f : ReportFilter) : String :=
  let kept := match f.target with
    | .column _ => "Keep rows"
    | .metric _ => "Keep groups"
  let words := kept ++ " where " ++ f.term ++ " " ++ (if f.negated then "not " else "") ++
    f.operator.name.map (fun c => if c = '_' then ' ' else c) ++ " " ++
    commaList (f.values.map Literal.display)
  String.ofList (Text.trimEndChars words.toList)

end ReportFilter

namespace PlanStep

/-- The step in words. -/
def text : PlanStep → String
  | read table => "Read from " ++ table
  | readView view tables =>
    "Read from materialized view " ++ view ++ " instead of " ++ commaList tables
  | join s =>
    "Join " ++ s.toTable ++ " on " ++ s.fromTable ++ "." ++ s.fromColumn ++ " = " ++ s.toTable ++
      "." ++ s.toColumn ++ " (" ++ s.cardinality.text ++ ")"
  | days field range =>
    "Keep rows where " ++ field.text ++ " is between " ++ range.start.text ++ " and " ++
      range.stop.text
  | filter f => f.explanation
  | group names => "Group by " ++ commaList names
  | compute names => "Compute " ++ commaList names
  | order name direction =>
    "Order by " ++ name ++ match direction with
      | .asc => " ascending"
      | .desc => " descending"
  | limit rows => "Return at most " ++ toString rows ++ " rows"

/-- The step reads or joins tables. -/
def isSource : PlanStep → Bool
  | read _ | readView .. | join _ => true
  | _ => false

end PlanStep

namespace Report

/-- The step that says what is kept, if there is something to name. -/
def namesStep (step : List String → PlanStep) (names : List String) : List PlanStep :=
  if names.isEmpty then [] else [step names]

/-- The steps of the report's query. -/
def explanation (r : Report) (plan : JoinPlan) (time : Option (TimeColumn × DayRange))
    (limit : Nat) : List PlanStep :=
  .read plan.anchor :: plan.steps.map .join ++
    (time.map fun (c, days) => PlanStep.days c.field days).toList ++
    r.filters.map .filter ++
    namesStep .group (r.dimensions.map (·.name)) ++
    namesStep .compute (r.visibleMetrics.map (·.name)) ++
    (r.sort.map fun s => PlanStep.order s.target.name s.direction).toList ++
    [.limit limit]

end Report

end MetricLayer
