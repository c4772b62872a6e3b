import MetricLayer.Sql.Query
import MetricLayer.Translation.Condition
import MetricLayer.Translation.JoinPlan
import MetricLayer.Translation.Metric
import MetricLayer.Translation.Warning

/-!
# The query of a report

A report is written as one query: the joins of its plan, a column per dimension and per visible
metric, the days as a condition on the time column, the filters, the order and the row limit. The
query depends on the report's names and fields and not on the phrases of the request.
-/

namespace MetricLayer

/-- The column that the days of a report apply to. -/
structure TimeColumn where
  field : Field
  type : DataType
  deriving DecidableEq, Repr

namespace TimeColumn

/-- The condition that the column lies within the days. -/
def within (c : TimeColumn) (r : DayRange) : Expr :=
  .between (.field c.field) (.value (.dayStart c.type r.start)) (.value (.dayEnd c.type r.stop))

end TimeColumn

namespace Report

/-- The fields that the report mentions, those of hidden metrics included. -/
def fields (r : Report) : List Field :=
  r.metrics.filterMap (·.field) ++ r.dimensions.map (·.field) ++
    r.filters.filterMap fun f => match f.target with
      | .column c => some c
      | .metric m => m.field

/-- The columns that the report needs. -/
def neededColumns (r : Report) : NeededColumns := .ofFields r.fields

end Report

namespace Schema

/-- The field as a time column, if the schema has it. -/
def timeColumnAt? (s : Schema) (f : Field) : Option TimeColumn :=
  (s.column? f).map fun c => ⟨f, c.type⟩

/-- The date column of the table. -/
def dateField? (s : Schema) (table : String) : Option Field :=
  (s.table? table).bind fun t => t.dateColumn?.map (⟨t.name, ·⟩)

/-- The column that the days of a report apply to: that of its first date dimension, or else the
date column of the anchor, or else that of the first needed table that has one. -/
def timeColumn? (s : Schema) (r : Report) (needed : NeededColumns) : Option TimeColumn :=
  match r.dimensions.find? (·.isDate) with
  | some d => s.timeColumnAt? d.field
  | none =>
    (((s.anchor? needed).bind s.dateField?).or (needed.tables.findSome? s.dateField?)).bind
      s.timeColumnAt?

/-- A table with its namespace. -/
def tableRef (s : Schema) (name : String) : TableRef :=
  ⟨name, (s.table? name).bind (·.schema)⟩

/-- A step of a plan as a join. -/
def join (s : Schema) (step : JoinStep) : Join :=
  ⟨s.tableRef step.toTable,
    [(⟨step.fromTable, step.fromColumn⟩, ⟨step.toTable, step.toColumn⟩)]⟩

end Schema

namespace Report

/-- What the report is sorted by, if it is part of the report. -/
def sortExpr? (r : Report) (target : SortTarget) : Except TranslationError (Option Expr) :=
  match target with
  | .metric name =>
    match r.metric? name with
    | some m => (r.metricExpr m).map some
    | none => .ok none
  | .dimension name => .ok ((r.dimension? name).map (·.expr))

/-- The order without a sort: by the first visible metric, the greatest first, or else by the
dimensions. -/
def defaultOrder (r : Report) : Except TranslationError (List OrderItem) :=
  match r.visibleMetrics with
  | m :: _ => do return [⟨← r.metricExpr m, true⟩]
  | [] => .ok (r.dimensions.map fun d => ⟨d.expr, false⟩)

/-- The order of the rows, and whether the sort names nothing. -/
def order (r : Report) : Except TranslationError (List OrderItem × List TranslationWarning) :=
  match r.sort with
  | none => do return (← r.defaultOrder, [])
  | some sort => do
    match ← r.sortExpr? sort.target with
    | some e => return ([⟨e, sort.direction = .desc⟩], [])
    | none => return (← r.defaultOrder, [.sortUnknown sort.term])

/-- The conditions on rows and those on groups. -/
def conditions (r : Report) : List ReportFilter → Except TranslationError (List Expr × List Expr)
  | [] => .ok ([], [])
  | f :: fs =>
    match f.target with
    | .column field => do
      let e ← f.condition (.field field)
      let (rows, groups) ← r.conditions fs
      return (e :: rows, groups)
    | .metric m => do
      let e ← f.condition (← r.metricExpr m)
      let (rows, groups) ← r.conditions fs
      return (rows, e :: groups)

/-- The selected expression of a metric. -/
def metricItem (r : Report) (m : ReportMetric) : Except TranslationError SelectItem := do
  return ⟨← r.metricExpr m, some m.name⟩

/-- The query of the report over the days, if a time column applies to them. -/
def query (r : Report) (s : Schema) (plan : JoinPlan) (time : Option (TimeColumn × DayRange))
    (limit : Nat) : Except TranslationError (Query × List TranslationWarning) := do
  let metrics ← r.visibleMetrics.mapM r.metricItem
  let (rows, groups) ← r.conditions r.filters
  let (orderBy, warnings) ← r.order
  return (
    { select := r.dimensions.map (fun d => ⟨d.expr, some d.name⟩) ++ metrics
      source := s.tableRef plan.anchor
      joins := plan.steps.map s.join
      filters := (time.map fun (c, days) => c.within days).toList ++ rows
      groupBy := r.dimensions.map (·.expr)
      having := groups
      orderBy
      limit := some limit },
    warnings)

end Report

end MetricLayer
