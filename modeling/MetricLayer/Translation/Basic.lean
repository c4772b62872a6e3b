import MetricLayer.Settings.Basic
import MetricLayer.Translation.Explanation

/-!
# Translations

A translation is the statement of a report together with all that is needed to run or explain it.
`Report.translate` plans the joins, builds the query and writes it; every comparison is the same
query over other days.
-/

namespace MetricLayer

/-- The same query over the days of a comparison. -/
structure ComparisonQuery where
  comparison : Comparison
  range : DayRange
  query : Query
  statement : Statement
  deriving Repr

/-- A report as a statement. -/
structure Translation where
  query : Query
  statement : Statement
  dialect : Dialect
  /-- The tables whose columns are needed, in order. -/
  neededTables : List String
  /-- The view that is read in place of the tables. -/
  usedView : Option String := none
  warnings : List TranslationWarning
  explanation : List PlanStep
  indexHints : List String := []
  comparisons : List ComparisonQuery
  deriving Repr

namespace RenderError

/-- The failure of a translation whose query cannot be written. -/
def asTranslationError : RenderError → TranslationError
  | emptySelect => .emptyProjection
  | emptyInList => .invalidValue "IN" "" emptyInList.message

end RenderError

namespace TranslationSettings

/-- How joins are planned. -/
def joinRule (t : TranslationSettings) : JoinRule := ⟨t.joinTieBreak, t.maxJoinDepth⟩

/-- The row limit of a query, which is never above the cap. -/
def rowLimit (t : TranslationSettings) (requested : Option Nat) : Nat :=
  min (requested.getD t.rowCap) t.rowCap

/-- A requested limit above the cap deserves a warning. -/
def limitWarning (t : TranslationSettings) : Option Nat → List TranslationWarning
  | some n => if t.rowCap < n then [.limitAboveCap n t.rowCap] else []
  | none => []

end TranslationSettings

namespace Report

/-- The statement of a query. -/
def statement (t : TranslationSettings) (q : Query) : Except TranslationError Statement :=
  (q.render t.dialect).mapError RenderError.asTranslationError

/-- The query over the days of a comparison. -/
def comparisonQuery (r : Report) (s : Schema) (t : TranslationSettings) (plan : JoinPlan)
    (column : TimeColumn) (days : DayRange) (c : Comparison) :
    Except TranslationError ComparisonQuery := do
  let range := days.shift c
  let (query, _) ← r.query s plan (some (column, range)) (t.rowLimit r.limit)
  return ⟨c, range, query, ← statement t query⟩

/-- The time column of a report with the days that it is bound to. -/
def timeBound? (r : Report) (s : Schema) : Option (TimeColumn × DayRange) :=
  r.timeRange.bind fun days => (s.timeColumn? r r.neededColumns).map (·, days)

/-- The columns that the query needs, the time column included. -/
def queryColumns (r : Report) (s : Schema) : NeededColumns :=
  match r.timeBound? s with
  | some (c, _) => r.neededColumns.add c.field.table c.field.column
  | none => r.neededColumns

/-- The queries of the comparisons; without a time column there are none. -/
def comparisonQueries (r : Report) (s : Schema) (t : TranslationSettings) (plan : JoinPlan) :
    Except TranslationError (List ComparisonQuery × List TranslationWarning) :=
  match r.timeBound? s with
  | some (column, days) => do
    return (← r.comparisons.mapM (r.comparisonQuery s t plan column days), [])
  | none => .ok ([], r.comparisons.map .comparisonSkipped)

/-- The translation of the report. -/
def translate (r : Report) (s : Schema) (t : TranslationSettings) :
    Except TranslationError Translation := do
  if r.isEmpty || r.neededColumns.isEmpty then throw .emptyProjection
  let time := r.timeBound? s
  let needed := r.queryColumns s
  let plan ← s.joinPlan t.joinRule needed
  let limit := t.rowLimit r.limit
  let (query, sortWarnings) ← r.query s plan time limit
  let statement ← statement t query
  let (comparisons, comparisonWarnings) ← r.comparisonQueries s t plan
  return {
    query
    statement
    dialect := t.dialect
    neededTables := needed.tables
    warnings :=
      (if r.timeRange.isSome && time.isNone then [.noDateColumn] else []) ++
        t.limitWarning r.limit ++ sortWarnings ++ comparisonWarnings
    explanation := r.explanation plan time limit
    comparisons }

end Report

end MetricLayer
