import MetricLayer.Translation.Basic

/-!
# Queries over stored views

A materialized view can take the place of the tables of a query if it shows every column that the
query refers to and, where its rows stand for groups, these are fine enough for the query's own.
Then only the source of the query changes. Without a view, the indexes that its conditions can use
are named instead.
-/

namespace MetricLayer

namespace View

/-- The tables of the query are among those of the view. -/
def coversTables (v : View) (q : Query) : Bool :=
  q.tables.all fun t => v.sourceTables.any fun source => sameName source t

/-- The view shows all columns that the query refers to. -/
def coversFields (v : View) (q : Query) : Bool :=
  q.referencedFields.all fun f => (v.columnFor? f).isSome

/-- The view is grouped by the field. -/
def groupsBy (v : View) (f : Field) : Bool := v.groupBy.any (·.sameIgnoringAsciiCase f)

/-- The groups of the view can be put together to those of the query. -/
def coversGroups (v : View) (q : Query) : Bool :=
  q.aggregations.all (·.isReaggregable) && (q.groupFields ++ q.filterFields).all v.groupsBy

/-- The view can take the place of the query's tables. -/
def serves (v : View) (q : Query) : Bool :=
  v.coversTables q && v.coversFields q && (!v.isAggregated || v.coversGroups q)

/-- The view as the source of a query. -/
def tableRef (v : View) : TableRef := ⟨v.name, v.schema⟩

/-- The column of the view that shows the field, as a field of the view. -/
def fieldFor? (v : View) (f : Field) : Option Field :=
  (v.columnFor? f).map fun c => ⟨v.name, c.name⟩

end View

namespace Query

/-- The query with the view in place of its tables. -/
def onView (q : Query) (v : View) : Except ViewError Query :=
  match ({ q with source := v.tableRef, joins := [] } : Query).rewrite v.fieldFor? with
  | (moved, none) => .ok moved
  | (_, some f) => .error (.noCounterpart f v.name)

/-- The query with the view in place of its tables, and its statement. -/
def statementOnView (q : Query) (dialect : Dialect) (v : View) :
    Except ViewError (Query × Statement) := do
  let moved ← q.onView v
  let statement ← (moved.render dialect).mapError .render
  return (moved, statement)

end Query

namespace Schema

/-- The first view, by name, that can take the place of the query's tables. -/
def viewFor? (s : Schema) (q : Query) : Option View :=
  (s.materializedViews.mergeSort fun a b => decide (a.name ≤ b.name)).find? (·.serves q)

/-- The indexes of the table whose first column is the field's. -/
def indexesFor (s : Schema) (f : Field) : List String :=
  match s.table? f.table with
  | none => []
  | some t =>
    (t.indexes.filter fun i => i.columns.head?.any (Text.eqIgnoringAsciiCase · f.column)).map
      fun i => i.name ++ " on " ++ t.name ++ "(" ++ commaList i.columns ++ ")"

/-- The indexes that the conditions of the query can use, in order. -/
def indexHints (s : Schema) (q : Query) : List String :=
  Text.sortedSet (q.filterFields.flatMap s.indexesFor)

end Schema

/-- A parser for statements of a dialect, which gives the reason why it cannot read one. -/
abbrev StatementCheck := Dialect → String → Option String

namespace ComparisonQuery

/-- The comparison with the view in place of the tables. -/
def onView (c : ComparisonQuery) (dialect : Dialect) (v : View) :
    Except ViewError ComparisonQuery := do
  let (query, statement) ← c.query.statementOnView dialect v
  return { c with query, statement }

end ComparisonQuery

namespace Translation

/-- The translation with the view in place of the tables. -/
def onView (t : Translation) (v : View) : Except ViewError Translation := do
  let (query, statement) ← t.query.statementOnView t.dialect v
  let comparisons ← t.comparisons.mapM (·.onView t.dialect v)
  return { t with
    query
    statement
    comparisons
    usedView := some v.name
    explanation := .readView v.name t.query.tables :: t.explanation.filter (!·.isSource) }

/-- The translation over the first view that can serve it. -/
def withView (t : Translation) (s : Schema) : Translation :=
  match s.viewFor? t.query with
  | none => t
  | some v =>
    match t.onView v with
    | .ok moved => moved
    | .error e => { t with warnings := t.warnings ++ [.viewSkipped v.name e] }

/-- The translation with the improvements that the settings allow. -/
def optimize (t : Translation) (s : Schema) (o : OptimizerSettings) : Translation :=
  if o.enabled then
    let t := if o.materializedViews then t.withView s else t
    if o.indexHints && t.usedView.isNone then { t with indexHints := s.indexHints t.query } else t
  else t

/-! ## Statements that are checked

Before a view is used, a parser of the dialect can be asked to read the statement over it. Without
one, and with one that reads every statement, the improvements are those above.
-/

/-- The translation with the view in place of the tables, if the check reads its statement. -/
def onViewChecked (t : Translation) (check : StatementCheck) (v : View) :
    Except ViewError Translation := do
  let (_, statement) ← t.query.statementOnView t.dialect v
  match check t.dialect statement.sql with
  | none => t.onView v
  | some reason => throw (.unread reason)

/-- The translation over the first view that can serve it, if the check reads its statement. -/
def withViewChecked (t : Translation) (check : StatementCheck) (s : Schema) : Translation :=
  match s.viewFor? t.query with
  | none => t
  | some v =>
    match t.onViewChecked check v with
    | .ok moved => moved
    | .error e => { t with warnings := t.warnings ++ [.viewSkipped v.name e] }

/-- The translation with the improvements that the settings and the check allow. -/
def optimizeChecked (t : Translation) (check : StatementCheck) (s : Schema)
    (o : OptimizerSettings) : Translation :=
  if o.enabled then
    let t := if o.materializedViews then t.withViewChecked check s else t
    if o.indexHints && t.usedView.isNone then { t with indexHints := s.indexHints t.query } else t
  else t

end Translation

end MetricLayer
