import MetricLayer.Sql.Expr

/-!
# Queries

A query selects expressions from a table and the tables joined to it. Conditions on rows stand in
`filters`, and conditions on groups in `having`.
-/

namespace MetricLayer

/-- A table with the namespace it lives in, if one is given. -/
structure TableRef where
  table : String
  schema : Option String := none
  deriving DecidableEq, Repr, Inhabited

/-- An expression that is selected, with its name in the result. -/
structure SelectItem where
  expr : Expr
  label : Option String := none
  deriving Repr, Inhabited

/-- An inner join where each pair of fields is equal. -/
structure Join where
  table : TableRef
  on : List (Field × Field)
  deriving DecidableEq, Repr, Inhabited

/-- An expression that rows are ordered by. -/
structure OrderItem where
  expr : Expr
  descending : Bool
  deriving Repr, Inhabited

/-- A query. -/
structure Query where
  select : List SelectItem := []
  source : TableRef
  joins : List Join := []
  filters : List Expr := []
  groupBy : List Expr := []
  having : List Expr := []
  orderBy : List OrderItem := []
  limit : Option Nat := none
  deriving Repr, Inhabited

namespace Query

/-- The names of the tables, the first one and then those joined. -/
def tables (q : Query) : List String := q.source.table :: q.joins.map (·.table.table)

/-- All expressions outside the join conditions, in the order in which they are written. -/
def exprs (q : Query) : List Expr :=
  q.select.map (·.expr) ++ q.filters ++ q.groupBy ++ q.having ++ q.orderBy.map (·.expr)

/-- The fields outside the join conditions, each once. -/
def referencedFields (q : Query) : List Field := (q.exprs.flatMap Expr.fields).eraseDups

/-- The fields of the conditions on rows. -/
def filterFields (q : Query) : List Field := q.filters.flatMap Expr.fields

/-- The fields of the grouping. -/
def groupFields (q : Query) : List Field := q.groupBy.flatMap Expr.fields

/-- The aggregate functions. -/
def aggregations (q : Query) : List Aggregation := q.exprs.flatMap Expr.aggregations

/-- Renames all fields, those of the join conditions last. -/
def rewriteM (f : Field → Option Field) (q : Query) : StateM (Option Field) Query := do
  let select ← q.select.mapM fun s => return { s with expr := ← s.expr.rewrite f }
  let filters ← q.filters.mapM (Expr.rewrite f)
  let groupBy ← q.groupBy.mapM (Expr.rewrite f)
  let having ← q.having.mapM (Expr.rewrite f)
  let orderBy ← q.orderBy.mapM fun o => return { o with expr := ← o.expr.rewrite f }
  let joins ← q.joins.mapM fun j => do
    let on ← j.on.mapM fun (a, b) => do
      let a ← Expr.rewriteField f a
      let b ← Expr.rewriteField f b
      pure (a, b)
    pure { j with on }
  pure { q with select, filters, groupBy, having, orderBy, joins }

/-- The query with its fields renamed, up to the first field without a new name, and that field. -/
def rewrite (f : Field → Option Field) (q : Query) : Query × Option Field :=
  (q.rewriteM f).run none

end Query

end MetricLayer
