import MetricLayer.Report.Basic
import MetricLayer.Sql.Expr
import MetricLayer.Translation.Error

/-!
# Metrics as expressions

A plain metric becomes an aggregate of its column, and a calculated one its formula with every
reference replaced by the expression of the metric that it names. A divisor of zero makes the
quotient null.
-/

namespace MetricLayer

namespace ArithOp

/-- The expression of an operation on two expressions. -/
def expr (op : ArithOp) (a b : Expr) : Expr :=
  match op with
  | add => .binary a .plus b
  | sub => .binary a .minus b
  | mul => .binary a .mul b
  | div => .binary a .div (.nullIfZero b)

end ArithOp

/-- The expression of a formula, given those of the metrics that it refers to. -/
def Formula.toExpr {ε : Type} (reference : String → Except ε Expr) : Formula → Except ε Expr
  | metric name => reference name
  | number x => .ok (.number x)
  | group inner => do return .nested (← inner.toExpr reference)
  | binary a op b => do
    let left ← a.toExpr reference
    let right ← b.toExpr reference
    return op.expr left right

namespace Report

/-- A metric of the report that cannot be written. -/
def badMetric (name reason : String) : TranslationError := .invalidValue name "" reason

/-- The expression of a metric, where references are followed fewer than `fuel` levels deep. -/
def metricExprWithin (r : Report) : Nat → ReportMetric → Except TranslationError Expr
  | 0, m => .error (badMetric m.name "metric is calculated from itself")
  | fuel + 1, m =>
    match m.formula, m.field with
    | some formula, _ =>
      formula.toExpr fun name =>
        match r.metric? name with
        | some constituent => metricExprWithin r fuel constituent
        | none => .error (badMetric name "formula constituent was not mapped")
    | none, some field => .ok (.aggregate m.aggregation (.field field))
    | none, none => .error (badMetric m.name "metric has neither a field nor a formula")

/-- The expression of a metric. Unless a metric is calculated from itself, the metrics on a chain of
references differ, so one level more than there are metrics is enough. -/
def metricExpr (r : Report) (m : ReportMetric) : Except TranslationError Expr :=
  r.metricExprWithin (r.metrics.length + 1) m

end Report

/-- The expression of a dimension. -/
def ReportDimension.expr (d : ReportDimension) : Expr :=
  match d.grain with
  | some unit => .datePart unit (.field d.field)
  | none => .field d.field

end MetricLayer
