import MetricLayer.Report.Basic
import MetricLayer.Sql.Expr
import MetricLayer.Translation.Error

/-!
# Filters as conditions

The condition of a filter on the expression of its target. Texts that are looked for become patterns
in which the user's own wildcards are literal.
-/

namespace MetricLayer

namespace LikePattern

/-- The characters that mean more than themselves in a pattern. -/
def isSpecial (c : Char) : Bool := c = '%' || c = '_' || c = Expr.likeEscape

/-- The characters as a pattern that matches nothing else. -/
def literal (cs : List Char) : List Char :=
  cs.flatMap fun c => if isSpecial c then [Expr.likeEscape, c] else [c]

/-- The pattern of an operator that looks for a piece of text. -/
def ofText (op : Operator) (s : String) : String :=
  String.ofList <| match op with
    | .startsWith => literal s.toList ++ ['%']
    | .endsWith => '%' :: literal s.toList
    | _ => '%' :: literal s.toList ++ ['%']

end LikePattern

namespace ReportFilter

/-- The value at a place, which the operator needs. -/
def valueAt (f : ReportFilter) (i : Nat) : Except TranslationError Literal :=
  match f.values[i]? with
  | some v => .ok v
  | none => .error (.invalidValue f.term "" ("'" ++ f.operator.name ++ "' is missing a value"))

/-- The condition without the negation. -/
def plainCondition (f : ReportFilter) (target : Expr) : Except TranslationError Expr :=
  let compared (op : BinaryOp) := (f.valueAt 0).map fun v => .binary target op (.value v)
  let matched := (f.valueAt 0).map fun v =>
    .like target (.value (.text (LikePattern.ofText f.operator v.display)))
  let listed (negated : Bool) :=
    if f.values.isEmpty then .error (.invalidValue f.term "" "empty value list")
    else .ok (.inList target (f.values.map .value) negated)
  match f.operator with
  | .equals => compared .eq
  | .notEquals => compared .notEq
  | .greaterThan => compared .gt
  | .greaterOrEqual => compared .gte
  | .lessThan => compared .lt
  | .lessOrEqual => compared .lte
  | .contains | .startsWith | .endsWith => matched
  | .in => listed false
  | .notIn => listed true
  | .between => do
    let low ← f.valueAt 0
    let high ← f.valueAt 1
    return .between target (.value low) (.value high)
  | .isNull => .ok (.isNull target false)
  | .isNotNull => .ok (.isNull target true)

/-- The condition of the filter on the expression of its target. -/
def condition (f : ReportFilter) (target : Expr) : Except TranslationError Expr :=
  (f.plainCondition target).map fun e => if f.negated then .not e else e

end ReportFilter

end MetricLayer
