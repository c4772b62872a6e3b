import MetricLayer.Calendar.DayRange
import MetricLayer.Schema.Field
import MetricLayer.Schema.Literal
import MetricLayer.Vocabulary.Aggregation

/-!
# Expressions of queries

The expressions that stand in a query. Values are always parameters; the only numbers in the text
are those of formulas. `Expr.fields` and `Expr.aggregations` collect what an expression is made of,
in the order in which it is written, and `Expr.rewrite` renames its fields.
-/

namespace MetricLayer

/-- A comparison or an arithmetic operation. -/
inductive BinaryOp where
  | eq
  | notEq
  | gt
  | gte
  | lt
  | lte
  | plus
  | minus
  | mul
  | div
  deriving DecidableEq, Repr

namespace BinaryOp

/-- The sign of the operation. -/
def sign : BinaryOp → String
  | eq => "="
  | notEq => "<>"
  | gt => ">"
  | gte => ">="
  | lt => "<"
  | lte => "<="
  | plus => "+"
  | minus => "-"
  | mul => "*"
  | div => "/"

/-- All operations. -/
def list : List BinaryOp := [eq, notEq, gt, gte, lt, lte, plus, minus, mul, div]

/-- The operation of a sign. -/
def ofSign? (s : String) : Option BinaryOp := list.find? (·.sign = s)

end BinaryOp

/-- An expression. -/
inductive Expr where
  | field (f : Field)
  /-- A value, which becomes a parameter. -/
  | value (v : Literal)
  /-- A number of a formula. -/
  | number (x : Float)
  | aggregate (func : Aggregation) (arg : Expr)
  | binary (left : Expr) (op : BinaryOp) (right : Expr)
  | not (e : Expr)
  | between (e low high : Expr)
  | inList (e : Expr) (items : List Expr) (negated : Bool)
  | isNull (e : Expr) (negated : Bool)
  | like (e pattern : Expr)
  | datePart (unit : TimeUnit) (e : Expr)
  /-- The expression, or null where it is zero. -/
  | nullIfZero (e : Expr)
  /-- The expression in parentheses. -/
  | nested (e : Expr)
  deriving Repr, Inhabited

namespace Expr

/-- The character that makes the next one literal in the patterns of `like`. -/
def likeEscape : Char := '!'

mutual

/-- The fields, in order and with repetitions. -/
def fields : Expr → List Field
  | field f => [f]
  | value _ => []
  | number _ => []
  | aggregate _ e => e.fields
  | binary a _ b => a.fields ++ b.fields
  | not e => e.fields
  | between e low high => e.fields ++ low.fields ++ high.fields
  | inList e items _ => e.fields ++ fieldsOfList items
  | isNull e _ => e.fields
  | like e p => e.fields ++ p.fields
  | datePart _ e => e.fields
  | nullIfZero e => e.fields
  | nested e => e.fields

def fieldsOfList : List Expr → List Field
  | [] => []
  | e :: es => e.fields ++ fieldsOfList es

end

mutual

/-- The aggregate functions, the outer ones first. -/
def aggregations : Expr → List Aggregation
  | field _ => []
  | value _ => []
  | number _ => []
  | aggregate func e => func :: e.aggregations
  | binary a _ b => a.aggregations ++ b.aggregations
  | not e => e.aggregations
  | between e low high => e.aggregations ++ low.aggregations ++ high.aggregations
  | inList e items _ => e.aggregations ++ aggregationsOfList items
  | isNull e _ => e.aggregations
  | like e p => e.aggregations ++ p.aggregations
  | datePart _ e => e.aggregations
  | nullIfZero e => e.aggregations
  | nested e => e.aggregations

def aggregationsOfList : List Expr → List Aggregation
  | [] => []
  | e :: es => e.aggregations ++ aggregationsOfList es

end

mutual

/-- A list of choices somewhere in the expression is empty. -/
def hasEmptyList : Expr → Bool
  | field _ => false
  | value _ => false
  | number _ => false
  | aggregate _ e => e.hasEmptyList
  | binary a _ b => a.hasEmptyList || b.hasEmptyList
  | not e => e.hasEmptyList
  | between e low high => e.hasEmptyList || low.hasEmptyList || high.hasEmptyList
  | inList e items _ => items.isEmpty || e.hasEmptyList || anyHasEmptyList items
  | isNull e _ => e.hasEmptyList
  | like e p => e.hasEmptyList || p.hasEmptyList
  | datePart _ e => e.hasEmptyList
  | nullIfZero e => e.hasEmptyList
  | nested e => e.hasEmptyList

def anyHasEmptyList : List Expr → Bool
  | [] => false
  | e :: es => e.hasEmptyList || anyHasEmptyList es

end

/-- Renames a field. The first field without a new name is kept in the state, and from then on
nothing is renamed. -/
def rewriteField (f : Field → Option Field) (x : Field) : StateM (Option Field) Field := do
  match ← get with
  | some _ => pure x
  | none => match f x with
    | some y => pure y
    | none => do
      set (some x)
      pure x

mutual

/-- Renames the fields in their order. -/
def rewrite (f : Field → Option Field) : Expr → StateM (Option Field) Expr
  | field x => return field (← rewriteField f x)
  | value v => return value v
  | number x => return number x
  | aggregate func e => return aggregate func (← e.rewrite f)
  | binary a op b => return binary (← a.rewrite f) op (← b.rewrite f)
  | not e => return not (← e.rewrite f)
  | between e low high => return between (← e.rewrite f) (← low.rewrite f) (← high.rewrite f)
  | inList e items negated => return inList (← e.rewrite f) (← rewriteList f items) negated
  | isNull e negated => return isNull (← e.rewrite f) negated
  | like e p => return like (← e.rewrite f) (← p.rewrite f)
  | datePart unit e => return datePart unit (← e.rewrite f)
  | nullIfZero e => return nullIfZero (← e.rewrite f)
  | nested e => return nested (← e.rewrite f)

def rewriteList (f : Field → Option Field) : List Expr → StateM (Option Field) (List Expr)
  | [] => return []
  | e :: es => return (← e.rewrite f) :: (← rewriteList f es)

end

end Expr

end MetricLayer
