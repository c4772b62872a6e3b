import MetricLayer.Text.Blank
import MetricLayer.Text.Casing

/-!
# Filter operators

The comparisons that a filter can make, the words for them and how many values each takes.
-/

namespace MetricLayer

namespace Text

/-- The word in lower case, blanks around it removed, with spaces for underscores and dashes. -/
def wordKey (s : String) : String :=
  String.ofList ((lower (trim s)).toList.map fun c => if c = '_' ∨ c = '-' then ' ' else c)

end Text

/-- A comparison that a filter makes. -/
inductive Operator where
  | equals
  | notEquals
  | greaterThan
  | greaterOrEqual
  | lessThan
  | lessOrEqual
  | contains
  | startsWith
  | endsWith
  | in
  | notIn
  | between
  | isNull
  | isNotNull
  deriving DecidableEq, Repr

namespace Operator

/-- The operators in their order. -/
def list : List Operator :=
  [equals, notEquals, greaterThan, greaterOrEqual, lessThan, lessOrEqual, contains, startsWith,
    endsWith, «in», notIn, between, isNull, isNotNull]

/-- The place of the operator in the order. -/
def rank (op : Operator) : Nat := list.idxOf op

/-- The word for the operator. -/
def name : Operator → String
  | equals => "equals"
  | notEquals => "not_equals"
  | greaterThan => "greater_than"
  | greaterOrEqual => "greater_or_equal"
  | lessThan => "less_than"
  | lessOrEqual => "less_or_equal"
  | contains => "contains"
  | startsWith => "starts_with"
  | endsWith => "ends_with"
  | «in» => "in"
  | notIn => "not_in"
  | between => "between"
  | isNull => "is_null"
  | isNotNull => "is_not_null"

/-- The operator of a word on the wire. -/
def ofName? (s : String) : Option Operator := list.find? (·.name = s)

/-- The operator that a word, with spaces and in lower case, or a symbol names. -/
def ofWord? : String → Option Operator
  | "=" | "==" | "equals" | "equal" | "is" | "eq" => some equals
  | "!=" | "<>" | "not equals" | "not equal" | "is not" | "ne" => some notEquals
  | ">" | "greater than" | "more than" | "above" | "over" | "gt" => some greaterThan
  | ">=" | "greater or equal" | "at least" | "gte" => some greaterOrEqual
  | "<" | "less than" | "below" | "under" | "lt" => some lessThan
  | "<=" | "less or equal" | "at most" | "lte" => some lessOrEqual
  | "contains" | "like" => some contains
  | "starts with" | "begins with" => some startsWith
  | "ends with" => some endsWith
  | "in" | "one of" => some «in»
  | "not in" | "none of" => some notIn
  | "between" => some between
  | "is null" | "empty" | "missing" => some isNull
  | "is not null" | "not empty" | "present" => some isNotNull
  | _ => none

/-- The operator that a text names. -/
def ofText? (s : String) : Option Operator := ofWord? (Text.wordKey s)

/-- The least number of values. -/
def minValues : Operator → Nat
  | isNull | isNotNull => 0
  | between => 2
  | _ => 1

/-- The greatest number of values, if there is one. -/
def maxValues : Operator → Option Nat
  | isNull | isNotNull => some 0
  | between => some 2
  | «in» | notIn => none
  | _ => some 1

/-- The operator takes so many values. -/
def takes (op : Operator) (n : Nat) : Bool := op.minValues ≤ n && op.maxValues.all (n ≤ ·)

/-- The operator looks for a piece of text. -/
def isPattern : Operator → Bool
  | contains | startsWith | endsWith => true
  | _ => false

end Operator

end MetricLayer
