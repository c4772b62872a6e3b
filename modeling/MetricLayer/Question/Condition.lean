import MetricLayer.Question.Phrase
import MetricLayer.Question.Reading

/-!
# Conditions of a question

A condition begins with "where", "with" or "when", and further ones follow with "and". Each
condition becomes a filter.
-/

namespace MetricLayer

/-- A condition as it stands in a question. -/
structure Condition where
  span : Span
  field : String
  /-- The operator as it is written, in lower case. -/
  operator : String
  /-- The values as they are written. -/
  values : String
  deriving DecidableEq, Repr

namespace Condition

/-- The condition of a match in the text; the places of the text are counted from `offset`. -/
def ofMatch (m : Pattern.Match) (cs : List Char) (offset : Nat) : Condition :=
  let operator := ((m.group? 2).or (m.group? 3)).map (·.text cs)
  { span := m.span.shift offset
    field := m.groupText 1 cs
    operator := Text.lower (Text.collapse (operator.getD ""))
    values := m.groupText 4 cs }

/-- The word by which a request calls the operator. -/
def operatorWord : String → String
  | "is" => "equals"
  | "is not" => "not_equals"
  | "is in" | "is one of" | "one of" => "in"
  | "at least" => ">="
  | "at most" => "<="
  | op => op

/-- The pieces of the text between the matches. -/
def piecesBetween (cs : List Char) : Nat → List Pattern.Match → List (List Char)
  | i, [] => [cs.drop i]
  | i, m :: ms => Span.of ⟨i, m.span.start⟩ cs :: piecesBetween cs m.span.stop ms

/-- The single values, without the quotes around them. -/
def splitValues (raw : String) : List String :=
  let pieces := piecesBetween raw.toList 0 (Phrase.valueSeparator.findAll raw.toList)
  (pieces.map fun cs =>
    Text.trimWhile (fun c => c = '\'' || c = '"') (String.ofList (Text.trimChars cs))).filter
    (!·.isEmpty)

/-- The filter of the condition. -/
def filter (c : Condition) : FilterMention :=
  { field := Text.trim c.field
    operator := operatorWord c.operator
    value := .ofList (splitValues c.values) }

/-- The conditions that follow one after the other from a place on; `fuel` bounds their number. -/
def chain : Nat → List Char → Nat → List Condition
  | 0, _, _ => []
  | fuel + 1, cs, offset =>
    match Phrase.chainedCondition.find cs with
    | none => []
    | some m => ofMatch m cs offset :: chain fuel (cs.drop m.span.stop) (offset + m.span.stop)

/-- The condition of a match and those that follow it. -/
def withChain (cs : List Char) (m : Pattern.Match) : List Condition :=
  ofMatch m cs 0 :: chain cs.length (cs.drop m.span.stop) m.span.stop

/-- The conditions of a question. -/
def list (cs : List Char) : List Condition :=
  (Phrase.firstCondition.findAll cs).flatMap (withChain cs)

end Condition

namespace Reading

/-- Reads the conditions. -/
def filters (r : Reading) : Reading :=
  let found := Condition.list r.rest
  let request := { r.request with filters := r.request.filters ++ found.map Condition.filter }
  ({ r with request } : Reading).blank (found.map Condition.span)

end Reading

end MetricLayer
