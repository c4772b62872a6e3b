import MetricLayer.Calendar.DateText
import MetricLayer.Decimal.Shortest
import MetricLayer.Schema.DataType

/-!
# Literals

A literal is a typed value that a query compares with a column. `Literal.coerce` reads the text that
somebody wrote as a value of the column's type.
-/

namespace MetricLayer

/-- A typed value. -/
inductive Literal where
  | text (s : String)
  | int (n : Int)
  | decimal (x : Float)
  | bool (b : Bool)
  | date (d : Date)
  | moment (t : Timestamp)
  deriving DecidableEq, Repr

/-- Why a text is not a value of a type; the text comes without the blanks around it. -/
inductive LiteralError where
  | notInteger (text : String)
  | notNumber (text : String)
  | notBoolean (text : String)
  | notDate (text : String)
  | notMoment (text : String)
  deriving DecidableEq, Repr

/-- The text of a literal error. -/
def LiteralError.message : LiteralError → String
  | .notInteger text => "'" ++ text ++ "' is not an integer"
  | .notNumber text => "'" ++ text ++ "' is not a number"
  | .notBoolean text => "'" ++ text ++ "' is not a boolean"
  | .notDate text => "'" ++ text ++ "' is not a date"
  | .notMoment text => "'" ++ text ++ "' is not a date or timestamp"

namespace Literal

/-- The text of a number without grouping characters and currency signs. -/
def bareNumber (s : String) : String :=
  String.ofList (s.toList.filter fun c => !",_$£€ ".toList.contains c)

open DateText in
/-- The written forms of a day, in the order in which they are tried. -/
def dateForms : List (List Part) :=
  [dateForm .year .month .day '-', dateForm .year .month .day '/', dateForm .day .month .year '/',
    dateForm .day .month .year '.']

open DateText in
/-- The written forms of a moment, in the order in which they are tried. -/
def momentForms : List (List Part) :=
  let day := dateForm .year .month .day '-'
  let toMinute := [.number .hour, .char ':', .number .minute]
  let toSecond := toMinute ++ [.char ':', .number .second]
  [day ++ .gap :: toSecond, day ++ .char 'T' :: toSecond, day ++ .gap :: toMinute]

/-- The day that a text names. -/
def readDate? (s : String) : Option Date := dateForms.findSome? (DateText.readDate? · s)

/-- The moment that a text names; a day stands for its first moment. -/
def readMoment? (s : String) : Option Timestamp :=
  (momentForms.findSome? (DateText.readTimestamp? · s)).or ((readDate? s).map .midnight)

/-- The truth value that a word in lower case names. -/
def readBool? : String → Option Bool
  | "true" | "yes" | "y" | "1" => some true
  | "false" | "no" | "n" | "0" => some false
  | _ => none

/-- The text as a value of the type. -/
def coerce (type : DataType) (raw : String) : Except LiteralError Literal :=
  let s := Text.trim raw
  match type with
  | .string | .unknown => .ok (text s)
  | .integer => match Decimal.readInt64? (bareNumber s) with
    | some n => .ok (int n)
    | none => .error (.notInteger s)
  | .decimal => match (Decimal.readFloat? (bareNumber s)).filter Float.isFinite with
    | some x => .ok (decimal x)
    | none => .error (.notNumber s)
  | .boolean => match readBool? (Text.lower s) with
    | some b => .ok (bool b)
    | none => .error (.notBoolean s)
  | .date => match readDate? s with
    | some d => .ok (date d)
    | none => .error (.notDate s)
  | .timestamp => match readMoment? s with
    | some t => .ok (moment t)
    | none => .error (.notMoment s)

/-- The first value of a day in a column of the type. -/
def dayStart (type : DataType) (d : Date) : Literal :=
  if type = .date then date d else moment (.midnight d)

/-- The last value of a day, to the second, in a column of the type. -/
def dayEnd (type : DataType) (d : Date) : Literal :=
  if type = .date then date d else moment ⟨d, 23, 59, 59, 0⟩

/-- The text of the value in messages. -/
def display : Literal → String
  | text s => s
  | int n => toString n
  | decimal x => Decimal.display x
  | bool b => if b then "true" else "false"
  | date d => d.text
  | moment t => t.text

/-- The values are the same: numbers as numbers, so `-0` is `0`. -/
def same : Literal → Literal → Bool
  | decimal x, decimal y => x == y
  | a, b => a == b

end Literal

end MetricLayer
