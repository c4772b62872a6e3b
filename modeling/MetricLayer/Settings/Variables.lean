import MetricLayer.Settings.Basic
import MetricLayer.Text.Letter

/-!
# Texts with variables

A path in the settings may name environment variables, as `$NAME` or `${NAME}`. Such a text is a
list of pieces, and `expandVariables` puts the values of the variables in.
-/

namespace MetricLayer

/-- A piece of a text that may name variables. -/
inductive PathPiece where
  | char (c : Char)
  | named (name : String)
  deriving DecidableEq, Repr

namespace PathPiece

/-- The character can be part of a variable's name outside braces. -/
def isNameChar (c : Char) : Bool := Text.isAlphanumeric c || c = '_'

/-- The pieces of a text. A `$` without a name stays as it is, and an open brace reaches to the end
of the text. -/
def ofChars : List Char → List PathPiece
  | [] => []
  | '$' :: '\x7b' :: r =>
    named (String.ofList (r.takeWhile (· ≠ '\x7d'))) ::
      ofChars ((r.dropWhile (· ≠ '\x7d')).drop 1)
  | '$' :: r =>
    if (r.takeWhile isNameChar).isEmpty then char '$' :: ofChars r
    else named (String.ofList (r.takeWhile isNameChar)) :: ofChars (r.dropWhile isNameChar)
  | c :: r => char c :: ofChars r
termination_by cs => cs.length
decreasing_by
  · have := (List.dropWhile_suffix (l := r) (· ≠ '\x7d')).length_le
    simp only [List.length_drop, List.length_cons]
    omega
  · simp
  · have := (List.dropWhile_suffix (l := r) isNameChar).length_le
    simp only [List.length_cons]
    omega
  · simp

/-- The name of the variable, if the piece is one. -/
def name? : PathPiece → Option String
  | char _ => none
  | named name => some name

/-- The text of a piece with the value of its variable. -/
def expand (value? : String → Option String) : PathPiece → Except SettingsError (List Char)
  | char c => .ok [c]
  | named name =>
    match value? name with
    | some v => .ok v.toList
    | none => .error (.missingVariable name)

end PathPiece

/-- The variables that a text names. -/
def variableNames (s : String) : List String :=
  (PathPiece.ofChars s.toList).filterMap PathPiece.name?

/-- The text with the values of its variables; the first one without a value is missing. -/
def expandVariables (value? : String → Option String) (s : String) : Except SettingsError String :=
  ((PathPiece.ofChars s.toList).mapM (PathPiece.expand value?)).map fun parts =>
    String.ofList parts.flatten

namespace SourceSettings

/-- An optional path with the values of its variables. -/
def expandPath (value? : String → Option String) :
    Option String → Except SettingsError (Option String)
  | none => .ok none
  | some p => (expandVariables value? p).map some

/-- The variables that the paths name. -/
def variableNames (s : SourceSettings) : List String :=
  [s.dictionaryPath, s.schemaPath].flatMap fun p => (p.map MetricLayer.variableNames).getD []

end SourceSettings

end MetricLayer
