import MetricLayer.Text.Blank
import MetricLayer.Text.Casing

/-!
# Fields

A field is a column of a table, written `Table.Column`. The last point separates the two names.
-/

namespace MetricLayer

/-- A column of a table. -/
structure Field where
  table : String
  column : String
  deriving DecidableEq, Repr

namespace Field

/-- The text `Table.Column`. -/
def text (f : Field) : String := f.table ++ "." ++ f.column

/-- The characters before and after the last point, if there is one. -/
def splitLastPoint? : List Char → Option (List Char × List Char)
  | [] => none
  | c :: cs =>
    match splitLastPoint? cs with
    | some (before, after) => some (c :: before, after)
    | none => if c = '.' then some ([], cs) else none

/-- The field written in a text. Both names are there, blanks around them aside. -/
def ofText? (s : String) : Option Field :=
  match splitLastPoint? (Text.trimChars s.toList) with
  | some (t, c) =>
    if t.isEmpty || c.isEmpty then none
    else some ⟨String.ofList (Text.trimChars t), String.ofList (Text.trimChars c)⟩
  | none => none

/-- The fields agree when the case of ASCII letters is ignored. -/
def sameIgnoringAsciiCase (f g : Field) : Bool :=
  Text.eqIgnoringAsciiCase f.table g.table && Text.eqIgnoringAsciiCase f.column g.column

/-- Fields by table and then by column. -/
def le (f g : Field) : Bool := f.table < g.table || (f.table == g.table && f.column ≤ g.column)

end Field

end MetricLayer
