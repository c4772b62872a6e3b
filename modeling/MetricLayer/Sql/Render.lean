import MetricLayer.Decimal.Shortest
import MetricLayer.Sql.Dialect
import MetricLayer.Sql.Query

/-!
# Writing queries

A query is written in two steps. First it is laid out as pieces: fixed words, names and values. Then
the pieces are written one after the other, where each value becomes a placeholder and is numbered
in that order. So a value can reach the parameters but never the text.
-/

namespace MetricLayer

/-- A piece of a written query. -/
inductive Piece where
  | word (s : String)
  | name (s : String)
  | value (v : Literal)
  deriving DecidableEq, Repr

/-- A parameter of a written query. -/
structure Parameter where
  name : String
  value : Literal
  deriving DecidableEq, Repr

/-- The text of a query and its parameters in the order of their placeholders. -/
structure Statement where
  sql : String
  parameters : List Parameter
  deriving DecidableEq, Repr

/-- Why a query cannot be written. -/
inductive RenderError where
  | emptySelect
  | emptyInList
  deriving DecidableEq, Repr

namespace RenderError

/-- The word for the kind of error. -/
def kind : RenderError → String
  | emptySelect => "empty_select"
  | emptyInList => "empty_in_list"

/-- The text of the error. -/
def message : RenderError → String
  | emptySelect => "Query has an empty select list"
  | emptyInList => "IN list has no values"

end RenderError

namespace Piece

/-- The text of a piece; `n` is the number of the placeholder if it is a value. -/
def text (d : Dialect) (n : Nat) : Piece → String
  | word s => s
  | name s => d.quote s
  | value _ => d.placeholder n

/-- The pieces one after the other, the first value having the number `n`. -/
def texts (d : Dialect) (n : Nat) : List Piece → List String
  | [] => []
  | value v :: ps => text d n (value v) :: texts d (n + 1) ps
  | p :: ps => text d n p :: texts d n ps

/-- The values of the pieces. -/
def values : List Piece → List Literal
  | [] => []
  | value v :: ps => v :: values ps
  | _ :: ps => values ps

/-- The names of the pieces. -/
def names : List Piece → List String
  | [] => []
  | name s :: ps => s :: names ps
  | _ :: ps => names ps

end Piece

/-- The values as parameters `p1`, `p2`, …, the first one having the number `n`. -/
def parametersFrom (n : Nat) : List Literal → List Parameter
  | [] => []
  | v :: vs => ⟨"p" ++ toString n, v⟩ :: parametersFrom (n + 1) vs

/-- The statement of the pieces. -/
def Statement.ofPieces (d : Dialect) (ps : List Piece) : Statement :=
  ⟨String.join (Piece.texts d 1 ps), parametersFrom 1 (Piece.values ps)⟩

/-- The lists with a piece between each two. -/
def Piece.join (separator : String) : List (List Piece) → List Piece
  | [] => []
  | [ps] => ps
  | ps :: qs :: rest => ps ++ .word separator :: Piece.join separator (qs :: rest)

/-- A number of a formula: zero has no sign. -/
def formulaNumber (x : Float) : String := if x == 0 then "0" else Decimal.display x

/-- A field: its table and its column. -/
def Field.pieces (f : Field) : List Piece := [.name f.table, .word ".", .name f.column]

mutual

/-- An expression. -/
def Expr.pieces (d : Dialect) : Expr → List Piece
  | .field f => f.pieces
  | .value v => [.value v]
  | .number x => [.word (formulaNumber x)]
  | .aggregate func e =>
    .word (func.function ++ "(" ++ if func = .countDistinct then "DISTINCT " else "") ::
      e.pieces d ++ [.word ")"]
  | .binary a op b => a.pieces d ++ .word (" " ++ op.sign ++ " ") :: b.pieces d
  | .not e => .word "NOT (" :: e.pieces d ++ [.word ")"]
  | .between e low high =>
    e.pieces d ++ .word " BETWEEN " :: low.pieces d ++ .word " AND " :: high.pieces d
  | .inList e items negated =>
    e.pieces d ++ .word (if negated then " NOT IN (" else " IN (") ::
      Piece.join ", " (Expr.listPieces d items) ++ [.word ")"]
  | .isNull e negated => e.pieces d ++ [.word (if negated then " IS NOT NULL" else " IS NULL")]
  | .like e p =>
    e.pieces d ++ .word " LIKE " :: p.pieces d ++
      [.word (" ESCAPE '" ++ String.ofList [Expr.likeEscape] ++ "'")]
  | .datePart unit e =>
    .word (d.datePartWords unit).1 :: e.pieces d ++ [.word (d.datePartWords unit).2]
  | .nullIfZero e => .word "NULLIF(" :: e.pieces d ++ [.word ", 0)"]
  | .nested e => .word "(" :: e.pieces d ++ [.word ")"]

def Expr.listPieces (d : Dialect) : List Expr → List (List Piece)
  | [] => []
  | e :: es => e.pieces d :: Expr.listPieces d es

end

/-- A table. -/
def TableRef.pieces (t : TableRef) : List Piece :=
  match t.schema with
  | some s => [.name s, .word ".", .name t.table]
  | none => [.name t.table]

/-- A selected expression. -/
def SelectItem.pieces (d : Dialect) (s : SelectItem) : List Piece :=
  s.expr.pieces d ++ match s.label with
    | some a => [.word " AS ", .name a]
    | none => []

/-- A join. -/
def Join.pieces (j : Join) : List Piece :=
  .word "\nINNER JOIN " :: j.table.pieces ++ .word " ON " ::
    Piece.join " AND " (j.on.map fun (a, b) => a.pieces ++ .word " = " :: b.pieces)

/-- A clause with its keyword, left out if it is empty. -/
def clausePieces (keyword separator : String) (parts : List (List Piece)) : List Piece :=
  if parts.isEmpty then [] else .word keyword :: Piece.join separator parts

/-- The row limit in front of the selected expressions or at the end. -/
def limitPieces (before after : String) : Option Nat → List Piece
  | none => []
  | some n => [.word (before ++ toString n ++ after)]

namespace Query

/-- The whole query. -/
def pieces (d : Dialect) (q : Query) : List Piece :=
  .word "SELECT " :: (if d.usesTop then limitPieces "TOP " " " q.limit else []) ++
    Piece.join ", " (q.select.map (·.pieces d)) ++
    .word "\nFROM " :: q.source.pieces ++
    q.joins.flatMap Join.pieces ++
    clausePieces "\nWHERE " " AND " (q.filters.map (Expr.pieces d)) ++
    clausePieces "\nGROUP BY " ", " (q.groupBy.map (Expr.pieces d)) ++
    clausePieces "\nHAVING " " AND " (q.having.map (Expr.pieces d)) ++
    clausePieces "\nORDER BY " ", " (q.orderBy.map fun o =>
      o.expr.pieces d ++ [.word (if o.descending then " DESC" else " ASC")]) ++
    (if d.usesTop then [] else limitPieces "\nLIMIT " "" q.limit)

/-- The query as a statement. -/
def render (d : Dialect) (q : Query) : Except RenderError Statement :=
  if q.select.isEmpty then .error .emptySelect
  else if q.exprs.any Expr.hasEmptyList then .error .emptyInList
  else .ok (.ofPieces d (q.pieces d))

end Query

end MetricLayer
