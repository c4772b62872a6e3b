import MetricLayer.Schema.DataType
import MetricLayer.Schema.Field

/-!
# Schema definitions

What somebody writes down about a database: tables with their columns, views over them and the
relationships along which tables are joined. A definition may be wrong; `Schema` is one that is not.
-/

namespace MetricLayer

/-- A column of a table. -/
structure Column where
  name : String
  type : DataType := .unknown
  nullable : Bool := true
  primaryKey : Bool := false
  foreignKey : Bool := false
  deriving DecidableEq, Repr

/-- The role of a table: a table of events, a table that describes them, or neither. -/
inductive TableKind where
  | fact
  | dimension
  | regular
  deriving DecidableEq, Repr

namespace TableKind

/-- The word for the kind. -/
def name : TableKind → String
  | fact => "fact"
  | dimension => "dimension"
  | regular => "regular"

/-- The kind of a word on the wire. -/
def ofName? : String → Option TableKind
  | "fact" => some fact
  | "dimension" => some dimension
  | "regular" => some regular
  | _ => none

end TableKind

/-- A secondary index, which only serves hints. -/
structure TableIndex where
  name : String
  columns : List String
  deriving DecidableEq, Repr

/-- A table. -/
structure Table where
  name : String
  schema : Option String := none
  kind : TableKind := .regular
  columns : List Column := []
  indexes : List TableIndex := []
  deriving DecidableEq, Repr

namespace Table

/-- The column with the name, the case of ASCII letters ignored. -/
def column? (t : Table) (name : String) : Option Column :=
  t.columns.find? fun c => Text.eqIgnoringAsciiCase c.name name

/-- The column that time ranges apply to: the first one whose values are days or moments. -/
def dateColumn? (t : Table) : Option String :=
  (t.columns.find? (·.type.isTemporal)).map (·.name)

/-- The table holds events. -/
def isFact (t : Table) : Bool := t.kind = .fact

end Table

/-- A column of a view and the field that it shows, if it shows one. -/
structure ViewColumn where
  name : String
  source : Option Field := none
  deriving DecidableEq, Repr

/-- A view, whose rows are stored if it is materialized. Without grouping fields it has one row for
each row of its source tables. -/
structure View where
  name : String
  schema : Option String := none
  columns : List ViewColumn := []
  materialized : Bool := false
  sourceTables : List String := []
  groupBy : List Field := []
  refresh : Option String := none
  deriving DecidableEq, Repr

namespace View

/-- The column of the view that shows the field. -/
def columnFor? (v : View) (f : Field) : Option ViewColumn :=
  v.columns.find? fun c => c.source.any (·.sameIgnoringAsciiCase f)

/-- The fields that the view mentions: those its columns show and those it is grouped by. -/
def fields (v : View) : List Field := v.columns.filterMap (·.source) ++ v.groupBy

/-- The rows of the view stand for groups. -/
def isAggregated (v : View) : Bool := !v.groupBy.isEmpty

end View

/-- How many rows of one table belong to a row of the other, read from left to right. -/
inductive Cardinality where
  | oneToOne
  | oneToMany
  | manyToOne
  | manyToMany
  deriving DecidableEq, Repr

namespace Cardinality

/-- The word for the cardinality. -/
def name : Cardinality → String
  | oneToOne => "one_to_one"
  | oneToMany => "one_to_many"
  | manyToOne => "many_to_one"
  | manyToMany => "many_to_many"

/-- The cardinality of a word on the wire. -/
def ofName? : String → Option Cardinality
  | "one_to_one" => some oneToOne
  | "one_to_many" => some oneToMany
  | "many_to_one" => some manyToOne
  | "many_to_many" => some manyToMany
  | _ => none

/-- The cardinality read from the other side. -/
def reverse : Cardinality → Cardinality
  | oneToMany => manyToOne
  | manyToOne => oneToMany
  | c => c

theorem reverse_reverse (c : Cardinality) : c.reverse.reverse = c := by cases c <;> rfl

/-- The short text, such as `N:1`. -/
def text : Cardinality → String
  | oneToOne => "1:1"
  | oneToMany => "1:N"
  | manyToOne => "N:1"
  | manyToMany => "N:N"

end Cardinality

/-- Two tables that are joined where two columns are equal. -/
structure Relationship where
  fromTable : String
  fromColumn : String
  toTable : String
  toColumn : String
  cardinality : Cardinality := .manyToOne
  deriving DecidableEq, Repr

namespace Relationship

/-- The text by which messages name the relationship. -/
def label (r : Relationship) : String :=
  r.fromTable ++ "." ++ r.fromColumn ++ " -> " ++ r.toTable ++ "." ++ r.toColumn

/-- The relationship read from the other side. -/
def reverse (r : Relationship) : Relationship :=
  ⟨r.toTable, r.toColumn, r.fromTable, r.fromColumn, r.cardinality.reverse⟩

theorem reverse_reverse (r : Relationship) : r.reverse.reverse = r := by
  simp [reverse, Cardinality.reverse_reverse]

end Relationship

/-- Everything written down about a database. -/
structure SchemaDefinition where
  tables : List Table := []
  views : List View := []
  relationships : List Relationship := []
  deriving DecidableEq, Repr

end MetricLayer
