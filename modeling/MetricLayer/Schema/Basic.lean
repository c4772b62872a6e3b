import MetricLayer.Digest.Sha256
import MetricLayer.Json.Printer
import MetricLayer.Schema.Wire

/-!
# Schemas

A `Schema` is a definition without faults: table and view names differ in more than letter case, and
relationships and views refer to tables and columns that exist. Tables and views are found by name
without regard to letter case, columns without regard to the case of ASCII letters.
-/

namespace MetricLayer

/-- Why there is no schema. -/
inductive SchemaError where
  | duplicateName (name : String)
  | unknownRelationshipTable (relationship table : String)
  | unknownRelationshipColumn (relationship column : String)
  | unknownViewSource (view source : String)
  | invalidField (text : String)
  /-- The text of the definition cannot be read. -/
  | unreadable
  /-- The file of the definition cannot be read. -/
  | file (reason : String)
  /-- Whoever supplies the definition has failed. -/
  | provider (reason : String)
  deriving DecidableEq, Repr

namespace SchemaError

/-- The word for the kind of error. -/
def kind : SchemaError → String
  | duplicateName _ => "duplicate_name"
  | unknownRelationshipTable .. => "unknown_relationship_table"
  | unknownRelationshipColumn .. => "unknown_relationship_column"
  | unknownViewSource .. => "unknown_view_source"
  | invalidField _ => "invalid_field_ref"
  | unreadable => "parse"
  | file _ => "io"
  | provider _ => "provider"

/-- The text of the error. -/
def message : SchemaError → String
  | duplicateName name => "Duplicate table or view name: " ++ name
  | unknownRelationshipTable relationship table =>
    "Relationship " ++ relationship ++ " references unknown table '" ++ table ++ "'"
  | unknownRelationshipColumn relationship column =>
    "Relationship " ++ relationship ++ " references unknown column '" ++ column ++ "'"
  | unknownViewSource view source =>
    "View '" ++ view ++ "' references unknown source '" ++ source ++ "'"
  | invalidField text => "Invalid field reference '" ++ text ++ "': expected Table.Column"
  | unreadable => "Failed to parse schema definition: TOML parse error"
  | file reason => "Failed to read schema definition: " ++ reason
  | provider reason => "Schema provider failed: " ++ reason

end SchemaError

/-- The names are the same without regard to letter case. -/
def sameName (a b : String) : Bool := Text.lower a == Text.lower b

namespace SchemaDefinition

/-- The table with the name, letter case ignored. -/
def table? (d : SchemaDefinition) (name : String) : Option Table :=
  d.tables.find? (sameName ·.name name)

/-- The view with the name, letter case ignored. -/
def view? (d : SchemaDefinition) (name : String) : Option View :=
  d.views.find? (sameName ·.name name)

/-- The column that the field refers to. -/
def column? (d : SchemaDefinition) (f : Field) : Option Column :=
  (d.table? f.table).bind (·.column? f.column)

/-- The first name that agrees with one before it when letter case is ignored; `seen` holds the
names before, in lower case. -/
def firstRepeated? (seen : List String) : List String → Option String
  | [] => none
  | name :: names =>
    if seen.contains (Text.lower name) then some name
    else firstRepeated? (Text.lower name :: seen) names

/-- What is wrong with one end of a relationship. -/
def endFault? (d : SchemaDefinition) (r : Relationship) (table column : String) :
    Option SchemaError :=
  match d.table? table with
  | none => some (.unknownRelationshipTable r.label table)
  | some t =>
    if (t.column? column).isNone then
      some (.unknownRelationshipColumn r.label (table ++ "." ++ column))
    else none

/-- What is wrong with a relationship. -/
def relationshipFault? (d : SchemaDefinition) (r : Relationship) : Option SchemaError :=
  (d.endFault? r r.fromTable r.fromColumn).or (d.endFault? r r.toTable r.toColumn)

/-- What is wrong with a view. -/
def viewFault? (d : SchemaDefinition) (v : View) : Option SchemaError :=
  match v.sourceTables.find? fun t => (d.table? t).isNone with
  | some t => some (.unknownViewSource v.name t)
  | none =>
    (v.fields.find? fun f => (d.column? f).isNone).map (.unknownViewSource v.name ·.text)

/-- The first fault of the definition: repeated names, then relationships, then views. -/
def fault? (d : SchemaDefinition) : Option SchemaError :=
  ((firstRepeated? [] (d.tables.map (·.name) ++ d.views.map (·.name))).map .duplicateName).or
    ((d.relationships.findSome? d.relationshipFault?).or (d.views.findSome? d.viewFault?))

end SchemaDefinition

/-- A definition without faults. -/
structure Schema where
  definition : SchemaDefinition
  sound : definition.fault? = none

namespace Schema

/-- The schema of a definition. -/
def ofDefinition (d : SchemaDefinition) : Except SchemaError Schema :=
  match h : d.fault? with
  | none => .ok ⟨d, h⟩
  | some e => .error e

/-- A definition becomes a schema exactly if it has no fault. -/
theorem ofDefinition_eq_ok_iff {d : SchemaDefinition} {s : Schema} :
    ofDefinition d = .ok s ↔ d.fault? = none ∧ s.definition = d := by
  unfold ofDefinition
  constructor
  · intro h
    split at h
    · cases h; exact ⟨by assumption, rfl⟩
    · cases h
  · rintro ⟨h, rfl⟩
    split
    · rfl
    · simp_all

/-- The schema without tables. -/
def empty : Schema := ⟨{}, rfl⟩

instance : Inhabited Schema := ⟨empty⟩

/-- The tables. -/
def tables (s : Schema) : List Table := s.definition.tables

/-- The views. -/
def views (s : Schema) : List View := s.definition.views

/-- The relationships. -/
def relationships (s : Schema) : List Relationship := s.definition.relationships

/-- The table with the name, letter case ignored. -/
def table? (s : Schema) (name : String) : Option Table := s.definition.table? name

/-- The view with the name, letter case ignored. -/
def view? (s : Schema) (name : String) : Option View := s.definition.view? name

/-- The column that a field refers to. -/
def column? (s : Schema) (f : Field) : Option Column := s.definition.column? f

/-- The field in the spelling of the declaration. -/
def canonical? (s : Schema) (f : Field) : Option Field :=
  (s.table? f.table).bind fun t => (t.column? f.column).map fun c => ⟨t.name, c.name⟩

/-- The views whose rows are stored. -/
def materializedViews (s : Schema) : List View := s.views.filter (·.materialized)

/-- The digest of the whole definition. -/
def fingerprint (s : Schema) : String := Sha256.digest s.definition.toJson.render

end Schema

end MetricLayer
