import MetricLayer.Json.Decode
import MetricLayer.Schema.Definition

/-!
# Schema definitions as data trees

The members stand in a fixed order, which the fingerprint of a schema depends on.
-/

namespace MetricLayer

open Json (ofList ofOption)

/-- A field, written `Table.Column`. -/
def Field.toJson (f : Field) : Json := .str f.text

/-- A field from a tree. -/
def Field.ofJson? (j : Json) : Option Field := j.asText?.bind Field.ofText?

/-- A type from a tree: any word, unknown ones included. -/
def DataType.ofJson? (j : Json) : Option DataType := j.asText?.map DataType.ofText

/-- A column. -/
def Column.toJson (c : Column) : Json :=
  .obj [("name", .str c.name), ("type", .str c.type.name), ("nullable", .bool c.nullable),
    ("primary_key", .bool c.primaryKey), ("foreign_key", .bool c.foreignKey)]

/-- A column from a tree. -/
def Column.ofJson? (rigor : Json.Rigor) (j : Json) : Option Column := do
  let r ← j.fields? rigor ["name", "type", "nullable", "primary_key", "foreign_key"]
  pure
    { name := ← r.required "name" Json.asText?
      type := ← r.defaulted "type" .unknown DataType.ofJson?
      nullable := ← r.defaulted "nullable" true Json.asBool?
      primaryKey := ← r.defaulted "primary_key" false Json.asBool?
      foreignKey := ← r.defaulted "foreign_key" false Json.asBool? }

/-- An index. -/
def TableIndex.toJson (i : TableIndex) : Json :=
  .obj [("name", .str i.name), ("columns", ofList .str i.columns)]

/-- An index from a tree. -/
def TableIndex.ofJson? (rigor : Json.Rigor) (j : Json) : Option TableIndex := do
  let r ← j.fields? rigor ["name", "columns"]
  pure
    { name := ← r.required "name" Json.asText?
      columns := ← r.required "columns" (Json.asList? Json.asText?) }

/-- A table. -/
def Table.toJson (t : Table) : Json :=
  .obj [("name", .str t.name), ("schema", ofOption .str t.schema), ("kind", .str t.kind.name),
    ("columns", ofList Column.toJson t.columns), ("indexes", ofList TableIndex.toJson t.indexes)]

/-- A table from a tree. -/
def Table.ofJson? (rigor : Json.Rigor) (j : Json) : Option Table := do
  let r ← j.fields? rigor ["name", "schema", "kind", "columns", "indexes"]
  pure
    { name := ← r.required "name" Json.asText?
      schema := ← r.omissible "schema" Json.asText?
      kind := ← r.defaulted "kind" .regular (Json.asWord? rigor TableKind.ofName?)
      columns := ← r.defaulted "columns" [] (Json.asList? (Column.ofJson? rigor))
      indexes := ← r.defaulted "indexes" [] (Json.asList? (TableIndex.ofJson? rigor)) }

/-- A column of a view. -/
def ViewColumn.toJson (c : ViewColumn) : Json :=
  .obj [("name", .str c.name), ("source", ofOption Field.toJson c.source)]

/-- A column of a view from a tree. -/
def ViewColumn.ofJson? (rigor : Json.Rigor) (j : Json) : Option ViewColumn := do
  let r ← j.fields? rigor ["name", "source"]
  pure
    { name := ← r.required "name" Json.asText?
      source := ← r.omissible "source" Field.ofJson? }

/-- A view. -/
def View.toJson (v : View) : Json :=
  .obj [("name", .str v.name), ("schema", ofOption .str v.schema),
    ("columns", ofList ViewColumn.toJson v.columns), ("materialized", .bool v.materialized),
    ("source_tables", ofList .str v.sourceTables), ("group_by", ofList Field.toJson v.groupBy),
    ("refresh", ofOption .str v.refresh)]

/-- A view from a tree. -/
def View.ofJson? (rigor : Json.Rigor) (j : Json) : Option View := do
  let r ← j.fields? rigor ["name", "schema", "columns", "materialized", "source_tables",
    "group_by", "refresh"]
  pure
    { name := ← r.required "name" Json.asText?
      schema := ← r.omissible "schema" Json.asText?
      columns := ← r.defaulted "columns" [] (Json.asList? (ViewColumn.ofJson? rigor))
      materialized := ← r.defaulted "materialized" false Json.asBool?
      sourceTables := ← r.defaulted "source_tables" [] (Json.asList? Json.asText?)
      groupBy := ← r.defaulted "group_by" [] (Json.asList? Field.ofJson?)
      refresh := ← r.omissible "refresh" Json.asText? }

/-- A relationship. -/
def Relationship.toJson (r : Relationship) : Json :=
  .obj [("from_table", .str r.fromTable), ("from_column", .str r.fromColumn),
    ("to_table", .str r.toTable), ("to_column", .str r.toColumn),
    ("cardinality", .str r.cardinality.name)]

/-- A relationship from a tree. -/
def Relationship.ofJson? (rigor : Json.Rigor) (j : Json) : Option Relationship := do
  let r ← j.fields? rigor ["from_table", "from_column", "to_table", "to_column", "cardinality"]
  pure
    { fromTable := ← r.required "from_table" Json.asText?
      fromColumn := ← r.required "from_column" Json.asText?
      toTable := ← r.required "to_table" Json.asText?
      toColumn := ← r.required "to_column" Json.asText?
      cardinality := ← r.defaulted "cardinality" .manyToOne
        (Json.asWord? rigor Cardinality.ofName?) }

/-- A whole definition. -/
def SchemaDefinition.toJson (d : SchemaDefinition) : Json :=
  .obj [("tables", ofList Table.toJson d.tables), ("views", ofList View.toJson d.views),
    ("relationships", ofList Relationship.toJson d.relationships)]

/-- A whole definition from a tree. -/
def SchemaDefinition.ofJson? (rigor : Json.Rigor) (j : Json) : Option SchemaDefinition := do
  let r ← j.fields? rigor ["tables", "views", "relationships"]
  pure
    { tables := ← r.defaulted "tables" [] (Json.asList? (Table.ofJson? rigor))
      views := ← r.defaulted "views" [] (Json.asList? (View.ofJson? rigor))
      relationships := ← r.defaulted "relationships" []
        (Json.asList? (Relationship.ofJson? rigor)) }

end MetricLayer
