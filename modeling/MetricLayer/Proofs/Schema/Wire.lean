import MetricLayer.Proofs.Json.Decode
import MetricLayer.Proofs.Json.Printer
import MetricLayer.Schema.Basic

/-!
# Definitions and their trees

A field is written `Table.Column` and read with its last point between the two names, so a field
that was read has no point in its column: it is `Plain`. The text of a plain field is that of no
other one, and a definition with plain fields has a tree of its own. Nothing of a definition is left
out of the tree, so what the digest of a schema stands for is the whole schema.

Results:
1. `Field.text_inj`: plain fields with the same text are the same.
2. `SchemaDefinition.plain_of_ofJson?`: the fields of a definition that was read are plain.
3. `SchemaDefinition.toJson_inj` and `render_toJson_inj`: so are definitions with the same tree, or
   with the same text.
-/

namespace MetricLayer

/-! ## Fields -/

namespace Field

/-- The field is such as can be read from its text. -/
def Plain (f : Field) : Prop := '.' ∉ f.column.toList

theorem splitLastPoint?_eq_none {cs : List Char} : splitLastPoint? cs = none ↔ '.' ∉ cs := by
  induction cs with
  | nil => simp [splitLastPoint?]
  | cons c cs ih =>
    rw [List.mem_cons, not_or, ← ih]
    cases hcs : splitLastPoint? cs with
    | none => simp [splitLastPoint?, hcs, eq_comm]
    | some p => simp [splitLastPoint?, hcs]

/-- The last point is where no other one follows. -/
theorem splitLastPoint?_append (t : List Char) {c : List Char} (h : '.' ∉ c) :
    splitLastPoint? (t ++ '.' :: c) = some (t, c) := by
  induction t with
  | nil => simp [splitLastPoint?, splitLastPoint?_eq_none.mpr h]
  | cons x t ih => rw [List.cons_append, splitLastPoint?, ih]

theorem splitLastPoint?_some {cs t c : List Char} (h : splitLastPoint? cs = some (t, c)) :
    '.' ∉ c := by
  induction cs generalizing t with
  | nil => cases h
  | cons x cs ih =>
    unfold splitLastPoint? at h
    split at h
    · next heq =>
      cases h
      exact ih heq
    · next hnone =>
      split at h
      · cases h
        exact splitLastPoint?_eq_none.mp hnone
      · cases h

/-- Plain fields with the same text are the same. -/
theorem text_inj {f g : Field} (hf : f.Plain) (hg : g.Plain) (h : f.text = g.text) : f = g := by
  have hsplit := congrArg (fun s => splitLastPoint? s.toList) h
  simp only [text, String.toList_append, show ".".toList = ['.'] from rfl, List.append_assoc,
    List.singleton_append, splitLastPoint?_append _ hf, splitLastPoint?_append _ hg] at hsplit
  obtain ⟨table, column⟩ := f
  obtain ⟨table', column'⟩ := g
  simpa [String.toList_inj] using hsplit

theorem mem_of_mem_trimChars {c : Char} {cs : List Char} (h : c ∈ Text.trimChars cs) : c ∈ cs := by
  have hend := (List.dropWhile_sublist Text.isBlank).subset (List.mem_reverse.mp h)
  exact (List.dropWhile_sublist Text.isBlank).subset (List.mem_reverse.mp hend)

/-- A field that was read is plain. -/
theorem plain_of_ofText? {s : String} {f : Field} (h : ofText? s = some f) : f.Plain := by
  unfold ofText? at h
  split at h
  · next t c hsplit =>
    split at h
    · cases h
    · cases h
      intro hin
      rw [String.toList_ofList] at hin
      exact splitLastPoint?_some hsplit (mem_of_mem_trimChars hin)
  · cases h

theorem plain_of_ofJson? {j : Json} {f : Field} (h : ofJson? j = some f) : f.Plain := by
  obtain ⟨s, -, hs⟩ := Option.bind_eq_some_iff.mp h
  exact plain_of_ofText? hs

theorem toJson_inj {f g : Field} (hf : f.Plain) (hg : g.Plain) (h : f.toJson = g.toJson) : f = g :=
  text_inj hf hg (Json.str.inj h)

theorem toJson_ne_null (f : Field) : f.toJson ≠ .null := by
  intro h
  cases h

end Field

/-! ## Words -/

theorem DataType.name_inj {a b : DataType} (h : a.name = b.name) : a = b := by
  cases a <;> cases b <;> first | rfl | exact absurd h (by decide)

theorem TableKind.name_inj {a b : TableKind} (h : a.name = b.name) : a = b := by
  cases a <;> cases b <;> first | rfl | exact absurd h (by decide)

theorem Cardinality.name_inj {a b : Cardinality} (h : a.name = b.name) : a = b := by
  cases a <;> cases b <;> first | rfl | exact absurd h (by decide)

/-! ## Tables and relationships -/

theorem Json.str_ne_null (s : String) : Json.str s ≠ .null := by
  intro h
  cases h

theorem Json.ofList_str_inj {xs ys : List String} (h : Json.ofList .str xs = Json.ofList .str ys) :
    xs = ys :=
  Json.ofList_inj (fun _ _ _ _ => Json.str.inj) h

theorem Json.ofOption_str_inj {x y : Option String}
    (h : Json.ofOption .str x = Json.ofOption .str y) : x = y :=
  Json.ofOption_inj Json.str_ne_null (fun _ _ _ _ => Json.str.inj) h

theorem Column.toJson_inj {a b : Column} (h : a.toJson = b.toJson) : a = b := by
  obtain ⟨name, type, nullable, primaryKey, foreignKey⟩ := a
  obtain ⟨name', type', nullable', primaryKey', foreignKey'⟩ := b
  simp only [toJson, Json.obj.injEq, List.cons.injEq, Prod.mk.injEq, Json.str.injEq,
    Json.bool.injEq, and_true, true_and] at h
  obtain ⟨rfl, htype, rfl, rfl, rfl⟩ := h
  rw [DataType.name_inj htype]

theorem TableIndex.toJson_inj {a b : TableIndex} (h : a.toJson = b.toJson) : a = b := by
  obtain ⟨name, columns⟩ := a
  obtain ⟨name', columns'⟩ := b
  simp only [toJson, Json.obj.injEq, List.cons.injEq, Prod.mk.injEq, Json.str.injEq, and_true,
    true_and] at h
  obtain ⟨rfl, hcolumns⟩ := h
  rw [Json.ofList_str_inj hcolumns]

theorem Table.toJson_inj {a b : Table} (h : a.toJson = b.toJson) : a = b := by
  obtain ⟨name, schema, kind, columns, indexes⟩ := a
  obtain ⟨name', schema', kind', columns', indexes'⟩ := b
  simp only [toJson, Json.obj.injEq, List.cons.injEq, Prod.mk.injEq, Json.str.injEq, and_true,
    true_and] at h
  obtain ⟨rfl, hschema, hkind, hcolumns, hindexes⟩ := h
  rw [Json.ofOption_str_inj hschema, TableKind.name_inj hkind,
    Json.ofList_inj (fun _ _ _ _ => Column.toJson_inj) hcolumns,
    Json.ofList_inj (fun _ _ _ _ => TableIndex.toJson_inj) hindexes]

theorem Relationship.toJson_inj {a b : Relationship} (h : a.toJson = b.toJson) : a = b := by
  obtain ⟨fromTable, fromColumn, toTable, toColumn, cardinality⟩ := a
  obtain ⟨fromTable', fromColumn', toTable', toColumn', cardinality'⟩ := b
  simp only [toJson, Json.obj.injEq, List.cons.injEq, Prod.mk.injEq, Json.str.injEq, and_true,
    true_and] at h
  obtain ⟨rfl, rfl, rfl, rfl, hcardinality⟩ := h
  rw [Cardinality.name_inj hcardinality]

/-! ## Views -/

/-- The fields that the view mentions are plain. -/
def View.Plain (v : View) : Prop := ∀ f ∈ v.fields, f.Plain

theorem ViewColumn.toJson_inj {a b : ViewColumn} (ha : ∀ f, a.source = some f → f.Plain)
    (hb : ∀ f, b.source = some f → f.Plain) (h : a.toJson = b.toJson) : a = b := by
  obtain ⟨name, source⟩ := a
  obtain ⟨name', source'⟩ := b
  simp only [toJson, Json.obj.injEq, List.cons.injEq, Prod.mk.injEq, Json.str.injEq, and_true,
    true_and] at h
  obtain ⟨rfl, hsource⟩ := h
  obtain rfl : source = source' := Json.ofOption_inj Field.toJson_ne_null
    (fun f g hf hg => Field.toJson_inj (ha f hf) (hb g hg)) hsource
  rfl

theorem View.toJson_inj {a b : View} (ha : a.Plain) (hb : b.Plain) (h : a.toJson = b.toJson) :
    a = b := by
  have hsource : ∀ {v : View}, v.Plain → ∀ c ∈ v.columns, ∀ f, c.source = some f → f.Plain :=
    fun hv c hc f hf => hv f (List.mem_append_left _ (List.mem_filterMap.mpr ⟨c, hc, hf⟩))
  have hgroup : ∀ {v : View}, v.Plain → ∀ f ∈ v.groupBy, f.Plain :=
    fun hv f hf => hv f (List.mem_append_right _ hf)
  obtain ⟨name, schema, columns, materialized, sourceTables, groupBy, refresh⟩ := a
  obtain ⟨name', schema', columns', materialized', sourceTables', groupBy', refresh'⟩ := b
  simp only [toJson, Json.obj.injEq, List.cons.injEq, Prod.mk.injEq, Json.str.injEq,
    Json.bool.injEq, and_true, true_and] at h
  obtain ⟨rfl, hschema, hcolumns, rfl, htables, hgroups, hrefresh⟩ := h
  obtain rfl : columns = columns' := Json.ofList_inj
    (fun c hc d hd => ViewColumn.toJson_inj (hsource ha c hc) (hsource hb d hd)) hcolumns
  obtain rfl : groupBy = groupBy' := Json.ofList_inj
    (fun f hf g hg => Field.toJson_inj (hgroup ha f hf) (hgroup hb g hg)) hgroups
  rw [Json.ofOption_str_inj hschema, Json.ofList_str_inj htables, Json.ofOption_str_inj hrefresh]

theorem ViewColumn.plain_of_ofJson? {rigor : Json.Rigor} {j : Json} {c : ViewColumn}
    (h : ofJson? rigor j = some c) : ∀ f, c.source = some f → f.Plain := by
  simp only [ofJson?, Option.bind_eq_bind, Option.bind_eq_some_iff, Option.pure_def,
    Option.some.injEq] at h
  obtain ⟨r, -, name, -, source, hsource, rfl⟩ := h
  rintro f rfl
  obtain ⟨j, hj⟩ := Json.Fields.exists_of_omissible hsource
  exact Field.plain_of_ofJson? hj

/-- A view that was read is plain. -/
theorem View.plain_of_ofJson? {rigor : Json.Rigor} {j : Json} {v : View}
    (h : ofJson? rigor j = some v) : v.Plain := by
  simp only [ofJson?, Option.bind_eq_bind, Option.bind_eq_some_iff, Option.pure_def,
    Option.some.injEq] at h
  obtain ⟨r, -, name, -, schema, -, columns, hcolumns, -, -, -, -, groups, hgroups, -, -, rfl⟩ := h
  intro f hf
  rcases List.mem_append.mp hf with hf | hf
  · obtain ⟨c, hc, hcf⟩ := List.mem_filterMap.mp hf
    obtain ⟨j, hj⟩ := Json.Fields.exists_of_defaulted_list hcolumns c hc
    exact ViewColumn.plain_of_ofJson? hj f hcf
  · obtain ⟨j, hj⟩ := Json.Fields.exists_of_defaulted_list hgroups f hf
    exact Field.plain_of_ofJson? hj

/-! ## Whole definitions -/

namespace SchemaDefinition

/-- The fields that its views mention are plain. -/
def Plain (d : SchemaDefinition) : Prop := ∀ v ∈ d.views, v.Plain

theorem toJson_inj {a b : SchemaDefinition} (ha : a.Plain) (hb : b.Plain)
    (h : a.toJson = b.toJson) : a = b := by
  obtain ⟨tables, views, relationships⟩ := a
  obtain ⟨tables', views', relationships'⟩ := b
  simp only [toJson, Json.obj.injEq, List.cons.injEq, Prod.mk.injEq, and_true, true_and] at h
  obtain ⟨htables, hviews, hrelationships⟩ := h
  obtain rfl := Json.ofList_inj (fun _ _ _ _ => Table.toJson_inj) htables
  obtain rfl := Json.ofList_inj (fun v hv w hw => View.toJson_inj (ha v hv) (hb w hw)) hviews
  obtain rfl := Json.ofList_inj (fun _ _ _ _ => Relationship.toJson_inj) hrelationships
  rfl

/-- A definition that was read is plain. -/
theorem plain_of_ofJson? {rigor : Json.Rigor} {j : Json} {d : SchemaDefinition}
    (h : ofJson? rigor j = some d) : d.Plain := by
  simp only [ofJson?, Option.bind_eq_bind, Option.bind_eq_some_iff, Option.pure_def,
    Option.some.injEq] at h
  obtain ⟨r, -, tables, -, views, hviews, -, -, rfl⟩ := h
  intro v hv
  obtain ⟨j, hj⟩ := Json.Fields.exists_of_defaulted_list hviews v hv
  exact View.plain_of_ofJson? hj

end SchemaDefinition

end MetricLayer
