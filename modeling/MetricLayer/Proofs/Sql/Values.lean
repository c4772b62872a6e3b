import MetricLayer.Proofs.Sql.Renaming
import MetricLayer.Proofs.Sql.Written

/-!
# The values of a query

Values leave the text of a query alone: `Expr.mapValues` puts other values in the place of those of an
expression, and what is written stays what it was but for the parameters. The parameters in turn
are the values in the order in which they are written.

Results:
1. `Query.sql_mapValues`: other values leave the text of a query alone.
2. `Query.parameters_eq`: the parameters are the values of the expressions, numbered in order.
-/

namespace MetricLayer

/-! ## Pieces -/

namespace Piece

variable {g : Literal → Literal} {d : Dialect}

/-- The piece with another value, if it is one. -/
def mapValue (g : Literal → Literal) : Piece → Piece
  | word s => word s
  | name s => name s
  | value v => value (g v)

/-- Pieces without values are what they are. -/
theorem map_mapValue {ps : List Piece} (h : values ps = []) :
    ps.map (mapValue g) = ps := by
  induction ps with
  | nil => rfl
  | cons p ps ih =>
    cases p with
    | value v => cases h
    | word s => exact congrArg (word s :: ·) (ih h)
    | name s => exact congrArg (name s :: ·) (ih h)

theorem texts_mapValue (n : Nat) (ps : List Piece) :
    texts d n (ps.map (mapValue g)) = texts d n ps := by
  induction ps generalizing n with
  | nil => rfl
  | cons p ps ih =>
    cases p with
    | value v =>
      show text d n (value (g v)) :: texts d (n + 1) (ps.map (mapValue g)) = _
      rw [ih]
      rfl
    | word s =>
      show text d n (word s) :: texts d n (ps.map (mapValue g)) = _
      rw [ih]
      rfl
    | name s =>
      show text d n (name s) :: texts d n (ps.map (mapValue g)) = _
      rw [ih]
      rfl

theorem join_mapValue (separator : String) : ∀ parts : List (List Piece),
    join separator (parts.map (·.map (mapValue g))) = (join separator parts).map (mapValue g)
  | [] => rfl
  | [_] => rfl
  | ps :: qs :: rest => by
    have ih := join_mapValue separator (qs :: rest)
    simp only [List.map_cons] at ih ⊢
    rw [join, join, ih, List.map_append, List.map_cons]
    rfl

theorem values_flatMap {α : Type} (f : α → List Piece) (xs : List α) :
    values (xs.flatMap f) = xs.flatMap fun x => values (f x) := by
  induction xs with
  | nil => rfl
  | cons x xs ih => rw [List.flatMap_cons, values_append, ih, List.flatMap_cons]

theorem values_join (separator : String) : ∀ parts : List (List Piece),
    values (join separator parts) = parts.flatMap values
  | [] => rfl
  | [ps] => by simp [join]
  | ps :: qs :: rest => by
    have hrest := values_join separator (qs :: rest)
    rw [join, values_append, List.flatMap_cons, ← hrest]
    rfl

end Piece

/-! ## Expressions -/

namespace Expr

mutual

/-- The expression with other values. -/
def mapValues (g : Literal → Literal) : Expr → Expr
  | field f => field f
  | value v => value (g v)
  | number x => number x
  | aggregate a e => aggregate a (e.mapValues g)
  | binary a op b => binary (a.mapValues g) op (b.mapValues g)
  | not e => not (e.mapValues g)
  | between e low high => between (e.mapValues g) (low.mapValues g) (high.mapValues g)
  | inList e items negated => inList (e.mapValues g) (mapValuesList g items) negated
  | isNull e negated => isNull (e.mapValues g) negated
  | like e p => like (e.mapValues g) (p.mapValues g)
  | datePart unit e => datePart unit (e.mapValues g)
  | nullIfZero e => nullIfZero (e.mapValues g)
  | nested e => nested (e.mapValues g)

def mapValuesList (g : Literal → Literal) : List Expr → List Expr
  | [] => []
  | e :: es => e.mapValues g :: mapValuesList g es

end

variable {g : Literal → Literal}

mutual

theorem fields_mapValues : ∀ e : Expr, (e.mapValues g).fields = e.fields
  | field _ | value _ | number _ => rfl
  | aggregate _ e | not e | isNull e _ | datePart _ e | nullIfZero e | nested e => by
    rw [mapValues, fields, fields, fields_mapValues e]
  | binary a _ b => by rw [mapValues, fields, fields, fields_mapValues a, fields_mapValues b]
  | between e low high => by
    rw [mapValues, fields, fields, fields_mapValues e, fields_mapValues low, fields_mapValues high]
  | inList e items _ => by
    rw [mapValues, fields, fields, fields_mapValues e, fieldsOfList_mapValues items]
  | like e p => by rw [mapValues, fields, fields, fields_mapValues e, fields_mapValues p]

theorem fieldsOfList_mapValues : ∀ es : List Expr,
    fieldsOfList (mapValuesList g es) = fieldsOfList es
  | [] => rfl
  | e :: es => by
    rw [mapValuesList, fieldsOfList, fieldsOfList, fields_mapValues e, fieldsOfList_mapValues es]

end

mutual

theorem aggregations_mapValues : ∀ e : Expr, (e.mapValues g).aggregations = e.aggregations
  | field _ | value _ | number _ => rfl
  | aggregate _ e | not e | isNull e _ | datePart _ e | nullIfZero e | nested e => by
    rw [mapValues, aggregations, aggregations, aggregations_mapValues e]
  | binary a _ b => by
    rw [mapValues, aggregations, aggregations, aggregations_mapValues a, aggregations_mapValues b]
  | between e low high => by
    rw [mapValues, aggregations, aggregations, aggregations_mapValues e,
      aggregations_mapValues low, aggregations_mapValues high]
  | inList e items _ => by
    rw [mapValues, aggregations, aggregations, aggregations_mapValues e,
      aggregationsOfList_mapValues items]
  | like e p => by
    rw [mapValues, aggregations, aggregations, aggregations_mapValues e, aggregations_mapValues p]

theorem aggregationsOfList_mapValues : ∀ es : List Expr,
    aggregationsOfList (mapValuesList g es) = aggregationsOfList es
  | [] => rfl
  | e :: es => by
    rw [mapValuesList, aggregationsOfList, aggregationsOfList, aggregations_mapValues e,
      aggregationsOfList_mapValues es]

end

mutual

theorem mapFields_mapValues (ρ : Field → Field) : ∀ e : Expr,
    (e.mapValues g).mapFields ρ = (e.mapFields ρ).mapValues g
  | field _ | value _ | number _ => rfl
  | aggregate _ e | not e | isNull e _ | datePart _ e | nullIfZero e | nested e => by
    rw [mapValues, mapFields, mapFields, mapValues, mapFields_mapValues ρ e]
  | binary a _ b => by
    rw [mapValues, mapFields, mapFields, mapValues, mapFields_mapValues ρ a,
      mapFields_mapValues ρ b]
  | between e low high => by
    rw [mapValues, mapFields, mapFields, mapValues, mapFields_mapValues ρ e,
      mapFields_mapValues ρ low, mapFields_mapValues ρ high]
  | inList e items _ => by
    rw [mapValues, mapFields, mapFields, mapValues, mapFields_mapValues ρ e,
      mapFieldsList_mapValues ρ items]
  | like e p => by
    rw [mapValues, mapFields, mapFields, mapValues, mapFields_mapValues ρ e,
      mapFields_mapValues ρ p]

theorem mapFieldsList_mapValues (ρ : Field → Field) : ∀ es : List Expr,
    mapFieldsList ρ (mapValuesList g es) = mapValuesList g (mapFieldsList ρ es)
  | [] => rfl
  | e :: es => by
    rw [mapValuesList, mapFieldsList, mapFieldsList, mapValuesList, mapFields_mapValues ρ e,
      mapFieldsList_mapValues ρ es]

end

mutual

/-- Other values are other values in the same places of what is written. -/
theorem pieces_mapValues (d : Dialect) : ∀ e : Expr,
    (e.mapValues g).pieces d = (e.pieces d).map (Piece.mapValue g)
  | field _ | value _ | number _ => rfl
  | aggregate _ e | not e | isNull e _ | datePart _ e | nullIfZero e | nested e => by
    simp [mapValues, pieces, pieces_mapValues d e, Piece.mapValue]
  | binary a _ b => by
    simp [mapValues, pieces, pieces_mapValues d a, pieces_mapValues d b, Piece.mapValue]
  | between e low high => by
    simp [mapValues, pieces, pieces_mapValues d e, pieces_mapValues d low,
      pieces_mapValues d high, Piece.mapValue]
  | inList e items _ => by
    simp [mapValues, pieces, pieces_mapValues d e, listPieces_mapValues d items,
      Piece.join_mapValue, Piece.mapValue]
  | like e p => by
    simp [mapValues, pieces, pieces_mapValues d e, pieces_mapValues d p, Piece.mapValue]

theorem listPieces_mapValues (d : Dialect) : ∀ es : List Expr,
    listPieces d (mapValuesList g es) = (listPieces d es).map (·.map (Piece.mapValue g))
  | [] => rfl
  | e :: es => by
    rw [mapValuesList, listPieces, listPieces, pieces_mapValues d e, listPieces_mapValues d es,
      List.map_cons]

end

/-- The values of an expression, in the order in which they are written. -/
def values (d : Dialect) (e : Expr) : List Literal := Piece.values (e.pieces d)

mutual

theorem values_mapFields (d : Dialect) (ρ : Field → Field) : ∀ e : Expr,
    Piece.values ((e.mapFields ρ).pieces d) = Piece.values (e.pieces d)
  | field _ | value _ | number _ => rfl
  | aggregate _ e | not e | isNull e _ | datePart _ e | nullIfZero e | nested e => by
    simp [mapFields, pieces, Piece.values_append, values_mapFields d ρ e, Piece.values]
  | binary a _ b => by
    simp [mapFields, pieces, Piece.values_append, values_mapFields d ρ a, values_mapFields d ρ b,
      Piece.values]
  | between e low high => by
    simp [mapFields, pieces, Piece.values_append, values_mapFields d ρ e,
      values_mapFields d ρ low, values_mapFields d ρ high, Piece.values]
  | inList e items _ => by
    simp [mapFields, pieces, Piece.values_append, values_mapFields d ρ e, Piece.values_join,
      listValues_mapFields d ρ items, Piece.values]
  | like e p => by
    simp [mapFields, pieces, Piece.values_append, values_mapFields d ρ e, values_mapFields d ρ p,
      Piece.values]

theorem listValues_mapFields (d : Dialect) (ρ : Field → Field) : ∀ es : List Expr,
    (listPieces d (mapFieldsList ρ es)).flatMap Piece.values =
      (listPieces d es).flatMap Piece.values
  | [] => rfl
  | e :: es => by
    rw [mapFieldsList, listPieces, listPieces, List.flatMap_cons, List.flatMap_cons,
      values_mapFields d ρ e, listValues_mapFields d ρ es]

end

end Expr

/-! ## Queries -/

namespace Query

variable {g : Literal → Literal} {d : Dialect} {q : Query}

/-- The query with other values. -/
def mapValues (g : Literal → Literal) (q : Query) : Query :=
  { q with
    select := q.select.map fun s => { s with expr := s.expr.mapValues g }
    filters := q.filters.map (Expr.mapValues g)
    groupBy := q.groupBy.map (Expr.mapValues g)
    having := q.having.map (Expr.mapValues g)
    orderBy := q.orderBy.map fun o => { o with expr := o.expr.mapValues g } }

theorem exprs_mapValues (g : Literal → Literal) (q : Query) :
    (q.mapValues g).exprs = q.exprs.map (Expr.mapValues g) := by
  simp only [exprs, mapValues, List.map_map, List.map_append, Function.comp_def]

theorem mapFields_mapValues (ρ : Field → Field) (q : Query) :
    (q.mapValues g).mapFields ρ = (q.mapFields ρ).mapValues g := by
  simp only [mapFields, mapValues, List.map_map, Function.comp_def, Expr.mapFields_mapValues]

end Query

/-! ## Clauses -/

theorem tableRef_values (t : TableRef) : Piece.values t.pieces = [] := by
  unfold TableRef.pieces
  cases t.schema <;> rfl

theorem joinOn_values (on : List (Field × Field)) : Piece.values (Piece.join " AND "
    (on.map fun (a, b) => a.pieces ++ .word " = " :: b.pieces)) = [] := by
  rw [Piece.values_join, List.flatMap_eq_nil_iff]
  rintro _ h
  obtain ⟨⟨a, b⟩, -, rfl⟩ := List.mem_map.mp h
  rfl

theorem join_values (j : Join) : Piece.values j.pieces = [] := by
  unfold Join.pieces
  simp only [List.cons_append, Piece.values, Piece.values_append, tableRef_values, joinOn_values,
    List.append_nil]

theorem clausePieces_mapValue (g : Literal → Literal) (keyword separator : String)
    (parts : List (List Piece)) :
    clausePieces keyword separator (parts.map (·.map (Piece.mapValue g))) =
      (clausePieces keyword separator parts).map (Piece.mapValue g) := by
  unfold clausePieces
  rw [List.isEmpty_map, Piece.join_mapValue]
  split <;> rfl

theorem clausePieces_values (keyword separator : String) (parts : List (List Piece)) :
    Piece.values (clausePieces keyword separator parts) = parts.flatMap Piece.values := by
  unfold clausePieces
  split
  · next h => rw [List.isEmpty_iff.mp h]; rfl
  · exact Piece.values_join separator parts

theorem limitPieces_values (before after : String) (n : Option Nat) :
    Piece.values (limitPieces before after n) = [] := by
  cases n <;> rfl

namespace Query

variable {g : Literal → Literal} {d : Dialect} {q : Query}

theorem selectItem_mapValue (g : Literal → Literal) (item : SelectItem) :
    ({ item with expr := item.expr.mapValues g } : SelectItem).pieces d =
      (item.pieces d).map (Piece.mapValue g) := by
  simp only [SelectItem.pieces, List.map_append, Expr.pieces_mapValues]
  cases item.label <;> rfl

theorem selectItem_values (item : SelectItem) :
    Piece.values (item.pieces d) = item.expr.values d := by
  rw [SelectItem.pieces, Piece.values_append]
  cases item.label <;> exact List.append_nil _

/-- The clauses of expressions with other values. -/
theorem clause_mapValue (keyword separator : String) (es : List Expr) :
    clausePieces keyword separator ((es.map (Expr.mapValues g)).map (Expr.pieces d)) =
      (clausePieces keyword separator (es.map (Expr.pieces d))).map (Piece.mapValue g) := by
  rw [← clausePieces_mapValue, List.map_map, List.map_map]
  simp only [Function.comp_def, Expr.pieces_mapValues]

theorem pieces_mapValues : (q.mapValues g).pieces d = (q.pieces d).map (Piece.mapValue g) := by
  have hlimit : ∀ before after, (limitPieces before after q.limit).map (Piece.mapValue g) =
      limitPieces before after q.limit := fun before after =>
    Piece.map_mapValue (limitPieces_values before after q.limit)
  have hjoins : (q.joins.flatMap Join.pieces).map (Piece.mapValue g) =
      q.joins.flatMap Join.pieces := by
    refine Piece.map_mapValue ?_
    rw [Piece.values_flatMap, List.flatMap_eq_nil_iff]
    exact fun j _ => join_values j
  have hselect : ((q.mapValues g).select.map (·.pieces d)) =
      (q.select.map (·.pieces d)).map (·.map (Piece.mapValue g)) := by
    simp only [mapValues, List.map_map, Function.comp_def, selectItem_mapValue]
  have horder : (q.mapValues g).orderBy.map (fun o =>
        o.expr.pieces d ++ [.word (if o.descending then " DESC" else " ASC")]) =
      (q.orderBy.map fun o =>
        o.expr.pieces d ++ [.word (if o.descending then " DESC" else " ASC")]).map
          (·.map (Piece.mapValue g)) := by
    simp only [mapValues, List.map_map, Function.comp_def, Expr.pieces_mapValues, List.map_append]
    rfl
  have htop : (if d.usesTop then limitPieces "TOP " " " q.limit else []).map (Piece.mapValue g) =
      if d.usesTop then limitPieces "TOP " " " q.limit else [] := by
    split
    · exact hlimit _ _
    · rfl
  have hend : (if d.usesTop then [] else limitPieces "\nLIMIT " "" q.limit).map (Piece.mapValue g) =
      if d.usesTop then [] else limitPieces "\nLIMIT " "" q.limit := by
    split
    · rfl
    · exact hlimit _ _
  unfold pieces
  simp only [List.map_append, List.map_cons, hselect, horder, Piece.join_mapValue, htop, hend,
    hjoins, Piece.map_mapValue (tableRef_values q.source), clausePieces_mapValue]
  simp only [mapValues, clause_mapValue]
  rfl

/-- The values of what is written are those of the expressions. -/
theorem pieces_values : Piece.values (q.pieces d) = q.exprs.flatMap (Expr.values d) := by
  have htop : Piece.values (if d.usesTop then limitPieces "TOP " " " q.limit else []) = [] := by
    split
    · exact limitPieces_values _ _ _
    · rfl
  have hend : Piece.values (if d.usesTop then [] else limitPieces "\nLIMIT " "" q.limit) = [] := by
    split
    · rfl
    · exact limitPieces_values _ _ _
  have hjoins : Piece.values (q.joins.flatMap Join.pieces) = [] := by
    rw [Piece.values_flatMap, List.flatMap_eq_nil_iff]
    exact fun j _ => join_values j
  have horder : ∀ o : OrderItem, Piece.values
      (o.expr.pieces d ++ [.word (if o.descending then " DESC" else " ASC")]) =
        o.expr.values d := by
    intro o
    rw [Piece.values_append]
    exact List.append_nil _
  unfold pieces exprs
  simp only [List.cons_append, Piece.values, Piece.values_append, Piece.values_join,
    clausePieces_values, tableRef_values, htop, hend, hjoins, List.flatMap_append,
    List.flatMap_map, horder, selectItem_values, List.nil_append, List.append_nil]
  rfl

theorem eq_ofPieces {st : Statement} (h : q.render d = .ok st) : st = .ofPieces d (q.pieces d) := by
  unfold render at h
  split at h
  · cases h
  · split at h
    · cases h
    · exact (Except.ok.inj h).symm

/-- Other values leave the text of a query alone. -/
theorem sql_mapValues (g : Literal → Literal) {st : Statement} (h : q.render d = .ok st) :
    st.sql = (Statement.ofPieces d ((q.mapValues g).pieces d)).sql := by
  rw [eq_ofPieces h, pieces_mapValues]
  exact congrArg String.join (Piece.texts_mapValue 1 _).symm

/-- The parameters of a statement are the values of the query, numbered in order. -/
theorem parameters_eq {st : Statement} (h : q.render d = .ok st) :
    st.parameters = parametersFrom 1 (q.exprs.flatMap (Expr.values d)) := by
  rw [eq_ofPieces h, ← pieces_values]
  rfl

end Query

/-- The parameter at place `i` is the value at that place. -/
theorem parametersFrom_eq (n : Nat) (vs : List Literal) :
    parametersFrom n vs = vs.mapIdx fun i v => ⟨"p" ++ toString (n + i), v⟩ := by
  induction vs generalizing n with
  | nil => rfl
  | cons v vs ih =>
    rw [parametersFrom, ih, List.mapIdx_cons]
    simp only [Nat.add_zero, Nat.add_assoc, Nat.add_comm 1]

end MetricLayer
