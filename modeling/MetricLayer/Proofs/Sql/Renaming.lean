import MetricLayer.Proofs.Sql.Answers
import MetricLayer.Sql.Render

/-!
# Other names for the fields

Renaming the fields of a query is the same as renaming the columns of the rows that it reads.

Results:
1. `Query.rewrite_eq`: the renaming of a query whose fields all have new names.
2. `Query.results_mapFields`: the results of the renamed query.
3. `Query.results_congr`: only the fields of a query matter to its results.
-/

namespace MetricLayer

/-! ## Renaming -/

namespace Expr

mutual

/-- The expression with other fields. -/
def mapFields (g : Field → Field) : Expr → Expr
  | field f => field (g f)
  | value v => value v
  | number x => number x
  | aggregate a e => aggregate a (e.mapFields g)
  | binary a op b => binary (a.mapFields g) op (b.mapFields g)
  | not e => not (e.mapFields g)
  | between e low high => between (e.mapFields g) (low.mapFields g) (high.mapFields g)
  | inList e items negated => inList (e.mapFields g) (mapFieldsList g items) negated
  | isNull e negated => isNull (e.mapFields g) negated
  | like e p => like (e.mapFields g) (p.mapFields g)
  | datePart unit e => datePart unit (e.mapFields g)
  | nullIfZero e => nullIfZero (e.mapFields g)
  | nested e => nested (e.mapFields g)

def mapFieldsList (g : Field → Field) : List Expr → List Expr
  | [] => []
  | e :: es => e.mapFields g :: mapFieldsList g es

end

variable {ρ : Field → Option Field} {g : Field → Field}

theorem rewriteField_eq {f : Field} (h : ρ f = some (g f)) : rewriteField ρ f none = (g f, none) := by
  simp only [rewriteField, get, getThe, MonadStateOf.get, StateT.get, bind, StateT.bind, h]
  rfl

mutual

theorem rewrite_eq : ∀ e : Expr, (∀ f ∈ e.fields, ρ f = some (g f)) →
    e.rewrite ρ none = (e.mapFields g, none)
  | field f, h => by
    simp only [rewrite, bind, StateT.bind, rewriteField_eq (h f (by simp [fields]))]
    rfl
  | value _, _ => rfl
  | number _, _ => rfl
  | aggregate a e, h => by
    simp only [rewrite, bind, StateT.bind, rewrite_eq e h]
    rfl
  | binary a op b, h => by
    simp only [fields, List.mem_append] at h
    simp only [rewrite, bind, StateT.bind, rewrite_eq a fun f hf => h f (.inl hf),
      rewrite_eq b fun f hf => h f (.inr hf)]
    rfl
  | not e, h => by
    simp only [rewrite, bind, StateT.bind, rewrite_eq e h]
    rfl
  | between e low high, h => by
    simp only [fields, List.mem_append] at h
    simp only [rewrite, bind, StateT.bind, rewrite_eq e fun f hf => h f (.inl (.inl hf)),
      rewrite_eq low fun f hf => h f (.inl (.inr hf)), rewrite_eq high fun f hf => h f (.inr hf)]
    rfl
  | inList e items negated, h => by
    simp only [fields, List.mem_append] at h
    simp only [rewrite, bind, StateT.bind, rewrite_eq e fun f hf => h f (.inl hf),
      rewriteList_eq items fun f hf => h f (.inr hf)]
    rfl
  | isNull e negated, h => by
    simp only [rewrite, bind, StateT.bind, rewrite_eq e h]
    rfl
  | like e p, h => by
    simp only [fields, List.mem_append] at h
    simp only [rewrite, bind, StateT.bind, rewrite_eq e fun f hf => h f (.inl hf),
      rewrite_eq p fun f hf => h f (.inr hf)]
    rfl
  | datePart unit e, h => by
    simp only [rewrite, bind, StateT.bind, rewrite_eq e h]
    rfl
  | nullIfZero e, h => by
    simp only [rewrite, bind, StateT.bind, rewrite_eq e h]
    rfl
  | nested e, h => by
    simp only [rewrite, bind, StateT.bind, rewrite_eq e h]
    rfl

theorem rewriteList_eq : ∀ es : List Expr, (∀ f ∈ fieldsOfList es, ρ f = some (g f)) →
    rewriteList ρ es none = (mapFieldsList g es, none)
  | [], _ => rfl
  | e :: es, h => by
    simp only [fieldsOfList, List.mem_append] at h
    simp only [rewriteList, bind, StateT.bind, rewrite_eq e fun f hf => h f (.inl hf),
      rewriteList_eq es fun f hf => h f (.inr hf)]
    rfl

end

mutual

theorem mapFields_id : ∀ e : Expr, e.mapFields id = e
  | field _ | value _ | number _ => rfl
  | aggregate _ e | not e | isNull e _ | datePart _ e | nullIfZero e | nested e => by
    rw [mapFields, mapFields_id e]
  | binary a _ b => by rw [mapFields, mapFields_id a, mapFields_id b]
  | between e low high => by rw [mapFields, mapFields_id e, mapFields_id low, mapFields_id high]
  | inList e items _ => by rw [mapFields, mapFields_id e, mapFieldsList_id items]
  | like e p => by rw [mapFields, mapFields_id e, mapFields_id p]

theorem mapFieldsList_id : ∀ es : List Expr, mapFieldsList id es = es
  | [] => rfl
  | e :: es => by rw [mapFieldsList, mapFields_id e, mapFieldsList_id es]

end

mutual

theorem aggregations_mapFields (g : Field → Field) : ∀ e : Expr,
    (e.mapFields g).aggregations = e.aggregations
  | field _ | value _ | number _ => rfl
  | aggregate _ e | not e | isNull e _ | datePart _ e | nullIfZero e | nested e => by
    simp only [mapFields, aggregations, aggregations_mapFields g e]
  | binary a _ b => by
    simp only [mapFields, aggregations, aggregations_mapFields g a, aggregations_mapFields g b]
  | between e low high => by
    simp only [mapFields, aggregations, aggregations_mapFields g e, aggregations_mapFields g low,
      aggregations_mapFields g high]
  | inList e items _ => by
    simp only [mapFields, aggregations, aggregations_mapFields g e,
      aggregationsOfList_mapFields g items]
  | like e p => by
    simp only [mapFields, aggregations, aggregations_mapFields g e, aggregations_mapFields g p]

theorem aggregationsOfList_mapFields (g : Field → Field) : ∀ es : List Expr,
    aggregationsOfList (mapFieldsList g es) = aggregationsOfList es
  | [] => rfl
  | e :: es => by
    simp only [mapFieldsList, aggregationsOfList, aggregations_mapFields g e,
      aggregationsOfList_mapFields g es]

end

mutual

theorem hasEmptyList_mapFields (g : Field → Field) : ∀ e : Expr,
    (e.mapFields g).hasEmptyList = e.hasEmptyList
  | field _ | value _ | number _ => rfl
  | aggregate _ e | not e | isNull e _ | datePart _ e | nullIfZero e | nested e => by
    simp only [mapFields, hasEmptyList, hasEmptyList_mapFields g e]
  | binary a _ b => by
    simp only [mapFields, hasEmptyList, hasEmptyList_mapFields g a, hasEmptyList_mapFields g b]
  | between e low high => by
    simp only [mapFields, hasEmptyList, hasEmptyList_mapFields g e, hasEmptyList_mapFields g low,
      hasEmptyList_mapFields g high]
  | inList e [] _ => by
    simp only [mapFields, mapFieldsList, hasEmptyList, List.isEmpty_nil, Bool.true_or]
  | inList e (item :: items) _ => by
    simp only [mapFields, mapFieldsList, hasEmptyList, hasEmptyList_mapFields g e, anyHasEmptyList,
      List.isEmpty_cons, hasEmptyList_mapFields g item, anyHasEmptyList_mapFields g items]
  | like e p => by
    simp only [mapFields, hasEmptyList, hasEmptyList_mapFields g e, hasEmptyList_mapFields g p]

theorem anyHasEmptyList_mapFields (g : Field → Field) : ∀ es : List Expr,
    anyHasEmptyList (mapFieldsList g es) = anyHasEmptyList es
  | [] => rfl
  | e :: es => by
    simp only [mapFieldsList, anyHasEmptyList, hasEmptyList_mapFields g e,
      anyHasEmptyList_mapFields g es]

end

variable {α : Type} [LinearOrder α] {fns : Functions α} {image : Env α → Env α}

mutual

/-- The value of the renamed expression is that of the expression over the renamed columns. -/
theorem eval_mapFields {rows : List (Env α)} : ∀ e : Expr,
    (∀ row ∈ rows, ∀ f ∈ e.fields, image row f = row (g f)) →
      (e.mapFields g).eval fns rows = e.eval fns (rows.map image)
  | field f, h => by
    cases rows with
    | nil => rfl
    | cons row rows => exact (h row List.mem_cons_self f (List.mem_singleton_self f)).symm
  | value _, _ => rfl
  | number _, _ => rfl
  | aggregate a e, h => by
    rw [mapFields, eval, eval, List.map_map]
    congr 1
    refine List.map_congr_left fun row hrow => ?_
    refine eval_mapFields e fun row' hrow' f hf => ?_
    rw [List.mem_singleton.mp hrow']
    exact h row hrow f hf
  | binary a op b, h => by
    simp only [fields, List.mem_append] at h
    rw [mapFields, eval, eval, eval_mapFields a fun row hrow f hf => h row hrow f (.inl hf),
      eval_mapFields b fun row hrow f hf => h row hrow f (.inr hf)]
  | not e, h => by rw [mapFields, eval, eval, eval_mapFields e h]
  | between e low high, h => by
    simp only [fields, List.mem_append] at h
    rw [mapFields, eval, eval, eval_mapFields e fun row hrow f hf => h row hrow f (.inl (.inl hf)),
      eval_mapFields low fun row hrow f hf => h row hrow f (.inl (.inr hf)),
      eval_mapFields high fun row hrow f hf => h row hrow f (.inr hf)]
  | inList e items negated, h => by
    simp only [fields, List.mem_append] at h
    rw [mapFields, eval, eval, eval_mapFields e fun row hrow f hf => h row hrow f (.inl hf),
      evalList_mapFields items fun row hrow f hf => h row hrow f (.inr hf)]
  | isNull e negated, h => by rw [mapFields, eval, eval, eval_mapFields e h]
  | like e p, h => by
    simp only [fields, List.mem_append] at h
    rw [mapFields, eval, eval, eval_mapFields e fun row hrow f hf => h row hrow f (.inl hf),
      eval_mapFields p fun row hrow f hf => h row hrow f (.inr hf)]
  | datePart unit e, h => by rw [mapFields, eval, eval, eval_mapFields e h]
  | nullIfZero e, h => by rw [mapFields, eval, eval, eval_mapFields e h]
  | nested e, h => by rw [mapFields, eval, eval, eval_mapFields e h]

theorem evalList_mapFields {rows : List (Env α)} : ∀ es : List Expr,
    (∀ row ∈ rows, ∀ f ∈ fieldsOfList es, image row f = row (g f)) →
      evalList fns rows (mapFieldsList g es) = evalList fns (rows.map image) es
  | [], _ => rfl
  | e :: es, h => by
    simp only [fieldsOfList, List.mem_append] at h
    rw [mapFieldsList, evalList, evalList,
      eval_mapFields e fun row hrow f hf => h row hrow f (.inl hf),
      evalList_mapFields es fun row hrow f hf => h row hrow f (.inr hf)]

end

end Expr

/-! ## Queries -/

namespace Query

/-- The query with other fields, those of the joins aside. -/
def mapFields (g : Field → Field) (q : Query) : Query :=
  { q with
    select := q.select.map fun s => { s with expr := s.expr.mapFields g }
    filters := q.filters.map (Expr.mapFields g)
    groupBy := q.groupBy.map (Expr.mapFields g)
    having := q.having.map (Expr.mapFields g)
    orderBy := q.orderBy.map fun o => { o with expr := o.expr.mapFields g } }

variable {ρ : Field → Option Field} {g : Field → Field}

theorem bind_eq {β γ : Type} {x : StateM (Option Field) β} {k : β → StateM (Option Field) γ} {b : β}
    (h : x none = (b, none)) : (x >>= k) none = k b none := by
  simp only [bind, StateT.bind, h]

theorem mapM_eq {β : Type} {f : β → StateM (Option Field) β} {f' : β → β} :
    ∀ l : List β, (∀ x ∈ l, f x none = (f' x, none)) → l.mapM f none = (l.map f', none)
  | [], _ => rfl
  | x :: l, h => by
    rw [List.mapM_cons, bind_eq (h x List.mem_cons_self),
      bind_eq (mapM_eq l fun y hy => h y (List.mem_cons_of_mem _ hy))]
    rfl

/-- A query without joins whose fields all have new names is renamed as a whole. -/
theorem rewrite_eq {q : Query} (hjoins : q.joins = [])
    (h : ∀ e ∈ q.exprs, ∀ f ∈ e.fields, ρ f = some (g f)) : q.rewrite ρ = (q.mapFields g, none) := by
  have hexpr : ∀ e ∈ q.exprs, e.rewrite ρ none = (e.mapFields g, none) := fun e he =>
    e.rewrite_eq (h e he)
  have hselect : ∀ s ∈ q.select, (do return ({ s with expr := ← s.expr.rewrite ρ } : SelectItem) :
      StateM (Option Field) SelectItem) none = ({ s with expr := s.expr.mapFields g }, none) := by
    intro s hs
    refine bind_eq (hexpr s.expr ?_)
    simp only [exprs, List.mem_append, List.mem_map]
    exact .inl (.inl (.inl (.inl ⟨s, hs, rfl⟩)))
  have horder : ∀ o ∈ q.orderBy, (do return ({ o with expr := ← o.expr.rewrite ρ } : OrderItem) :
      StateM (Option Field) OrderItem) none = ({ o with expr := o.expr.mapFields g }, none) := by
    intro o ho
    refine bind_eq (hexpr o.expr ?_)
    simp only [exprs, List.mem_append, List.mem_map]
    exact .inr ⟨o, ho, rfl⟩
  show q.rewriteM ρ none = _
  refine (bind_eq (mapM_eq q.select hselect)).trans ?_
  refine (bind_eq (mapM_eq q.filters fun e he => hexpr e (by simp [exprs, he]))).trans ?_
  refine (bind_eq (mapM_eq q.groupBy fun e he => hexpr e (by simp [exprs, he]))).trans ?_
  refine (bind_eq (mapM_eq q.having fun e he => hexpr e (by simp [exprs, he]))).trans ?_
  refine (bind_eq (mapM_eq q.orderBy horder)).trans ?_
  simp only [mapFields, hjoins]
  rfl

theorem exprs_mapFields (g : Field → Field) (q : Query) :
    (q.mapFields g).exprs = q.exprs.map (Expr.mapFields g) := by
  simp only [exprs, mapFields, List.map_map, List.map_append, Function.comp_def]

/-- A query can be written if it selects something and looks for values among some. -/
theorem exists_render {q : Query} {d : Dialect} : (∃ st, q.render d = .ok st) ↔
    q.select.isEmpty = false ∧ q.exprs.any Expr.hasEmptyList = false := by
  unfold render
  cases q.select.isEmpty <;> cases q.exprs.any Expr.hasEmptyList <;> simp

/-- Other fields make no difference to whether a query can be written. -/
theorem exists_render_mapFields {q : Query} {d : Dialect} (g : Field → Field) :
    (∃ st, (q.mapFields g).render d = .ok st) ↔ ∃ st, q.render d = .ok st := by
  have hselect : (q.mapFields g).select.isEmpty = q.select.isEmpty := by simp [mapFields]
  have hlists : (q.mapFields g).exprs.any Expr.hasEmptyList = q.exprs.any Expr.hasEmptyList := by
    rw [exprs_mapFields, List.any_map]
    simp only [Function.comp_def, Expr.hasEmptyList_mapFields]
  rw [exists_render, exists_render, hselect, hlists]

theorem mapFields_id (q : Query) : q.mapFields id = q := by
  have hid : Expr.mapFields id = id := funext Expr.mapFields_id
  simp only [mapFields, hid, id_eq, List.map_id_fun, List.map_id']

variable {α : Type} [LinearOrder α] {fns : Functions α} {image : Env α → Env α}

theorem isGrouping_mapFields (g : Field → Field) (q : Query) :
    (q.mapFields g).isGrouping = q.isGrouping := by
  have haggregations : (q.mapFields g).aggregations = q.aggregations := by
    rw [aggregations, exprs_mapFields, List.flatMap_map]
    simp only [aggregations, Expr.aggregations_mapFields]
  rw [isGrouping, isGrouping, haggregations]
  simp only [mapFields, List.isEmpty_map]

/-- The rows show the fields of the query under other names. -/
def Shows (g : Field → Field) (image : Env α → Env α) (q : Query) (rows : List (Env α)) : Prop :=
  ∀ row ∈ rows, ∀ e ∈ q.exprs, ∀ f ∈ e.fields, image row f = row (g f)

theorem eval_single {q : Query} {rows : List (Env α)} (h : Shows g image q rows) {row : Env α}
    (hrow : row ∈ rows) {e : Expr} (he : e ∈ q.exprs) :
    (e.mapFields g).eval fns [row] = e.eval fns [image row] := by
  refine e.eval_mapFields fun row' hrow' f hf => ?_
  rw [List.mem_singleton.mp hrow']
  exact h row hrow e he f hf

theorem kept_mapFields {q : Query} {rows : List (Env α)} (h : Shows g image q rows) :
    ((q.mapFields g).kept fns rows).map image = q.kept fns (rows.map image) := by
  rw [kept, kept, List.filter_map]
  congr 1
  refine List.filter_congr fun row hrow => ?_
  rw [mapFields, List.all_map, Function.comp_apply]
  refine all_congr fun e he => ?_
  rw [Function.comp_apply, eval_single h hrow (by simp [exprs, he])]

theorem key_mapFields {q : Query} {rows : List (Env α)} (h : Shows g image q rows) {row : Env α}
    (hrow : row ∈ rows) : (q.mapFields g).key fns row = q.key fns (image row) := by
  rw [key, key, mapFields, List.map_map]
  refine List.map_congr_left fun e he => ?_
  rw [Function.comp_apply, eval_single h hrow (by simp [exprs, he])]

theorem groups_mapFields {q : Query} {rows : List (Env α)} (h : Shows g image q rows) :
    ((q.mapFields g).groups fns rows).map (List.map image) = q.groups fns (rows.map image) := by
  have hempty : (q.mapFields g).groupBy.isEmpty = q.groupBy.isEmpty := by simp [mapFields]
  unfold groups
  rw [isGrouping_mapFields, hempty]
  split
  · simp
  · split
    · rfl
    · have hkeys : rows.map ((q.mapFields g).key fns) = (rows.map image).map (q.key fns) := by
        rw [List.map_map]
        exact List.map_congr_left fun row hrow => key_mapFields h hrow
      rw [groupRows, groupRows, List.map_map, hkeys]
      refine List.map_congr_left fun k _ => ?_
      rw [Function.comp_apply, List.filter_map]
      congr 1
      refine List.filter_congr fun row hrow => ?_
      rw [key_mapFields h hrow, Function.comp_apply]

theorem result?_mapFields {q : Query} {group : List (Env α)} (h : Shows g image q group) :
    (q.mapFields g).result? fns group = q.result? fns (group.map image) := by
  have heval : ∀ e ∈ q.exprs, (e.mapFields g).eval fns group = e.eval fns (group.map image) :=
    fun e he => e.eval_mapFields fun row hrow f hf => h row hrow e he f hf
  have hhaving : ((q.mapFields g).having.all fun e => fns.holds (e.eval fns group)) =
      q.having.all fun e => fns.holds (e.eval fns (group.map image)) := by
    rw [mapFields, List.all_map]
    refine all_congr fun e he => ?_
    rw [Function.comp_apply, heval e (by simp [exprs, he])]
  rw [result?, result?, hhaving]
  simp only [mapFields, List.map_map]
  congr 2
  congr 1
  · refine List.map_congr_left fun o ho => heval o.expr ?_
    simp only [exprs, List.mem_append, List.mem_map]
    exact .inr ⟨o, ho, rfl⟩
  · refine List.map_congr_left fun s hs => heval s.expr ?_
    simp only [exprs, List.mem_append, List.mem_map]
    exact .inl (.inl (.inl (.inl ⟨s, hs, rfl⟩)))

/-- The rows of a group are rows. -/
theorem subset_of_mem_groups {q : Query} {rows group : List (Env α)} (h : group ∈ q.groups fns rows) :
    group ⊆ rows := by
  unfold groups at h
  split at h
  · obtain ⟨row, hrow, rfl⟩ := List.mem_map.mp h
    exact fun x hx => List.mem_singleton.mp hx ▸ hrow
  · split at h
    · rw [List.mem_singleton.mp h]
      exact List.Subset.refl _
    · rw [groupRows] at h
      obtain ⟨k, -, rfl⟩ := List.mem_map.mp h
      exact List.filter_sublist.subset

/-- The results of the renamed query are those of the query over the renamed columns. -/
theorem results_mapFields {q : Query} {rows : List (Env α)} (h : Shows g image q rows) :
    (q.mapFields g).results fns rows = q.results fns (rows.map image) := by
  have hkept : Shows g image q ((q.mapFields g).kept fns rows) := fun row hrow =>
    h row (List.filter_sublist.subset hrow)
  unfold results
  rw [← kept_mapFields h, ← groups_mapFields hkept, List.filterMap_map]
  refine List.filterMap_congr fun group hgroup => ?_
  exact result?_mapFields fun row hrow => hkept row (subset_of_mem_groups hgroup hrow)

/-- Rows that agree on the fields of the query have the same results. -/
theorem results_congr {q : Query} {rows rows' : List (Env α)}
    (h : List.Forall₂ (fun row row' => ∀ e ∈ q.exprs, ∀ f ∈ e.fields, row f = row' f) rows rows') :
    q.results fns rows = q.results fns rows' := by
  let restrict (row : Env α) : Env α := fun f => if ∃ e ∈ q.exprs, f ∈ e.fields then row f else none
  have hrestrict : ∀ rows, q.results fns rows = q.results fns (rows.map restrict) := by
    intro rows
    rw [← results_mapFields (g := id), mapFields_id]
    intro row _ e he f hf
    exact if_pos ⟨e, he, hf⟩
  have hsame : rows.map restrict = rows'.map restrict := by
    induction h with
    | nil => rfl
    | cons hrow _ ih =>
      rw [List.map_cons, List.map_cons, ih]
      congr 1
      funext f
      refine ite_congr rfl (fun ⟨e, he, hf⟩ => hrow e he f hf) fun _ => rfl
  rw [hrestrict, hsame, ← hrestrict]

end Query

end MetricLayer
