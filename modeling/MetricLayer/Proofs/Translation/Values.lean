import MetricLayer.Proofs.Sql.Values
import MetricLayer.Proofs.Translation.FilterOrder
import MetricLayer.Proofs.Translation.OptimizedAnswers
import MetricLayer.Proofs.Translation.Scope

/-!
# The values of a report

The values of filters and the days of a report reach the parameters of its statement and never the
text. Reports that differ in them only are translated to the same text, over a view too, since no
view is chosen by a value. The parameters of a resolved report are the bounds of its days, the values
of its conditions on rows and those of its conditions on groups, in this order.

Results:
1. `Report.query_blank`: the queries of reports that differ in values only.
2. `Report.query_values`: the values of the query of a report.
3. `statement_values`: the text and the parameters of a translation.
-/

namespace MetricLayer

/-- What is left of a value if only its place matters. -/
def Literal.blank : Literal → Literal := fun _ => .bool false

/-! ## Filters -/

namespace ReportFilter

variable {f f' : ReportFilter} {target e e' : Expr} {d : Dialect}

/-- The filters differ in what their values are, but not in how many there are. -/
structure SameButValues (f f' : ReportFilter) : Prop where
  rest : { f' with values := f.values } = f
  count : f'.values.length = f.values.length

/-- The values that the condition of the filter binds: those of the filter, wrapped and escaped where
a piece of text is looked for. -/
def boundValues (f : ReportFilter) : List Literal :=
  match f.operator with
  | .isNull | .isNotNull => []
  | .contains | .startsWith | .endsWith =>
    f.values.map fun v => .text (LikePattern.ofText f.operator v.display)
  | _ => f.values

theorem mapValuesList_blank (vs : List Literal) :
    Expr.mapValuesList .blank (vs.map .value) = List.replicate vs.length (.value (.bool false)) := by
  induction vs with
  | nil => rfl
  | cons v vs ih => exact congrArg (Expr.value (.bool false) :: ·) ih

theorem SameButValues.plainCondition_blank (h : f.SameButValues f') (he : f.plainCondition target = .ok e)
    (he' : f'.plainCondition target = .ok e') : e.mapValues .blank = e'.mapValues .blank := by
  have hop : f'.operator = f.operator := congrArg (·.operator) h.rest
  unfold plainCondition at he he'
  rw [hop] at he'
  cases hf : f.operator <;> simp only [hf] at he he'
  case equals | notEquals | greaterThan | greaterOrEqual | lessThan | lessOrEqual | contains |
      startsWith | endsWith =>
    obtain ⟨v, -, rfl⟩ := map_eq_ok he
    obtain ⟨v', -, rfl⟩ := map_eq_ok he'
    rfl
  case «in» | notIn =>
    split at he
    · cases he
    · split at he'
      · cases he'
      · cases he
        cases he'
        rw [Expr.mapValues, Expr.mapValues, mapValuesList_blank, mapValuesList_blank, h.count]
  case between =>
    obtain ⟨low, -, he⟩ := bind_eq_ok he
    obtain ⟨high, -, he⟩ := bind_eq_ok he
    obtain ⟨low', -, he'⟩ := bind_eq_ok he'
    obtain ⟨high', -, he'⟩ := bind_eq_ok he'
    cases he
    cases he'
    rfl
  case isNull | isNotNull =>
    cases he
    cases he'
    rfl

theorem SameButValues.condition_blank (h : f.SameButValues f') (he : f.condition target = .ok e)
    (he' : f'.condition target = .ok e') : e.mapValues .blank = e'.mapValues .blank := by
  have hnegated : f'.negated = f.negated := congrArg (·.negated) h.rest
  obtain ⟨plain, hplain, rfl⟩ := map_eq_ok he
  obtain ⟨plain', hplain', rfl⟩ := map_eq_ok he'
  have hsame := h.plainCondition_blank hplain hplain'
  rw [hnegated]
  split
  · exact congrArg Expr.not hsame
  · exact hsame

theorem listValues_values (vs : List Literal) :
    (Expr.listPieces d (vs.map .value)).flatMap Piece.values = vs := by
  induction vs with
  | nil => rfl
  | cons v vs ih => exact congrArg (v :: ·) ih

/-- The values of a condition that takes exactly one value. -/
theorem Takes.single (h : f.Takes) (hmin : f.operator.minValues = 1)
    (hmax : f.operator.maxValues = some 1) : ∃ v, f.values = [v] ∧ f.valueAt 0 = .ok v := by
  simp only [Takes, Operator.takes, hmin, hmax, Option.all_some, Bool.and_eq_true,
    decide_eq_true_eq] at h
  obtain ⟨v, hv⟩ := List.length_eq_one_iff.mp (Nat.le_antisymm h.2 h.1)
  exact ⟨v, hv, by rw [valueAt, hv]; rfl⟩

theorem Takes.pair (h : f.Takes) (hf : f.operator = .between) :
    ∃ low high, f.values = [low, high] ∧ f.valueAt 0 = .ok low ∧ f.valueAt 1 = .ok high := by
  simp only [Takes, Operator.takes, hf, Operator.minValues, Operator.maxValues, Option.all_some,
    Bool.and_eq_true, decide_eq_true_eq] at h
  obtain ⟨low, high, hv⟩ := List.length_eq_two.mp (Nat.le_antisymm h.2 h.1)
  exact ⟨low, high, hv, by rw [valueAt, hv]; rfl, by rw [valueAt, hv]; rfl⟩

/-- A condition binds the values of its target and then those of the filter. -/
theorem plainCondition_values (h : f.Takes) (he : f.plainCondition target = .ok e) :
    e.values d = target.values d ++ f.boundValues := by
  unfold plainCondition at he
  unfold boundValues
  cases hf : f.operator <;> simp only [hf] at he ⊢
  case equals | notEquals | greaterThan | greaterOrEqual | lessThan | lessOrEqual =>
    obtain ⟨v, hvalues, hv⟩ := h.single (by rw [hf]; rfl) (by rw [hf]; rfl)
    rw [hv] at he
    cases he
    rw [hvalues]
    simp [Expr.values, Expr.pieces, Piece.values_append, Piece.values]
  case contains | startsWith | endsWith =>
    obtain ⟨v, hvalues, hv⟩ := h.single (by rw [hf]; rfl) (by rw [hf]; rfl)
    rw [hv] at he
    cases he
    rw [hvalues]
    simp [Expr.values, Expr.pieces, Piece.values_append, Piece.values]
  case «in» | notIn =>
    split at he
    · cases he
    · cases he
      simp [Expr.values, Expr.pieces, Piece.values_append, Piece.values, Piece.values_join,
        listValues_values]
  case between =>
    obtain ⟨low, high, hvalues, hlow, hhigh⟩ := h.pair hf
    rw [hlow, hhigh] at he
    cases he
    rw [hvalues]
    simp [Expr.values, Expr.pieces, Piece.values_append, Piece.values]
  case isNull | isNotNull =>
    cases he
    simp [Expr.values, Expr.pieces, Piece.values_append, Piece.values]

theorem condition_values (h : f.Takes) (he : f.condition target = .ok e) :
    e.values d = target.values d ++ f.boundValues := by
  obtain ⟨plain, hplain, rfl⟩ := map_eq_ok he
  have hvalues := plainCondition_values (d := d) h hplain
  split
  · rw [← hvalues]
    simp [Expr.values, Expr.pieces, Piece.values_append, Piece.values]
  · exact hvalues

end ReportFilter

/-! ## Reports -/

theorem ReportDimension.expr_values (m : ReportDimension) (d : Dialect) : m.expr.values d = [] := by
  unfold expr
  split <;> rfl

namespace Report

variable {r r' : Report} {d : Dialect}

/-- The reports differ in the values of their filters and in the bounds of their days, but not in
how many values there are, nor in whether there are days. -/
structure SameButValues (r r' : Report) : Prop where
  rest : { r' with filters := r.filters, timeRange := r.timeRange } = r
  filters : List.Forall₂ ReportFilter.SameButValues r.filters r'.filters
  timeRange : r'.timeRange.isSome = r.timeRange.isSome

/-- The values that the query of the report binds: the bounds of the days if a time column applies
to them, and then those of the filters on columns and those of the filters on metrics. -/
def boundValues (r : Report) (s : Schema) : List Literal :=
  (match r.timeBound? s with
    | some (c, days) => [.dayStart c.type days.start, .dayEnd c.type days.stop]
    | none => []) ++
  (r.filters.filter (·.column?.isSome)).flatMap (·.boundValues) ++
  (r.filters.filter (·.column?.isNone)).flatMap (·.boundValues)

theorem metricExpr_values {m : ReportMetric} {e : Expr} (h : r.metricExpr m = .ok e) :
    e.values d = [] := by
  refine metricExpr_induction (P := fun e => e.values d = []) ?_ ?_ ?_ ?_ h
  · exact fun x => rfl
  · intro e he
    simpa [Expr.values, Expr.pieces, Piece.values_append, Piece.values] using he
  · intro op a b ha hb
    unfold Expr.values at ha hb ⊢
    cases op <;> simp [ArithOp.expr, Expr.pieces, Piece.values_append, Piece.values, ha, hb]
  · exact fun n _ c _ => rfl

theorem Shows.values {e : Expr} (h : r.Shows e) : e.values d = [] := by
  cases h with
  | dimension _ => exact ReportDimension.expr_values _ d
  | metric _ he => exact metricExpr_values he

namespace SameButValues

variable {s : Schema}

theorem refl (r : Report) : r.SameButValues r :=
  ⟨rfl, List.forall₂_same.mpr fun _ _ => ⟨rfl, rfl⟩, rfl⟩

theorem outline (h : r.SameButValues r') : r'.outline = r.outline := by
  have houtline := congrArg Report.outline h.rest
  exact houtline

theorem metrics (h : r.SameButValues r') : r'.metrics = r.metrics := congrArg (·.metrics) h.rest

theorem dimensions (h : r.SameButValues r') : r'.dimensions = r.dimensions :=
  congrArg (·.dimensions) h.rest

theorem limit (h : r.SameButValues r') : r'.limit = r.limit := congrArg (·.limit) h.rest

theorem comparisons (h : r.SameButValues r') : r'.comparisons = r.comparisons :=
  congrArg (·.comparisons) h.rest

theorem fields (h : r.SameButValues r') : r'.fields = r.fields := by
  have htarget : ∀ f f' : ReportFilter, f.SameButValues f' → f'.target = f.target :=
    fun f f' hf => congrArg (·.target) hf.rest
  unfold Report.fields
  rw [h.metrics, h.dimensions]
  congr 1
  exact filterMap_of_forall₂ (fun f f' hf => by rw [htarget f f' hf]) h.filters

theorem neededColumns (h : r.SameButValues r') : r'.neededColumns = r.neededColumns := by
  rw [Report.neededColumns, Report.neededColumns, h.fields]

/-- The days of both reports apply to one time column, or to none. -/
theorem timeBound? (h : r.SameButValues r') (s : Schema) :
    (r'.timeBound? s).map (·.1) = (r.timeBound? s).map (·.1) := by
  have hcolumn : s.timeColumn? r' r'.neededColumns = s.timeColumn? r r.neededColumns := by
    rw [Schema.timeColumn?, Schema.timeColumn?, h.dimensions, h.neededColumns]
  have hdays := h.timeRange
  unfold Report.timeBound?
  rw [hcolumn]
  cases hr : r.timeRange with
  | none =>
    have hnone : r'.timeRange = none := by simpa [hr] using hdays
    rw [hnone]
  | some days =>
    obtain ⟨days', hsome⟩ : ∃ days', r'.timeRange = some days' := by
      simpa [hr, Option.isSome_iff_exists] using hdays
    rw [hsome]
    simp only [Option.bind_some, Option.map_map]
    rfl

theorem queryColumns (h : r.SameButValues r') : r'.queryColumns s = r.queryColumns s := by
  have htime := h.timeBound? s
  unfold Report.queryColumns
  rw [h.neededColumns]
  cases hr : r.timeBound? s with
  | none =>
    have hnone : r'.timeBound? s = none := by simpa [hr] using htime
    rw [hnone]
  | some a =>
    obtain ⟨b, hb, hcolumn⟩ : ∃ b, r'.timeBound? s = some b ∧ b.1 = a.1 := by
      simpa [hr] using htime
    simp only [hb, hcolumn]

end SameButValues

/-! ## Queries -/

variable {s : Schema} {plan : JoinPlan} {limit : Nat} {q q' : Query}
  {ws ws' : List TranslationWarning} {rows groups rows' groups' : List Expr}

theorem conditions_blank {fs fs' : List ReportFilter}
    (hfs : List.Forall₂ ReportFilter.SameButValues fs fs')
    (h : r.conditions fs = .ok (rows, groups)) (h' : r.conditions fs' = .ok (rows', groups')) :
    rows'.map (Expr.mapValues .blank) = rows.map (Expr.mapValues .blank) ∧
      groups'.map (Expr.mapValues .blank) = groups.map (Expr.mapValues .blank) := by
  induction hfs generalizing rows groups rows' groups' with
  | nil =>
    cases h
    cases h'
    exact ⟨rfl, rfl⟩
  | @cons f f' fs fs' hf _ ih =>
    have htarget : f'.target = f.target := congrArg (·.target) hf.rest
    obtain ⟨c, e, rest, hc, he, hrest, rfl⟩ | ⟨m, target, e, rest, hm, hmetric, he, hrest, rfl⟩ :=
      conditions_cons h
    · obtain ⟨c', e', rest', hc', he', hrest', rfl⟩ | ⟨m', _, _, _, hm', -⟩ := conditions_cons h'
      · cases (hc'.symm.trans htarget).trans hc
        obtain ⟨hrows, hgroups⟩ := ih hrest hrest'
        exact ⟨by rw [List.map_cons, List.map_cons, hrows, hf.condition_blank he he'], hgroups⟩
      · cases (hm'.symm.trans htarget).trans hc
    · obtain ⟨c', _, _, hc', -⟩ | ⟨m', target', e', rest', hm', hmetric', he', hrest', rfl⟩ :=
        conditions_cons h'
      · cases (hc'.symm.trans htarget).trans hm
      · cases (hm'.symm.trans htarget).trans hm
        cases hmetric.symm.trans hmetric'
        obtain ⟨hrows, hgroups⟩ := ih hrest hrest'
        exact ⟨hrows, by rw [List.map_cons, List.map_cons, hgroups, hf.condition_blank he he']⟩

theorem within_blank {time time' : Option (TimeColumn × DayRange)}
    (h : time'.map (·.1) = time.map (·.1)) :
    (time'.map fun (c, days) => c.within days).toList.map (Expr.mapValues .blank) =
      (time.map fun (c, days) => c.within days).toList.map (Expr.mapValues .blank) := by
  cases time with
  | none =>
    have hnone : time' = none := by simpa using h
    rw [hnone]
  | some a =>
    obtain ⟨b, rfl, hcolumn⟩ : ∃ b, time' = some b ∧ b.1 = a.1 := by simpa using h
    show [(b.1.within b.2).mapValues .blank] = [(a.1.within a.2).mapValues .blank]
    rw [hcolumn]
    rfl

/-- The queries of reports that differ in values only differ in values only. -/
theorem query_blank (h : r.SameButValues r') {time time' : Option (TimeColumn × DayRange)}
    (htime : time'.map (·.1) = time.map (·.1)) (hq : r.query s plan time limit = .ok (q, ws))
    (hq' : r'.query s plan time' limit = .ok (q', ws')) :
    q'.mapValues .blank = q.mapValues .blank := by
  obtain ⟨metrics, rows, groups, orderBy, hmetrics, hconditions, horder, rfl⟩ := query_eq_ok hq
  obtain ⟨metrics', rows', groups', orderBy', hmetrics', hconditions', horder', rfl⟩ :=
    query_eq_ok hq'
  rw [visibleMetrics_congr h.outline, metricItem_congr h.outline] at hmetrics'
  cases hmetrics.symm.trans hmetrics'
  rw [order_congr h.outline] at horder'
  cases horder.symm.trans horder'
  rw [conditions_congr h.metrics] at hconditions'
  obtain ⟨hrows, hgroups⟩ := conditions_blank h.filters hconditions hconditions'
  have hdays := within_blank htime
  unfold Query.mapValues
  simp only [List.map_append, hrows, hgroups, hdays, h.dimensions]

/-- The days of a comparison are values too. -/
theorem comparisonQueries_blank {t : TranslationSettings} (h : r.SameButValues r')
    {cs cs' : List ComparisonQuery} (hcs : r.comparisonQueries s t plan = .ok (cs, ws))
    (hcs' : r'.comparisonQueries s t plan = .ok (cs', ws')) :
    cs'.map (·.query.mapValues .blank) = cs.map (·.query.mapValues .blank) := by
  have htime := h.timeBound? s
  unfold comparisonQueries at hcs hcs'
  rw [h.comparisons] at hcs'
  cases hr : r.timeBound? s with
  | none =>
    have hr' : r'.timeBound? s = none := by simpa [hr] using htime
    rw [hr] at hcs
    rw [hr'] at hcs'
    cases hcs
    cases hcs'
    rfl
  | some a =>
    obtain ⟨b, hr', hcolumn⟩ : ∃ b, r'.timeBound? s = some b ∧ b.1 = a.1 := by
      simpa [hr] using htime
    obtain ⟨column, days⟩ := a
    obtain ⟨column', days'⟩ := b
    cases hcolumn
    rw [hr] at hcs
    rw [hr'] at hcs'
    obtain ⟨xs, hxs, hcs⟩ := bind_eq_ok hcs
    obtain ⟨xs', hxs', hcs'⟩ := bind_eq_ok hcs'
    cases hcs
    cases hcs'
    refine mapM_map_congr (fun c x x' hx hx' => ?_) hxs hxs'
    obtain ⟨⟨q, w⟩, hq, hx⟩ := bind_eq_ok hx
    obtain ⟨⟨q', w'⟩, hq', hx'⟩ := bind_eq_ok hx'
    obtain ⟨st, -, hx⟩ := bind_eq_ok hx
    obtain ⟨st', -, hx'⟩ := bind_eq_ok hx'
    cases hx
    cases hx'
    rw [h.limit] at hq'
    have hdays : (some (column, days'.shift c)).map (·.1) =
        (some (column, days.shift c)).map (·.1) := rfl
    exact query_blank h hdays hq hq'

/-- The queries of a translation, those of the comparisons included, only differ in values. -/
theorem translate_blank {t : TranslationSettings} {x x' : Translation} (h : r.SameButValues r')
    (hx : r.translate s t = .ok x) (hx' : r'.translate s t = .ok x') :
    x'.queries.map (Query.mapValues .blank) = x.queries.map (Query.mapValues .blank) := by
  obtain ⟨-, plan, q, ws, st, cs, cws, hplan, hq, -, hcs, rfl⟩ := translate_eq_ok.mp hx
  obtain ⟨-, plan', q', ws', st', cs', cws', hplan', hq', -, hcs', rfl⟩ := translate_eq_ok.mp hx'
  rw [h.queryColumns] at hplan'
  cases hplan.symm.trans hplan'
  rw [h.limit] at hq'
  have hquery := query_blank h (h.timeBound? s) hq hq'
  have hcomparisons := comparisonQueries_blank h hcs hcs'
  unfold Translation.queries
  simp only [List.map_cons, List.map_map, Function.comp_def, hquery, hcomparisons]

theorem conditions_values {fs : List ReportFilter} (hfs : ∀ f ∈ fs, f.Takes)
    (h : r.conditions fs = .ok (rows, groups)) :
    rows.flatMap (Expr.values d) =
        (fs.filter (·.column?.isSome)).flatMap (·.boundValues) ∧
      groups.flatMap (Expr.values d) =
        (fs.filter (·.column?.isNone)).flatMap (·.boundValues) := by
  induction fs generalizing rows groups with
  | nil =>
    cases h
    exact ⟨rfl, rfl⟩
  | cons f fs ih =>
    have hf := hfs f List.mem_cons_self
    have hfs := fun f' hf' => hfs f' (List.mem_cons_of_mem f hf')
    obtain ⟨c, e, rest, htarget, he, hrest, rfl⟩ |
      ⟨m, target, e, rest, htarget, hmetric, he, hrest, rfl⟩ := conditions_cons h
    · obtain ⟨hrows, hgroups⟩ := ih hfs hrest
      have hcolumn : f.column? = some c := by rw [ReportFilter.column?, htarget]
      rw [List.filter_cons_of_pos (by rw [hcolumn]; rfl),
        List.filter_cons_of_neg (by rw [hcolumn]; exact Bool.false_ne_true), List.flatMap_cons,
        List.flatMap_cons, ReportFilter.condition_values hf he, hrows]
      exact ⟨rfl, hgroups⟩
    · obtain ⟨hrows, hgroups⟩ := ih hfs hrest
      have hcolumn : f.column? = none := by rw [ReportFilter.column?, htarget]
      rw [List.filter_cons_of_neg (by rw [hcolumn]; exact Bool.false_ne_true),
        List.filter_cons_of_pos (by rw [hcolumn]; rfl), List.flatMap_cons, List.flatMap_cons,
        ReportFilter.condition_values hf he, metricExpr_values hmetric, hgroups]
      exact ⟨hrows, rfl⟩

theorem within_values (time : Option (TimeColumn × DayRange)) :
    (time.map fun (c, days) => c.within days).toList.flatMap (Expr.values d) =
      match time with
      | some (c, days) => [.dayStart c.type days.start, .dayEnd c.type days.stop]
      | none => [] := by
  cases time <;> rfl

/-- The values of a query are those of its conditions. -/
theorem query_conditionValues {time : Option (TimeColumn × DayRange)} {limit : Nat}
    {rows groups : List Expr} (hconditions : r.conditions r.filters = .ok (rows, groups))
    (hq : r.query s plan time limit = .ok (q, ws)) :
    q.exprs.flatMap (Expr.values d) =
      (time.map fun (c, days) => c.within days).toList.flatMap (Expr.values d) ++
        rows.flatMap (Expr.values d) ++ groups.flatMap (Expr.values d) := by
  obtain ⟨metrics, rows', groups', orderBy, hmetrics, hconditions', horder, rfl⟩ := query_eq_ok hq
  cases hconditions.symm.trans hconditions'
  have hselect := select_shows hmetrics
  generalize r.dimensions.map (fun m => (⟨m.expr, some m.name⟩ : SelectItem)) ++ metrics = items
    at hselect
  have hnone : ∀ es : List Expr, (∀ e ∈ es, r.Shows e) → es.flatMap (Expr.values d) = [] :=
    fun es hes => List.flatMap_eq_nil_iff.mpr fun e he => (hes e he).values
  have hitems := hnone (items.map (·.expr)) (List.forall_mem_map.mpr hselect)
  have hdimensions := hnone (r.dimensions.map (·.expr))
    (List.forall_mem_map.mpr fun _ hm => .dimension hm)
  have horders := hnone (orderBy.map (·.expr)) (List.forall_mem_map.mpr (order_shows horder))
  unfold Query.exprs
  simp only [List.flatMap_append, hitems, hdimensions, horders, List.nil_append, List.append_nil,
    List.append_assoc]

/-- The values of the query of a report, in the order in which they are written. -/
theorem query_values (h : r.Takes) {limit : Nat}
    (hq : r.query s plan (r.timeBound? s) limit = .ok (q, ws)) :
    q.exprs.flatMap (Expr.values d) = r.boundValues s := by
  obtain ⟨metrics, rows, groups, orderBy, -, hconditions, -, -⟩ := query_eq_ok hq
  obtain ⟨hrows, hgroups⟩ := conditions_values (d := d) h hconditions
  rw [query_conditionValues hconditions hq, hrows, hgroups, within_values]
  rfl

end Report

/-! ## Views -/

namespace Query

variable {q : Query} {v : View} {g : Literal → Literal}

theorem moved_mapValues : (q.moved v).mapValues g = (q.mapValues g).moved v :=
  (mapFields_mapValues v.fieldFor _).symm

theorem moved_values (d : Dialect) :
    (q.moved v).exprs.flatMap (Expr.values d) = q.exprs.flatMap (Expr.values d) := by
  rw [moved, exprs_mapFields, List.flatMap_map]
  exact congrArg (List.flatMap · q.exprs) (funext (Expr.values_mapFields d v.fieldFor))

theorem serves_mapValues : v.serves (q.mapValues g) = v.serves q := by
  have hparts : ∀ {β : Type} (part : Expr → List β) (_ : ∀ e : Expr, part (e.mapValues g) = part e)
      (es : List Expr), (es.map (Expr.mapValues g)).flatMap part = es.flatMap part :=
    fun part hpart es => by rw [List.flatMap_map, funext hpart]
  have hfields : (q.mapValues g).referencedFields = q.referencedFields := by
    rw [referencedFields, exprs_mapValues, hparts _ Expr.fields_mapValues]
    rfl
  have haggregations : Query.aggregations (q.mapValues g) = q.aggregations := by
    rw [aggregations, exprs_mapValues, hparts _ Expr.aggregations_mapValues]
    rfl
  have hgroups : (q.mapValues g).groupFields = q.groupFields :=
    hparts _ Expr.fields_mapValues q.groupBy
  have hfilters : (q.mapValues g).filterFields = q.filterFields :=
    hparts _ Expr.fields_mapValues q.filters
  rw [View.serves, View.serves, View.coversFields, View.coversFields, View.coversGroups,
    View.coversGroups, hfields, haggregations, hgroups, hfilters]
  rfl

theorem viewFor?_mapValues (s : Schema) : s.viewFor? (q.mapValues g) = s.viewFor? q := by
  simp only [Schema.viewFor?, serves_mapValues]

end Query

/-- The query over the view that takes the place of the tables of the other one, if there is one. -/
def Schema.onViewFor (s : Schema) (q : Query) (moving : Query) : Query :=
  match s.viewFor? q with
  | some v => moving.moved v
  | none => moving

theorem Schema.onViewFor_mapValues (s : Schema) {g : Literal → Literal} {q q' : Query}
    (h : q'.mapValues g = q.mapValues g) (moving : Query) :
    (s.onViewFor q' moving).mapValues g = s.onViewFor q (moving.mapValues g) := by
  have hview : s.viewFor? q' = s.viewFor? q := by
    rw [← Query.viewFor?_mapValues (g := g), h, Query.viewFor?_mapValues]
  unfold onViewFor
  rw [hview]
  cases s.viewFor? q with
  | none => rfl
  | some v => exact Query.moved_mapValues

/-! ## Translations -/

namespace Translation

variable {t t' : Translation} {r r' : Report} {s : Schema} {settings : Settings} {v : View}

/-- The statements of the translation are those of its queries. -/
structure Written (t : Translation) : Prop where
  statement : t.query.render t.dialect = .ok t.statement
  comparisons : ∀ c ∈ t.comparisons, c.query.render t.dialect = .ok c.statement

/-- The texts of the translation: that of its query and those of the comparisons. -/
def texts (t : Translation) : List String :=
  t.statement.sql :: t.comparisons.map (·.statement.sql)

theorem Written.texts_eq (h : t.Written) (g : Literal → Literal) :
    t.texts = (t.queries.map (Query.mapValues g)).map fun q =>
      (Statement.ofPieces t.dialect (q.pieces t.dialect)).sql := by
  have hcomparisons : t.comparisons.map (·.statement.sql) = t.comparisons.map fun c =>
      (Statement.ofPieces t.dialect ((c.query.mapValues g).pieces t.dialect)).sql :=
    List.map_congr_left fun c hc => Query.sql_mapValues g (h.comparisons c hc)
  rw [texts, Query.sql_mapValues g h.statement, hcomparisons, queries]
  simp only [List.map_cons, List.map_map, Function.comp_def]

theorem translate_written {settings : TranslationSettings} (h : r.translate s settings = .ok t) :
    t.Written := by
  obtain ⟨plan, ws, -, hstatement, hdialect, hcomparisons⟩ := Report.translate_queries h
  refine ⟨hdialect ▸ Report.render_of_statement hstatement, fun c hc => ?_⟩
  obtain ⟨-, _, _, -, hc⟩ := hcomparisons c hc
  exact hdialect ▸ Report.render_of_statement hc

theorem statementOnView_written {q q' : Query} {d : Dialect} {st : Statement}
    (h : q.statementOnView d v = .ok (q', st)) : q'.render d = .ok st := by
  obtain ⟨moved, hmoved, h⟩ := bind_eq_ok h
  obtain ⟨st', hst, h⟩ := bind_eq_ok h
  cases h
  exact mapError_eq_ok hst

theorem onView_written (h : t.onView v = .ok t') : t'.Written ∧ t'.dialect = t.dialect := by
  obtain ⟨⟨q, st⟩, hq, h⟩ := bind_eq_ok h
  obtain ⟨cs, hcs, h⟩ := bind_eq_ok h
  cases h
  refine ⟨⟨statementOnView_written hq, fun c' hc' => ?_⟩, rfl⟩
  obtain ⟨c, -, hc⟩ := mapM_mem hcs c' hc'
  obtain ⟨⟨q', st'⟩, hq', hc⟩ := bind_eq_ok hc
  cases hc
  exact statementOnView_written hq'

/-- The second translation has the statements of the queries of the first one, each put in its
place. -/
structure PlacedAs (t t' : Translation) (place : Query → Query) : Prop where
  written : t'.Written
  dialect : t'.dialect = t.dialect
  queries : t'.queries = t.queries.map place

theorem withView_placed {settings : TranslationSettings} (h : r.translate s settings = .ok t) :
    t.PlacedAs (t.withView s) (s.onViewFor t.query) := by
  unfold Schema.onViewFor
  cases hv : s.viewFor? t.query with
  | none =>
    have hsame : t.withView s = t := by rw [withView, hv]
    rw [hsame]
    exact ⟨translate_written h, rfl, (List.map_id' _).symm⟩
  | some v =>
    obtain ⟨t', ht', -, hquery, hcomparisons⟩ := exists_onView h (Schema.serves_of_viewFor? hv)
    have hmoved : t.withView s = t' := by
      rw [withView, hv]
      simp only [ht']
    have hcs : t'.comparisons.map (·.query) = t.comparisons.map (·.query.moved v) :=
      map_eq_of_forall₂ hcomparisons
    obtain ⟨hwritten, hdialect⟩ := onView_written ht'
    rw [hmoved]
    refine ⟨hwritten, hdialect, ?_⟩
    rw [Translation.queries, Translation.queries, hquery, hcs, List.map_cons, List.map_map]
    rfl

/-- The queries of an improved translation are those of the translation, over a view or not. -/
theorem optimize_placed {settings : TranslationSettings} (h : r.translate s settings = .ok t)
    (o : OptimizerSettings) :
    t.PlacedAs (t.optimize s o)
      (if o.enabled && o.materializedViews then s.onViewFor t.query else id) := by
  have hsame : t.PlacedAs t id := ⟨translate_written h, rfl, (List.map_id _).symm⟩
  have hhints : ∀ {t' place}, t.PlacedAs t' place → t.PlacedAs
      (if o.indexHints && t'.usedView.isNone then { t' with indexHints := s.indexHints t'.query }
        else t') place := by
    intro t' place ht'
    split
    · exact ⟨⟨ht'.written.statement, ht'.written.comparisons⟩, ht'.dialect, ht'.queries⟩
    · exact ht'
  unfold optimize
  cases o.enabled with
  | false => exact hsame
  | true =>
    refine hhints ?_
    cases o.materializedViews with
    | false => exact hsame
    | true => exact withView_placed h

variable {settings : Settings}

/-- The translations of reports that differ in values only have the same texts. -/
theorem texts_same (h : r.SameButValues r') (ht : r.finalTranslation s settings = .ok t)
    (ht' : r'.finalTranslation s settings = .ok t') : t'.texts = t.texts := by
  obtain ⟨x, hx, rfl⟩ := map_eq_ok ht
  obtain ⟨x', hx', rfl⟩ := map_eq_ok ht'
  have hplaced := optimize_placed hx settings.optimizer
  have hplaced' := optimize_placed hx' settings.optimizer
  have hblank := Report.translate_blank h hx hx'
  have hdialect : x'.dialect = x.dialect := by
    obtain ⟨_, _, -, -, hx, -⟩ := Report.translate_queries hx
    obtain ⟨_, _, -, -, hx', -⟩ := Report.translate_queries hx'
    rw [hx, hx']
  have hquery : x'.query.mapValues .blank = x.query.mapValues .blank := (List.cons.inj hblank).1
  have hqueries : (x'.optimize s settings.optimizer).queries.map (Query.mapValues .blank) =
      (x.optimize s settings.optimizer).queries.map (Query.mapValues .blank) := by
    rw [hplaced.queries, hplaced'.queries, List.map_map, List.map_map]
    split
    · -- the view is chosen by what is left of the query without its values
      have hplace := fun moving => s.onViewFor_mapValues hquery moving
      have hsame := fun moving => s.onViewFor_mapValues (rfl : x.query.mapValues .blank = _) moving
      simpa only [List.map_map, Function.comp_def, hplace, hsame] using
        congrArg (List.map (s.onViewFor x.query)) hblank
    · exact hblank
  rw [hplaced.written.texts_eq .blank, hplaced'.written.texts_eq .blank, hqueries,
    hplaced.dialect, hplaced'.dialect, hdialect]

/-- The parameters of a translation whose filters have as many values as they need. -/
theorem parameters_eq (h : r.Takes) (ht : r.finalTranslation s settings = .ok t) :
    t.statement.parameters =
      (r.boundValues s).mapIdx fun i v => ⟨"p" ++ toString (i + 1), v⟩ := by
  obtain ⟨x, hx, rfl⟩ := map_eq_ok ht
  have hplaced := optimize_placed hx settings.optimizer
  obtain ⟨plan, ws, hquery, -⟩ := Report.translate_queries hx
  have hvalues : (x.optimize s settings.optimizer).query.exprs.flatMap
      (Expr.values (x.optimize s settings.optimizer).dialect) = r.boundValues s := by
    rw [(List.cons.inj hplaced.queries).1]
    split
    · unfold Schema.onViewFor
      split
      · rw [Query.moved_values, Report.query_values h hquery]
      · exact Report.query_values h hquery
    · exact Report.query_values h hquery
  rw [Query.parameters_eq hplaced.written.statement, hvalues, parametersFrom_eq]
  simp only [Nat.add_comm 1]

end Translation

/-- Values never reach the text of a translation: it is the same for reports that differ in them
only, and so are the texts of the comparisons. They reach the parameters in the order in which they
are written: first the bounds of the days if a time column applies, then the values of the filters
on columns, and then those of the filters on metrics. -/
theorem statement_values (settings : Settings) :
    (∀ (s : Schema) (r r' : Report) (t t' : Translation), r.SameButValues r' →
      r.finalTranslation s settings = .ok t → r'.finalTranslation s settings = .ok t' →
        t'.statement.sql = t.statement.sql ∧
          t'.comparisons.map (·.statement.sql) = t.comparisons.map (·.statement.sql)) ∧
      ∀ (ctx : Mapping.Context) (request : Request) (t : Translation),
        (ctx.map request).report.finalTranslation ctx.schema settings = .ok t →
          t.statement.parameters = ((ctx.map request).report.boundValues ctx.schema).mapIdx
            fun i v => ⟨"p" ++ toString (i + 1), v⟩ := by
  refine ⟨fun s r r' t t' h ht ht' => ?_, fun ctx request t ht => ?_⟩
  · exact List.cons.inj (Translation.texts_same h ht ht')
  · exact Translation.parameters_eq (Mapping.map_mapped ctx request).takes ht

namespace Wagers

/-- The stake of a day by title, for titles that begin with the letters. -/
def lettersOn (letters : String) (day : Date) : Request :=
  { request letters with
    metrics := [{ name := "stake", pinned := some "Stake" }]
    timeRange := some { start := some day, stop := some day } }

/-- Its report. -/
def lettersReport (letters : String) (day : Date) : Report :=
  { metrics := [⟨"stake", "Stake", some ⟨"Bets", "Amount"⟩, .sum, .integer, none, false⟩]
    dimensions := [⟨"title", "Title", ⟨"Games", "Title"⟩, none, false⟩]
    filters := [⟨"title", .column ⟨"Games", "Title"⟩, .string, .startsWith, [.text letters], false⟩]
    sort := some ⟨"Stake", .metric "Stake", .desc⟩
    timeRange := some ⟨day, day⟩ }

theorem lettersReport_same (letters letters' : String) (day day' : Date) :
    (lettersReport letters day).SameButValues (lettersReport letters' day') :=
  ⟨rfl, .cons ⟨rfl, rfl⟩ .nil, rfl⟩

/-- Other letters and another day give the same text. What is special in a pattern is escaped. -/
theorem statement_values_letters : ∃ t t',
    (lettersReport "Ch" .first).finalTranslation schema {} = .ok t ∧
      (context.map (lettersOn "10%" .last)).report = lettersReport "10%" .last ∧
      (lettersReport "10%" .last).finalTranslation schema {} = .ok t' ∧
      t'.statement.sql = t.statement.sql ∧
      t'.statement.parameters = [⟨"p1", .date .last⟩, ⟨"p2", .date .last⟩, ⟨"p3", .text "10!%%"⟩] := by
  have hexists : ∀ x : Computed Translation, x.isOk = true → ∃ t, x = .ok t := by
    intro x hx
    cases x with
    | error e => cases hx
    | ok t => exact ⟨t, rfl⟩
  have hmap : (context.map (lettersOn "10%" .last)).report = lettersReport "10%" .last := by
    decide +kernel
  obtain ⟨t, ht⟩ := hexists ((lettersReport "Ch" .first).finalTranslation schema {})
    (by decide +kernel)
  obtain ⟨t', ht'⟩ := hexists ((lettersReport "10%" .last).finalTranslation schema {})
    (by decide +kernel)
  obtain ⟨htexts, hparameters⟩ := statement_values {}
  refine ⟨t, t', ht, hmap, ht', ?_, ?_⟩
  · exact (htexts schema _ _ t t' (lettersReport_same _ _ _ _) ht ht').1
  · rw [hparameters context (lettersOn "10%" .last) t' (hmap ▸ ht'), hmap]
    decide +kernel

end Wagers

end MetricLayer
