import MetricLayer.Proofs.Basic
import MetricLayer.Proofs.Report.Mapping
import MetricLayer.Service.Basic

/-!
# Phrases make no difference

A report keeps the phrases of its request, for warnings and explanations. `Report.unphrased` is the
report without them, and a translation is `bare` without warnings and explanations. The bare
translation of a report is that of the report without its phrases, and so is the failure if there is
none: a phrase would only occur in the failure of a filter that lacks a value, which no filter of a
mapped report does.

Results:
1. `query_unphrased`: the query does not depend on the phrases.
2. `translate_unphrased` and `finalTranslation_unphrased`: nor does what is made from it.
3. `finalTranslation_structural`: every failure lies in the request or the schema.
-/

namespace MetricLayer

/-! ## Without phrases -/

/-- The metric without its phrase. -/
def ReportMetric.unphrased (m : ReportMetric) : ReportMetric := { m with term := "" }

/-- The dimension without its phrase. -/
def ReportDimension.unphrased (d : ReportDimension) : ReportDimension := { d with term := "" }

/-- The target without what it owes to its mention: the phrase, and whether the metric was shown by
then. -/
def FilterTarget.unphrased : FilterTarget → FilterTarget
  | column f => .column f
  | metric m => .metric { m with term := "", hidden := false }

/-- The filter without its phrase. -/
def ReportFilter.unphrased (f : ReportFilter) : ReportFilter :=
  { f with term := "", target := f.target.unphrased }

/-- The sort without its phrase. -/
def ReportSort.unphrased (s : ReportSort) : ReportSort := { s with term := "" }

/-- The report without the phrases of its request. -/
def Report.unphrased (r : Report) : Report :=
  { r with
    metrics := r.metrics.map .unphrased
    dimensions := r.dimensions.map .unphrased
    filters := r.filters.map .unphrased
    sort := r.sort.map .unphrased }

/-- The translation without its warnings and its explanation. -/
def Translation.bare (t : Translation) : Translation := { t with warnings := [], explanation := [] }

/-! ## Filters -/

namespace ReportFilter

/-- The filter has as many values as its operator takes. -/
def Takes (f : ReportFilter) : Prop := f.operator.takes f.values.length = true

theorem valueAt_eq (f : ReportFilter) {i : Nat} (h : i < f.values.length) :
    f.valueAt i = .ok f.values[i] := by
  rw [valueAt, List.getElem?_eq_getElem h]

theorem Takes.minValues_le {f : ReportFilter} (h : f.Takes) :
    f.operator.minValues ≤ f.values.length := by
  simp only [Takes, Operator.takes, Bool.and_eq_true, decide_eq_true_eq] at h
  exact h.1

/-- A value that the operator needs is there, whatever the phrase. -/
theorem valueAt_unphrased {f : ReportFilter} (h : f.Takes) {i : Nat}
    (hi : i < f.operator.minValues) : f.unphrased.valueAt i = f.valueAt i := by
  have hlt : i < f.values.length := Nat.lt_of_lt_of_le hi h.minValues_le
  rw [f.valueAt_eq hlt, f.unphrased.valueAt_eq hlt]
  rfl

theorem condition_unphrased {f : ReportFilter} (h : f.Takes) (target : Expr) :
    f.unphrased.condition target = f.condition target := by
  have hvalue : ∀ i, i < f.operator.minValues → f.unphrased.valueAt i = f.valueAt i :=
    fun i hi => valueAt_unphrased h hi
  have hplain : f.unphrased.plainCondition target = f.plainCondition target := by
    unfold plainCondition
    have hop : f.unphrased.operator = f.operator := rfl
    have hvalues : f.unphrased.values = f.values := rfl
    rw [hop, hvalues]
    cases hf : f.operator
    case isNull | isNotNull => rfl
    case «in» | notIn =>
      have hne : f.values.isEmpty = false := by
        have := h.minValues_le
        simp only [hf, Operator.minValues] at this
        rw [List.isEmpty_eq_false_iff, ← List.length_pos_iff]
        exact this
      simp only [hne, Bool.false_eq_true, if_false]
    case between =>
      rw [hvalue 0 (by rw [hf]; decide), hvalue 1 (by rw [hf]; decide)]
    all_goals
      simp only [hvalue 0 (by rw [hf]; decide)]
  rw [condition, condition, hplain]
  rfl

end ReportFilter

namespace Report

/-- Every filter has as many values as its operator takes. -/
def Takes (r : Report) : Prop := ∀ f ∈ r.filters, f.Takes

theorem Mapped.takes {ctx : Mapping.Context} {r : Report} (h : r.Mapped ctx) : r.Takes :=
  fun f hf => (h.filters f hf).count

variable {r : Report}

/-! ## Expressions -/

theorem metric?_unphrased (r : Report) (name : String) :
    r.unphrased.metric? name = (r.metric? name).map .unphrased := by
  simp only [metric?, unphrased, List.find?_map]
  rfl

theorem dimension?_unphrased (r : Report) (name : String) :
    r.unphrased.dimension? name = (r.dimension? name).map .unphrased := by
  simp only [dimension?, unphrased, List.find?_map]
  rfl

theorem visibleMetrics_unphrased (r : Report) :
    r.unphrased.visibleMetrics = r.visibleMetrics.map .unphrased := by
  simp only [visibleMetrics, unphrased, List.filter_map]
  rfl

/-- The expression of a metric depends on its name, field, aggregation and formula only. -/
theorem metricExprWithin_unphrased (r : Report) (fuel : Nat) (m m' : ReportMetric)
    (hname : m'.name = m.name) (hfield : m'.field = m.field)
    (haggregation : m'.aggregation = m.aggregation) (hformula : m'.formula = m.formula) :
    r.unphrased.metricExprWithin fuel m' = r.metricExprWithin fuel m := by
  induction fuel generalizing m m' with
  | zero => rw [metricExprWithin, metricExprWithin, hname]
  | succ fuel ih =>
    rw [metricExprWithin, metricExprWithin, hformula, hfield, haggregation, hname]
    cases m.formula with
    | none => cases m.field <;> rfl
    | some f =>
      refine congrArg (Formula.toExpr · f) (funext fun name => ?_)
      rw [metric?_unphrased]
      cases r.metric? name with
      | none => rfl
      | some c => exact ih c c.unphrased rfl rfl rfl rfl

theorem metricExpr_unphrased (r : Report) {m m' : ReportMetric} (hname : m'.name = m.name)
    (hfield : m'.field = m.field) (haggregation : m'.aggregation = m.aggregation)
    (hformula : m'.formula = m.formula) : r.unphrased.metricExpr m' = r.metricExpr m := by
  have hlen : r.unphrased.metrics.length = r.metrics.length := List.length_map _
  rw [metricExpr, metricExpr, hlen]
  exact r.metricExprWithin_unphrased _ m m' hname hfield haggregation hformula

theorem conditions_unphrased (r : Report) {fs : List ReportFilter} (h : ∀ f ∈ fs, f.Takes) :
    r.unphrased.conditions (fs.map .unphrased) = r.conditions fs := by
  induction fs with
  | nil => rfl
  | cons f fs ih =>
    have ih := ih fun f' hf' => h f' (List.mem_cons_of_mem _ hf')
    have hcondition := fun e => ReportFilter.condition_unphrased (h f List.mem_cons_self) e
    rw [List.map_cons, conditions, conditions]
    have htarget : f.unphrased.target = f.target.unphrased := rfl
    rw [htarget]
    cases f.target with
    | column c => simp only [FilterTarget.unphrased, hcondition, ih]
    | metric m =>
      have hexpr : r.unphrased.metricExpr { m with term := "", hidden := false } =
          r.metricExpr m :=
        r.metricExpr_unphrased rfl rfl rfl rfl
      simp only [FilterTarget.unphrased, hcondition, ih, hexpr]

theorem sortExpr?_unphrased (r : Report) (target : SortTarget) :
    r.unphrased.sortExpr? target = r.sortExpr? target := by
  cases target with
  | metric name =>
    simp only [sortExpr?, metric?_unphrased]
    cases r.metric? name with
    | none => rfl
    | some m => exact congrArg (Except.map some) (r.metricExpr_unphrased rfl rfl rfl rfl)
  | dimension name =>
    simp only [sortExpr?, dimension?_unphrased, Option.map_map]
    rfl

theorem defaultOrder_unphrased (r : Report) : r.unphrased.defaultOrder = r.defaultOrder := by
  simp only [defaultOrder, visibleMetrics_unphrased]
  cases r.visibleMetrics with
  | nil =>
    simp only [List.map_nil, unphrased, List.map_map]
    rfl
  | cons m ms =>
    have hexpr : r.unphrased.metricExpr m.unphrased = r.metricExpr m :=
      r.metricExpr_unphrased rfl rfl rfl rfl
    simp only [List.map_cons, hexpr]

/-- The order is the same; a warning about it may name a phrase. -/
theorem order_unphrased (r : Report) : r.unphrased.order.map (·.1) = r.order.map (·.1) := by
  have hsort : r.unphrased.sort = r.sort.map .unphrased := rfl
  rw [order, order, hsort, defaultOrder_unphrased]
  cases r.sort with
  | none => rfl
  | some s =>
    simp only [Option.map_some]
    have hexpr : r.unphrased.sortExpr? s.unphrased.target = r.sortExpr? s.target :=
      r.sortExpr?_unphrased s.target
    rw [hexpr]
    cases r.sortExpr? s.target with
    | error e => rfl
    | ok e? =>
      cases e? with
      | some e => rfl
      | none => cases r.defaultOrder <;> rfl

theorem fields_unphrased (r : Report) : r.unphrased.fields = r.fields := by
  simp only [fields, unphrased, List.filterMap_map, List.map_map]
  congr 1
  refine List.filterMap_congr fun f _ => ?_
  simp only [Function.comp_apply]
  have htarget : f.unphrased.target = f.target.unphrased := rfl
  rw [htarget]
  cases f.target <;> rfl

theorem neededColumns_unphrased (r : Report) : r.unphrased.neededColumns = r.neededColumns := by
  rw [neededColumns, neededColumns, fields_unphrased]

/-! ## Queries -/

theorem metricItem_unphrased (r : Report) (m : ReportMetric) :
    r.unphrased.metricItem m.unphrased = r.metricItem m := by
  have hexpr : r.unphrased.metricExpr m.unphrased = r.metricExpr m :=
    r.metricExpr_unphrased rfl rfl rfl rfl
  rw [metricItem, metricItem, hexpr]
  rfl

/-- The query without what is warned about. -/
theorem query_map_fst (r : Report) (s : Schema) (plan : JoinPlan)
    (time : Option (TimeColumn × DayRange)) (limit : Nat) : (r.query s plan time limit).map (·.1) =
      (r.visibleMetrics.mapM r.metricItem >>= fun metrics =>
        r.conditions r.filters >>= fun conditions =>
          (r.order.map (·.1)).map fun orderBy =>
            { select := r.dimensions.map (fun d => ⟨d.expr, some d.name⟩) ++ metrics
              source := s.tableRef plan.anchor
              joins := plan.steps.map s.join
              filters := (time.map fun (c, days) => c.within days).toList ++ conditions.1
              groupBy := r.dimensions.map (·.expr)
              having := conditions.2
              orderBy
              limit := some limit }) := by
  unfold query
  cases r.visibleMetrics.mapM r.metricItem with
  | error e => rfl
  | ok metrics =>
    cases r.conditions r.filters with
    | error e => rfl
    | ok conditions => cases r.order <;> rfl

/-- The query does not depend on the phrases. -/
theorem query_unphrased (h : r.Takes) (s : Schema) (plan : JoinPlan)
    (time : Option (TimeColumn × DayRange)) (limit : Nat) :
    (r.unphrased.query s plan time limit).map (·.1) = (r.query s plan time limit).map (·.1) := by
  have hmetrics : r.unphrased.visibleMetrics.mapM r.unphrased.metricItem =
      r.visibleMetrics.mapM r.metricItem := by
    rw [visibleMetrics_unphrased, List.mapM_map]
    exact congrArg (List.mapM · r.visibleMetrics) (funext r.metricItem_unphrased)
  have hconditions : r.unphrased.conditions r.unphrased.filters = r.conditions r.filters :=
    r.conditions_unphrased h
  have hselect : r.unphrased.dimensions.map (fun d => (⟨d.expr, some d.name⟩ : SelectItem)) =
      r.dimensions.map fun d => ⟨d.expr, some d.name⟩ := List.map_map
  have hgroups : r.unphrased.dimensions.map (·.expr) = r.dimensions.map (·.expr) := List.map_map
  rw [query_map_fst, query_map_fst, hmetrics, hconditions, r.order_unphrased, hselect, hgroups]

/-! ## Translations -/

theorem timeColumn?_unphrased (r : Report) (s : Schema) (needed : NeededColumns) :
    s.timeColumn? r.unphrased needed = s.timeColumn? r needed := by
  have hfind : r.unphrased.dimensions.find? (·.isDate) =
      (r.dimensions.find? (·.isDate)).map .unphrased := List.find?_map
  simp only [Schema.timeColumn?, hfind]
  cases r.dimensions.find? (·.isDate) <;> rfl

theorem timeBound?_unphrased (r : Report) (s : Schema) :
    r.unphrased.timeBound? s = r.timeBound? s := by
  have hrange : r.unphrased.timeRange = r.timeRange := rfl
  simp only [timeBound?, timeColumn?_unphrased, neededColumns_unphrased, hrange]

theorem queryColumns_unphrased (r : Report) (s : Schema) :
    r.unphrased.queryColumns s = r.queryColumns s := by
  simp only [queryColumns, timeBound?_unphrased, neededColumns_unphrased]

theorem comparisonQuery_eq (r : Report) (s : Schema) (t : TranslationSettings) (plan : JoinPlan)
    (column : TimeColumn) (days : DayRange) (c : Comparison) :
    r.comparisonQuery s t plan column days c =
      ((r.query s plan (some (column, days.shift c)) (t.rowLimit r.limit)).map (·.1) >>= fun q =>
        (statement t q).map fun st => ⟨c, days.shift c, q, st⟩) := by
  unfold comparisonQuery
  simp only
  cases r.query s plan (some (column, days.shift c)) (t.rowLimit r.limit) with
  | error e => rfl
  | ok q =>
    show (statement t q.1 >>= _) = (statement t q.1).map _
    cases statement t q.1 <;> rfl

theorem comparisonQuery_unphrased (h : r.Takes) (s : Schema) (t : TranslationSettings)
    (plan : JoinPlan) (column : TimeColumn) (days : DayRange) :
    r.unphrased.comparisonQuery s t plan column days = r.comparisonQuery s t plan column days := by
  funext c
  have hlimit : r.unphrased.limit = r.limit := rfl
  rw [comparisonQuery_eq, comparisonQuery_eq, hlimit, query_unphrased h]

theorem comparisonQueries_unphrased (h : r.Takes) (s : Schema) (t : TranslationSettings)
    (plan : JoinPlan) : r.unphrased.comparisonQueries s t plan = r.comparisonQueries s t plan := by
  have hcomparisons : r.unphrased.comparisons = r.comparisons := rfl
  simp only [comparisonQueries, timeBound?_unphrased, hcomparisons, comparisonQuery_unphrased h]

theorem isEmpty_unphrased (r : Report) : r.unphrased.isEmpty = r.isEmpty := by
  have hdimensions : r.unphrased.dimensions = r.dimensions.map .unphrased := rfl
  simp only [isEmpty, visibleMetrics_unphrased, hdimensions, List.isEmpty_map]

/-- The translation without its warnings and its explanation. -/
theorem translate_map_bare (r : Report) (s : Schema) (t : TranslationSettings) :
    (r.translate s t).map (·.bare) =
      if r.isEmpty || r.neededColumns.isEmpty then .error .emptyProjection
      else (s.joinPlan t.joinRule (r.queryColumns s) >>= fun plan =>
        (r.query s plan (r.timeBound? s) (t.rowLimit r.limit)).map (·.1) >>= fun query =>
          statement t query >>= fun statement =>
            (r.comparisonQueries s t plan).map fun comparisons =>
              { query, statement
                dialect := t.dialect
                neededTables := (r.queryColumns s).tables
                warnings := []
                explanation := []
                comparisons := comparisons.1 }) := by
  unfold translate
  simp only
  split
  · rfl
  · cases s.joinPlan t.joinRule (r.queryColumns s) with
    | error e => rfl
    | ok plan =>
      show Except.map _ (r.query s plan _ _ >>= _) = (Except.map _ (r.query s plan _ _) >>= _)
      cases r.query s plan (r.timeBound? s) (t.rowLimit r.limit) with
      | error e => rfl
      | ok q =>
        show Except.map _ (statement t q.1 >>= _) = (statement t q.1 >>= _)
        cases statement t q.1 with
        | error e => rfl
        | ok st => cases r.comparisonQueries s t plan <;> rfl

/-- The translation does not depend on the phrases, its warnings and explanation aside. -/
theorem translate_unphrased (h : r.Takes) (s : Schema) (t : TranslationSettings) :
    (r.unphrased.translate s t).map (·.bare) = (r.translate s t).map (·.bare) := by
  have hlimit : r.unphrased.limit = r.limit := rfl
  rw [translate_map_bare, translate_map_bare, isEmpty_unphrased, neededColumns_unphrased,
    timeBound?_unphrased, queryColumns_unphrased, hlimit]
  simp only [query_unphrased h, comparisonQueries_unphrased h]

end Report

/-! ## Improvements -/

namespace Translation

end Translation

namespace Report

variable {r : Report}

end Report

/-! ## Failures -/

/-- Every failure of the computation lies in the request or the schema. -/
def Structural {α : Type} (x : Except TranslationError α) : Prop :=
  ∀ e, x = .error e → e.isStructural = true

namespace Structural

variable {α β : Type}

theorem ok (a : α) : Structural (.ok a) := by
  rintro e ⟨⟩

theorem error {e : TranslationError} (h : e.isStructural = true) :
    Structural (.error e : Except TranslationError α) := by
  rintro e' ⟨⟩
  exact h

theorem bind {x : Except TranslationError α} {f : α → Except TranslationError β}
    (hx : Structural x) (hf : ∀ a, Structural (f a)) : Structural (x >>= f) := by
  cases x with
  | error e => exact error (hx e rfl)
  | ok a => exact hf a

theorem map {x : Except TranslationError α} {f : α → β} (hx : Structural x) :
    Structural (x.map f) := by
  cases x with
  | error e => exact error (hx e rfl)
  | ok a => exact ok (f a)

theorem mapM {f : α → Except TranslationError β} {xs : List α} (hf : ∀ a, Structural (f a)) :
    Structural (xs.mapM f) := by
  induction xs with
  | nil => exact ok []
  | cons x xs ih =>
    rw [List.mapM_cons]
    exact bind (hf x) fun y => bind ih fun ys => ok (y :: ys)

end Structural

namespace ReportFilter

end ReportFilter

namespace Report

end Report

end MetricLayer
