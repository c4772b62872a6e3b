import MetricLayer.Proofs.Translation.Optimized

/-!
# Valid groupings

A database refuses a query that selects a column which is neither summarized nor the same for all
rows of a group. In the query of a report every selected or ordered expression is one that the query
is grouped by, letter for letter, or has all its columns in aggregates. Over a view equal
expressions stay equal, since all occurrences of a column are replaced by one column of the view.

Results:
1. `Query.IsGrouped.moved`: a valid grouping stays one over a view.
2. `Report.query_isGrouped`: the grouping of a query of a report is valid.
3. `Translation.queries_isGrouped`: so are those of a translation and of its improvements.
-/

namespace MetricLayer

/-! ## Parts of renamed expressions -/

namespace Expr

mutual

/-- An expression without outermost aggregates has none at all. -/
theorem aggregations_eq_nil_iff : ∀ e : Expr, e.aggregations = [] ↔ e.measures = []
  | field _ | value _ | number _ | aggregate _ _ => by simp [aggregations, measures]
  | binary a _ b => by
    simp only [aggregations, measures, List.append_eq_nil_iff, aggregations_eq_nil_iff a,
      aggregations_eq_nil_iff b]
  | not e | isNull e _ | datePart _ e | nullIfZero e | nested e => by
    simp only [aggregations, measures, aggregations_eq_nil_iff e]
  | between e low high => by
    simp only [aggregations, measures, List.append_eq_nil_iff, aggregations_eq_nil_iff e,
      aggregations_eq_nil_iff low, aggregations_eq_nil_iff high]
  | inList e items _ => by
    simp only [aggregations, measures, List.append_eq_nil_iff, aggregations_eq_nil_iff e,
      aggregationsOfList_eq_nil_iff items]
  | like e p => by
    simp only [aggregations, measures, List.append_eq_nil_iff, aggregations_eq_nil_iff e,
      aggregations_eq_nil_iff p]

theorem aggregationsOfList_eq_nil_iff : ∀ es : List Expr,
    aggregationsOfList es = [] ↔ measuresOfList es = []
  | [] => by simp [aggregationsOfList, measuresOfList]
  | e :: es => by
    simp only [aggregationsOfList, measuresOfList, List.append_eq_nil_iff,
      aggregations_eq_nil_iff e, aggregationsOfList_eq_nil_iff es]

end

variable (g : Field → Field)

mutual

theorem outerFields_mapFields : ∀ e : Expr, (e.mapFields g).outerFields = e.outerFields.map g
  | field _ | value _ | number _ | aggregate _ _ => rfl
  | binary a _ b => by
    simp only [mapFields, outerFields, List.map_append, outerFields_mapFields a,
      outerFields_mapFields b]
  | not e | isNull e _ | datePart _ e | nullIfZero e | nested e => by
    simp only [mapFields, outerFields, outerFields_mapFields e]
  | between e low high => by
    simp only [mapFields, outerFields, List.map_append, outerFields_mapFields e,
      outerFields_mapFields low, outerFields_mapFields high]
  | inList e items _ => by
    simp only [mapFields, outerFields, List.map_append, outerFields_mapFields e,
      outerFieldsOfList_mapFields items]
  | like e p => by
    simp only [mapFields, outerFields, List.map_append, outerFields_mapFields e,
      outerFields_mapFields p]

theorem outerFieldsOfList_mapFields : ∀ es : List Expr,
    outerFieldsOfList (mapFieldsList g es) = (outerFieldsOfList es).map g
  | [] => rfl
  | e :: es => by
    simp only [mapFieldsList, outerFieldsOfList, List.map_append, outerFields_mapFields e,
      outerFieldsOfList_mapFields es]

end

mutual

theorem measures_mapFields : ∀ e : Expr,
    (e.mapFields g).measures = e.measures.map fun m => (m.1, m.2.mapFields g)
  | field _ | value _ | number _ | aggregate _ _ => rfl
  | binary a _ b => by
    simp only [mapFields, measures, List.map_append, measures_mapFields a, measures_mapFields b]
  | not e | isNull e _ | datePart _ e | nullIfZero e | nested e => by
    simp only [mapFields, measures, measures_mapFields e]
  | between e low high => by
    simp only [mapFields, measures, List.map_append, measures_mapFields e,
      measures_mapFields low, measures_mapFields high]
  | inList e items _ => by
    simp only [mapFields, measures, List.map_append, measures_mapFields e,
      measuresOfList_mapFields items]
  | like e p => by
    simp only [mapFields, measures, List.map_append, measures_mapFields e, measures_mapFields p]

theorem measuresOfList_mapFields : ∀ es : List Expr,
    measuresOfList (mapFieldsList g es) = (measuresOfList es).map fun m => (m.1, m.2.mapFields g)
  | [] => rfl
  | e :: es => by
    simp only [mapFieldsList, measuresOfList, List.map_append, measures_mapFields e,
      measuresOfList_mapFields es]

end

end Expr

/-! ## Groupings -/

namespace Query

/-- The grouping is valid: what is selected, ordered by or asked of groups is an expression that the
query is grouped by or has no fields outside of aggregates, and aggregates stand neither in the
conditions on rows nor in the grouping nor in one another. -/
structure IsGrouped (q : Query) : Prop where
  select : ∀ s ∈ q.select, s.expr ∈ q.groupBy ∨ s.expr.outerFields = []
  having : ∀ e ∈ q.having, e ∈ q.groupBy ∨ e.outerFields = []
  orderBy : ∀ o ∈ q.orderBy, o.expr ∈ q.groupBy ∨ o.expr.outerFields = []
  filters : ∀ e ∈ q.filters, e.aggregations = []
  groupBy : ∀ e ∈ q.groupBy, e.aggregations = []
  nested : ∀ e ∈ q.exprs, ∀ m ∈ e.measures, m.2.aggregations = []

variable {q : Query}

/-- A valid grouping stays one when the fields are renamed. -/
theorem IsGrouped.mapFields (h : q.IsGrouped) (g : Field → Field) : (q.mapFields g).IsGrouped := by
  have hpart : ∀ e : Expr, e ∈ q.groupBy ∨ e.outerFields = [] →
      e.mapFields g ∈ (q.mapFields g).groupBy ∨ (e.mapFields g).outerFields = [] := by
    intro e he
    refine he.imp List.mem_map_of_mem fun houter => ?_
    rw [Expr.outerFields_mapFields, houter, List.map_nil]
  have hfree : ∀ es : List Expr, (∀ e ∈ es, e.aggregations = []) →
      ∀ e ∈ es.map (Expr.mapFields g), e.aggregations = [] := by
    intro es hes
    refine List.forall_mem_map.mpr fun e he => ?_
    rw [Expr.aggregations_mapFields, hes e he]
  constructor
  case select => exact List.forall_mem_map.mpr fun s hs => hpart s.expr (h.select s hs)
  case having => exact List.forall_mem_map.mpr fun e he => hpart e (h.having e he)
  case orderBy => exact List.forall_mem_map.mpr fun o ho => hpart o.expr (h.orderBy o ho)
  case filters => exact hfree q.filters h.filters
  case groupBy => exact hfree q.groupBy h.groupBy
  case nested =>
    rw [exprs_mapFields]
    refine List.forall_mem_map.mpr fun e he => ?_
    rw [Expr.measures_mapFields]
    refine List.forall_mem_map.mpr fun m hm => ?_
    rw [Expr.aggregations_mapFields, h.nested e he m hm]

/-- A valid grouping stays one over a view. -/
theorem IsGrouped.moved (h : q.IsGrouped) (v : View) : (q.moved v).IsGrouped := by
  have hsource : ({ q with source := v.tableRef, joins := [] } : Query).IsGrouped :=
    ⟨h.select, h.having, h.orderBy, h.filters, h.groupBy, h.nested⟩
  exact hsource.mapFields v.fieldFor

end Query

/-- The grouping of a query of a report is valid. -/
theorem Report.query_isGrouped {r : Report} {s : Schema} {plan : JoinPlan}
    {time : Option (TimeColumn × DayRange)} {limit : ℕ} {q : Query} {ws : List TranslationWarning}
    (h : r.query s plan time limit = .ok (q, ws)) : q.IsGrouped := by
  have hq := query_isReport h
  constructor
  case select => exact hq.select
  case having => exact fun e he => .inr (hq.having e he)
  case orderBy => exact hq.orderBy
  case filters => exact fun e he => e.aggregations_eq_nil_iff.mpr (hq.filters e he)
  case groupBy => exact fun e he => e.aggregations_eq_nil_iff.mpr (hq.groupBy e he)
  case nested =>
    intro e he m hm
    obtain ⟨c, hc⟩ := query_measures h m (Query.measures_of_mem he hm)
    rw [hc, Expr.aggregations]

namespace Translation

variable {r : Report} {s : Schema} {settings : TranslationSettings} {t : Translation}

/-- In the query of a translation and in those of its comparisons the grouping is valid, before and
after an improvement. -/
theorem queries_isGrouped (ht : r.translate s settings = .ok t) (check : StatementCheck)
    (s' : Schema) (o : OptimizerSettings) :
    (∀ q ∈ t.queries, q.IsGrouped) ∧ ∀ q ∈ (t.optimizeChecked check s' o).queries, q.IsGrouped := by
  have hqueries : ∀ q ∈ t.queries, q.IsGrouped := by
    obtain ⟨plan, ws, hquery, -, -, hcomparisons⟩ := Report.translate_queries ht
    refine List.forall_mem_cons.mpr ⟨Report.query_isGrouped hquery, ?_⟩
    refine List.forall_mem_map.mpr fun c hc => ?_
    obtain ⟨-, time, ws', hcomparison, -⟩ := hcomparisons c hc
    exact Report.query_isGrouped hcomparison
  have ht' : r.translate s settings = .ok { t with warnings := t.warnings } := ht
  have htables := translate_overTables ht'
  refine ⟨hqueries, ?_⟩
  obtain ⟨v, -, hover⟩ | ⟨added, hints, -, -, heq⟩ := optimizeChecked_cases htables check s' o
  · rw [hover.queries]
    exact List.forall_mem_map.mpr fun q hq => (hqueries q hq).moved v
  · rw [heq]
    exact hqueries

end Translation

namespace Sales

/-- The sums of the days are grouped validly, from the table and from the view. -/
theorem queries_isGrouped_daily : ∃ t, (report .sum).translate schema {} = .ok t ∧
    t.query = query .sum ∧ (∀ q ∈ t.queries, q.IsGrouped) ∧
      ∀ q ∈ (t.optimizeChecked (fun _ _ => none) schema {}).queries, q.IsGrouped := by
  obtain ⟨t, ht, hquery⟩ := exists_translation .sum
  obtain ⟨hbefore, hafter⟩ := Translation.queries_isGrouped ht (fun _ _ => none) schema {}
  exact ⟨t, ht, hquery, hbefore, hafter⟩

end Sales

end MetricLayer
