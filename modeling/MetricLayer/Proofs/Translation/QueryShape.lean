import MetricLayer.Proofs.Sql.Regrouping
import MetricLayer.Translation.Basic

/-!
# The shape of the queries of reports

What is selected by the query of a report, or ordered by, is a dimension, which the query is grouped
by, or a metric, all of whose fields stand in aggregates. Conditions on rows are about columns and
conditions on groups about metrics.

Results:
1. `Report.query_isReport` and `Report.query_measures`: every query of a report has that shape.
2. `Report.translate_eq_ok`: what a translation is made of.
3. `Report.translate_queries`: the query of a translation and those of its comparisons are queries of
   the report.
-/

namespace MetricLayer

/-! ## Expressions -/

/-- All fields of the expression stand in aggregates, and every aggregate is that of a field. -/
structure Expr.IsSummary (e : Expr) : Prop where
  outer : e.outerFields = []
  measures : ∀ m ∈ e.measures, ∃ c, m.2 = .field c

theorem Expr.IsSummary.binary {a b : Expr} (ha : a.IsSummary) (hb : b.IsSummary) (op : BinaryOp) :
    (Expr.binary a op b).IsSummary := by
  refine ⟨by rw [outerFields, ha.outer, hb.outer]; rfl, fun m hm => ?_⟩
  rcases List.mem_append.mp hm with hm | hm
  · exact ha.measures m hm
  · exact hb.measures m hm

theorem Expr.IsSummary.expr {a b : Expr} (ha : a.IsSummary) (hb : b.IsSummary) (op : ArithOp) :
    (op.expr a b).IsSummary := by
  cases op with
  | add | sub | mul => exact ha.binary hb _
  | div =>
    have hdivisor : (Expr.nullIfZero b).IsSummary := ⟨hb.outer, hb.measures⟩
    exact ha.binary hdivisor _

/-- What holds of numbers and of references, and of operations if of their parts, holds of the
expression of a formula. -/
theorem Formula.toExpr_induction {ε : Type} {reference : String → Except ε Expr} {P : Expr → Prop}
    (hnumber : ∀ x, P (.number x)) (hnested : ∀ e, P e → P (.nested e))
    (hop : ∀ (op : ArithOp) a b, P a → P b → P (op.expr a b)) {f : Formula} {e : Expr}
    (href : ∀ name ∈ f.names, ∀ e, reference name = .ok e → P e) (h : f.toExpr reference = .ok e) :
    P e := by
  induction f generalizing e with
  | metric name => exact href name List.mem_cons_self e h
  | number x =>
    cases h
    exact hnumber x
  | group inner ih =>
    obtain ⟨e', he', h⟩ := bind_eq_ok h
    cases h
    exact hnested e' (ih href he')
  | binary left op right ihl ihr =>
    obtain ⟨a, ha, h⟩ := bind_eq_ok h
    obtain ⟨b, hb, h⟩ := bind_eq_ok h
    cases h
    exact hop op a b (ihl (fun name hn => href name (List.mem_append_left _ hn)) ha)
      (ihr (fun name hn => href name (List.mem_append_right _ hn)) hb)

/-- The values that a condition compares with have no fields and no aggregates. -/
theorem outerFields_values (vs : List Literal) : Expr.outerFieldsOfList (vs.map .value) = [] := by
  induction vs with
  | nil => rfl
  | cons v vs ih => exact ih

theorem measures_values (vs : List Literal) : Expr.measuresOfList (vs.map .value) = [] := by
  induction vs with
  | nil => rfl
  | cons v vs ih => exact ih

namespace ReportFilter

variable {f : ReportFilter} {target e : Expr}

/-- The forms of a condition: the target is compared with values of the filter. -/
theorem plainCondition_cases (h : f.plainCondition target = .ok e) :
    (∃ op v, e = .binary target op (.value v)) ∨ (∃ v, e = .like target (.value v)) ∨
      (∃ negated, f.values ≠ [] ∧ e = .inList target (f.values.map .value) negated) ∨
      (∃ low high, e = .between target (.value low) (.value high)) ∨
      ∃ negated, e = .isNull target negated := by
  simp only [plainCondition] at h
  cases hop : f.operator <;> simp only [hop] at h
  case equals | notEquals | greaterThan | greaterOrEqual | lessThan | lessOrEqual =>
    obtain ⟨v, -, rfl⟩ := map_eq_ok h
    exact .inl ⟨_, v, rfl⟩
  case contains | startsWith | endsWith =>
    obtain ⟨v, -, rfl⟩ := map_eq_ok h
    exact .inr (.inl ⟨_, rfl⟩)
  case «in» | notIn =>
    split at h
    · cases h
    · next hvalues =>
      cases h
      exact .inr (.inr (.inl ⟨_, by simpa using hvalues, rfl⟩))
  case between =>
    obtain ⟨low, -, h⟩ := bind_eq_ok h
    obtain ⟨high, -, h⟩ := bind_eq_ok h
    cases h
    exact .inr (.inr (.inr (.inl ⟨low, high, rfl⟩)))
  case isNull | isNotNull =>
    cases h
    exact .inr (.inr (.inr (.inr ⟨_, rfl⟩)))

theorem plainCondition_parts (h : f.plainCondition target = .ok e) :
    e.outerFields = target.outerFields ∧ e.measures = target.measures := by
  obtain ⟨op, v, rfl⟩ | ⟨v, rfl⟩ | ⟨negated, -, rfl⟩ | ⟨low, high, rfl⟩ | ⟨negated, rfl⟩ :=
    plainCondition_cases h <;>
    simp [Expr.outerFields, Expr.measures, outerFields_values, measures_values]

/-- A condition has the fields outside of aggregates and the aggregates of its target. -/
theorem condition_parts (h : f.condition target = .ok e) :
    e.outerFields = target.outerFields ∧ e.measures = target.measures := by
  obtain ⟨e', he', rfl⟩ := map_eq_ok h
  have hparts := plainCondition_parts he'
  cases f.negated with
  | true => exact hparts
  | false => exact hparts

end ReportFilter

namespace Report

variable {r : Report}

/-- What holds of numbers and of the aggregates of the metric and of the metrics of the report, and
of operations if of their parts, holds of the expression of the metric. -/
theorem metricExpr_induction {P : Expr → Prop} (hnumber : ∀ x, P (.number x))
    (hnested : ∀ e, P e → P (.nested e)) (hop : ∀ (op : ArithOp) a b, P a → P b → P (op.expr a b))
    {m : ReportMetric} {e : Expr}
    (hfield : ∀ n, n = m ∨ n ∈ r.metrics → ∀ c, n.field = some c →
      P (.aggregate n.aggregation (.field c)))
    (h : r.metricExpr m = .ok e) : P e := by
  unfold metricExpr at h
  generalize r.metrics.length + 1 = fuel at h
  induction fuel generalizing m e with
  | zero => cases h
  | succ fuel ih =>
    rw [metricExprWithin] at h
    split at h
    · refine Formula.toExpr_induction hnumber hnested hop (fun name _ e he => ?_) h
      split at he
      · next n hn =>
        have hmem : ∀ n', n' = n ∨ n' ∈ r.metrics → n' ∈ r.metrics := by
          rintro n' (rfl | hn')
          · exact List.mem_of_find?_eq_some hn
          · exact hn'
        exact ih (fun n' hn' => hfield n' (.inr (hmem n' hn'))) he
      · cases he
    · next c _ hc =>
      cases h
      exact hfield m (.inl rfl) c hc
    · cases h

theorem metricExpr_isSummary {m : ReportMetric} {e : Expr} (h : r.metricExpr m = .ok e) :
    e.IsSummary := by
  refine metricExpr_induction (fun _ => ⟨rfl, nofun⟩) (fun _ he => ⟨he.outer, he.measures⟩)
    (fun op _ _ ha hb => ha.expr hb op) (fun n _ c _ => ?_) h
  exact ⟨rfl, fun m' hm' => ⟨c, congrArg Prod.snd (List.mem_singleton.mp hm')⟩⟩

/-- The first filter gives a condition on rows or one on groups, and the other filters the rest. -/
theorem conditions_cons {f : ReportFilter} {fs : List ReportFilter} {rows groups : List Expr}
    (h : r.conditions (f :: fs) = .ok (rows, groups)) :
    (∃ c e rest, f.target = .column c ∧ f.condition (.field c) = .ok e ∧
        r.conditions fs = .ok (rest, groups) ∧ rows = e :: rest) ∨
      ∃ m target e rest, f.target = .metric m ∧ r.metricExpr m = .ok target ∧
        f.condition target = .ok e ∧ r.conditions fs = .ok (rows, rest) ∧ groups = e :: rest := by
  rw [conditions] at h
  split at h
  · next c htarget =>
    obtain ⟨e, he, h⟩ := bind_eq_ok h
    obtain ⟨⟨rest, groups'⟩, hrest, h⟩ := bind_eq_ok h
    cases h
    exact .inl ⟨c, e, rest, htarget, he, hrest, rfl⟩
  · next m htarget =>
    obtain ⟨target, hmetric, h⟩ := bind_eq_ok h
    obtain ⟨e, he, h⟩ := bind_eq_ok h
    obtain ⟨⟨rows', rest⟩, hrest, h⟩ := bind_eq_ok h
    cases h
    exact .inr ⟨m, target, e, rest, htarget, hmetric, he, hrest, rfl⟩

/-- A condition on rows is that of a filter on a column, and one on groups that of a filter on a
metric. -/
theorem mem_conditions {fs : List ReportFilter} {rows groups : List Expr}
    (h : r.conditions fs = .ok (rows, groups)) :
    (∀ e ∈ rows, ∃ f ∈ fs, ∃ c, f.target = .column c ∧ f.condition (.field c) = .ok e) ∧
      ∀ e ∈ groups, ∃ f ∈ fs, ∃ m target, f.target = .metric m ∧ r.metricExpr m = .ok target ∧
        f.condition target = .ok e := by
  induction fs generalizing rows groups with
  | nil =>
    cases h
    exact ⟨nofun, nofun⟩
  | cons f fs ih =>
    have later {P : ReportFilter → Prop} : (∃ f' ∈ fs, P f') → ∃ f' ∈ f :: fs, P f' :=
      fun ⟨f', hf', hP⟩ => ⟨f', List.mem_cons_of_mem f hf', hP⟩
    obtain ⟨c, e, rest, htarget, he, hrest, rfl⟩ |
      ⟨m, target, e, rest, htarget, hmetric, he, hrest, rfl⟩ := conditions_cons h
    · obtain ⟨hrows, hgroups⟩ := ih hrest
      refine ⟨List.forall_mem_cons.mpr ⟨?_, fun e' he' => later (hrows e' he')⟩,
        fun e' he' => later (hgroups e' he')⟩
      exact ⟨f, List.mem_cons_self, c, htarget, he⟩
    · obtain ⟨hrows, hgroups⟩ := ih hrest
      refine ⟨fun e' he' => later (hrows e' he'),
        List.forall_mem_cons.mpr ⟨?_, fun e' he' => later (hgroups e' he')⟩⟩
      exact ⟨f, List.mem_cons_self, m, target, htarget, hmetric, he⟩

/-- Conditions on rows have no aggregates, and those on groups have no fields outside of them. -/
theorem conditions_shape {fs : List ReportFilter} {rows groups : List Expr}
    (h : r.conditions fs = .ok (rows, groups)) :
    (∀ e ∈ rows, e.measures = []) ∧ ∀ e ∈ groups, e.IsSummary := by
  obtain ⟨hrows, hgroups⟩ := mem_conditions h
  constructor
  · intro e he
    obtain ⟨f, -, c, -, he⟩ := hrows e he
    exact (ReportFilter.condition_parts he).2
  · intro e he
    obtain ⟨f, -, m, target, -, htarget, he⟩ := hgroups e he
    obtain ⟨houter, hmeasures⟩ := ReportFilter.condition_parts he
    have htarget := metricExpr_isSummary htarget
    refine ⟨houter.trans htarget.outer, ?_⟩
    rw [hmeasures]
    exact htarget.measures

/-- The expression is that of a dimension of the report, or all its fields stand in aggregates. -/
def IsColumn (r : Report) (e : Expr) : Prop := e ∈ r.dimensions.map (·.expr) ∨ e.IsSummary

theorem defaultOrder_isColumn {os : List OrderItem} (h : r.defaultOrder = .ok os) :
    ∀ o ∈ os, r.IsColumn o.expr := by
  unfold defaultOrder at h
  split at h
  · obtain ⟨e, he, h⟩ := bind_eq_ok h
    cases h
    exact List.forall_mem_singleton.mpr (.inr (metricExpr_isSummary he))
  · cases h
    intro o ho
    obtain ⟨d, hd, rfl⟩ := List.mem_map.mp ho
    exact .inl (List.mem_map_of_mem hd)

theorem sortExpr?_isColumn {target : SortTarget} {e : Expr}
    (h : r.sortExpr? target = .ok (some e)) : r.IsColumn e := by
  unfold sortExpr? at h
  split at h
  · split at h
    · obtain ⟨e', he', heq⟩ := map_eq_ok h
      cases heq
      exact .inr (metricExpr_isSummary he')
    · cases h
  · obtain ⟨d, hd, rfl⟩ := Option.map_eq_some_iff.mp (Except.ok.inj h)
    exact .inl (List.mem_map_of_mem (List.mem_of_find?_eq_some hd))

theorem order_isColumn {os : List OrderItem} {ws : List TranslationWarning}
    (h : r.order = .ok (os, ws)) : ∀ o ∈ os, r.IsColumn o.expr := by
  unfold order at h
  split at h
  · obtain ⟨os', hos, h⟩ := bind_eq_ok h
    cases h
    exact defaultOrder_isColumn hos
  · obtain ⟨e?, he, h⟩ := bind_eq_ok h
    split at h
    · cases h
      exact List.forall_mem_singleton.mpr (sortExpr?_isColumn he)
    · obtain ⟨os', hos, h⟩ := bind_eq_ok h
      cases h
      exact defaultOrder_isColumn hos

theorem metricItem_isSummary {m : ReportMetric} {item : SelectItem}
    (h : r.metricItem m = .ok item) : item.expr.IsSummary := by
  obtain ⟨e, he, h⟩ := bind_eq_ok h
  cases h
  exact metricExpr_isSummary he

end Report

theorem ReportDimension.expr_measures (d : ReportDimension) : d.expr.measures = [] := by
  unfold expr
  split <;> rfl

/-! ## Queries -/

namespace Report

variable {r : Report} {s : Schema} {plan : JoinPlan} {time : Option (TimeColumn × DayRange)}
  {limit : Nat} {q : Query} {ws : List TranslationWarning}

/-- What the query of a report is made of. -/
theorem query_eq_ok (h : r.query s plan time limit = .ok (q, ws)) :
    ∃ metrics rows groups orderBy, r.visibleMetrics.mapM r.metricItem = .ok metrics ∧
      r.conditions r.filters = .ok (rows, groups) ∧ r.order = .ok (orderBy, ws) ∧
      q = { select := r.dimensions.map (fun d => ⟨d.expr, some d.name⟩) ++ metrics
            source := s.tableRef plan.anchor
            joins := plan.steps.map s.join
            filters := (time.map fun (c, days) => c.within days).toList ++ rows
            groupBy := r.dimensions.map (·.expr)
            having := groups
            orderBy
            limit := some limit } := by
  obtain ⟨metrics, hmetrics, h⟩ := bind_eq_ok h
  obtain ⟨⟨rows, groups⟩, hconditions, h⟩ := bind_eq_ok h
  obtain ⟨⟨orderBy, ws'⟩, horder, h⟩ := bind_eq_ok h
  cases h
  exact ⟨metrics, rows, groups, orderBy, hmetrics, hconditions, horder, rfl⟩

theorem within_measures (time : Option (TimeColumn × DayRange)) :
    ∀ e ∈ (time.map fun (c, days) => c.within days).toList, e.measures = [] := by
  intro e he
  obtain ⟨⟨c, days⟩, -, rfl⟩ := Option.map_eq_some_iff.mp (Option.mem_toList.mp he)
  rfl

theorem query_isReport (h : r.query s plan time limit = .ok (q, ws)) : q.IsReport := by
  obtain ⟨metrics, rows, groups, orderBy, hmetrics, hconditions, horder, rfl⟩ := query_eq_ok h
  obtain ⟨hrows, hgroups⟩ := conditions_shape hconditions
  constructor
  case filters => exact List.forall_mem_append.mpr ⟨within_measures time, hrows⟩
  case groupBy =>
    intro e he
    obtain ⟨d, -, rfl⟩ := List.mem_map.mp he
    exact d.expr_measures
  case select =>
    refine List.forall_mem_append.mpr ⟨fun item hitem => ?_, fun item hitem => ?_⟩
    · obtain ⟨d, hd, rfl⟩ := List.mem_map.mp hitem
      exact .inl (List.mem_map_of_mem hd)
    · obtain ⟨m, -, hm⟩ := mapM_mem hmetrics item hitem
      exact .inr (metricItem_isSummary hm).outer
  case having => exact fun e he => (hgroups e he).outer
  case orderBy => exact fun o ho => (order_isColumn horder o ho).imp_right fun he => he.outer

/-- Every aggregate of the query is that of a column. -/
theorem query_measures (h : r.query s plan time limit = .ok (q, ws)) :
    ∀ m ∈ q.measures, ∃ c, m.2 = .field c := by
  obtain ⟨metrics, rows, groups, orderBy, hmetrics, hconditions, horder, rfl⟩ := query_eq_ok h
  obtain ⟨hrows, hgroups⟩ := conditions_shape hconditions
  have hdimensions : ∀ e ∈ r.dimensions.map (·.expr), ∀ m ∈ e.measures, ∃ c, m.2 = .field c := by
    intro e he m hm
    obtain ⟨d, -, rfl⟩ := List.mem_map.mp he
    rw [d.expr_measures] at hm
    cases hm
  intro m hm
  obtain ⟨e, he, hm⟩ := List.mem_flatMap.mp hm
  simp only [Query.exprs, List.mem_append] at he
  rcases he with (((he | he) | he) | he) | he
  · obtain ⟨item, hitem, rfl⟩ := List.mem_map.mp he
    rcases List.mem_append.mp hitem with hitem | hitem
    · obtain ⟨d, hd, rfl⟩ := List.mem_map.mp hitem
      exact hdimensions _ (List.mem_map_of_mem hd) m hm
    · obtain ⟨m', -, hm'⟩ := mapM_mem hmetrics item hitem
      exact (metricItem_isSummary hm').measures m hm
  · have hnone : e.measures = [] := by
      rcases he with he | he
      · exact within_measures time e he
      · exact hrows e he
    rw [hnone] at hm
    cases hm
  · exact hdimensions e he m hm
  · exact (hgroups e he).measures m hm
  · obtain ⟨o, ho, rfl⟩ := List.mem_map.mp he
    rcases order_isColumn horder o ho with hcolumn | hsummary
    · exact hdimensions _ hcolumn m hm
    · exact hsummary.measures m hm

end Report

/-- The queries only differ in the values that rows are compared with. -/
structure Query.IsVariant (q q' : Query) : Prop where
  eq : q' = { q with filters := q'.filters }
  fields : q'.filters.map Expr.fields = q.filters.map Expr.fields
  aggregations : q'.filters.map Expr.aggregations = q.filters.map Expr.aggregations
  measures : q'.filters.map Expr.measures = q.filters.map Expr.measures

namespace Report

variable {r : Report} {s : Schema} {plan : JoinPlan} {limit : Nat} {ws : List TranslationWarning}

/-- Over other days the query is the same but for the days. -/
theorem query_days {c : TimeColumn} {days days' : DayRange} {q q' : Query}
    {ws' : List TranslationWarning} (h : r.query s plan (some (c, days)) limit = .ok (q, ws))
    (h' : r.query s plan (some (c, days')) limit = .ok (q', ws')) : q.IsVariant q' := by
  obtain ⟨metrics, rows, groups, orderBy, hmetrics, hconditions, horder, rfl⟩ := query_eq_ok h
  obtain ⟨metrics', rows', groups', orderBy', hmetrics', hconditions', horder', rfl⟩ :=
    query_eq_ok h'
  cases hmetrics.symm.trans hmetrics'
  cases hconditions.symm.trans hconditions'
  cases horder.symm.trans horder'
  exact ⟨rfl, rfl, rfl, rfl⟩

/-- A report is translated if it is not empty, its tables can be joined, and its queries can be made
and written. -/
theorem translate_eq_ok {s : Schema} {t : TranslationSettings} {x : Translation} :
    r.translate s t = .ok x ↔
      (r.isEmpty || r.neededColumns.isEmpty) = false ∧ ∃ plan q ws st cs cws,
        s.joinPlan t.joinRule (r.queryColumns s) = .ok plan ∧
        r.query s plan (r.timeBound? s) (t.rowLimit r.limit) = .ok (q, ws) ∧
        statement t q = .ok st ∧ r.comparisonQueries s t plan = .ok (cs, cws) ∧
        x = { query := q
              statement := st
              dialect := t.dialect
              neededTables := (r.queryColumns s).tables
              warnings :=
                (if r.timeRange.isSome && (r.timeBound? s).isNone then [.noDateColumn] else []) ++
                  t.limitWarning r.limit ++ ws ++ cws
              explanation := r.explanation plan (r.timeBound? s) (t.rowLimit r.limit)
              comparisons := cs } := by
  unfold translate
  constructor
  · intro h
    simp only at h
    split at h
    · cases h
    · next hempty =>
      obtain ⟨plan, hplan, h⟩ := bind_eq_ok h
      obtain ⟨⟨q, ws⟩, hq, h⟩ := bind_eq_ok h
      obtain ⟨st, hst, h⟩ := bind_eq_ok h
      obtain ⟨⟨cs, cws⟩, hcs, h⟩ := bind_eq_ok h
      exact ⟨by simpa using hempty, plan, q, ws, st, cs, cws, hplan, hq, hst, hcs,
        (Except.ok.inj h).symm⟩
  · rintro ⟨hempty, plan, q, ws, st, cs, cws, hplan, hq, hst, hcs, rfl⟩
    simp only [hempty, hplan]
    show (r.query s plan _ _ >>= _) = _
    rw [bind_of_ok hq]
    show (statement t q >>= _) = _
    rw [bind_of_ok hst, bind_of_ok hcs]
    rfl

/-- The query of a translation is that of the report over a plan, and those of its comparisons only
differ in the days. -/
theorem translate_queries {settings : TranslationSettings} {t : Translation}
    (h : r.translate s settings = .ok t) :
    ∃ plan ws, r.query s plan (r.timeBound? s) (settings.rowLimit r.limit) = .ok (t.query, ws) ∧
      statement settings t.query = .ok t.statement ∧ t.dialect = settings.dialect ∧
      ∀ c ∈ t.comparisons, t.query.IsVariant c.query ∧
        ∃ time ws, r.query s plan time (settings.rowLimit r.limit) = .ok (c.query, ws) ∧
          statement settings c.query = .ok c.statement := by
  obtain ⟨-, plan, q, ws, st, comparisons, cws, -, hquery, hstatement, hcomparisons, rfl⟩ :=
    translate_eq_ok.mp h
  refine ⟨plan, ws, hquery, hstatement, rfl, fun c hc => ?_⟩
  unfold comparisonQueries at hcomparisons
  split at hcomparisons
  case h_1 column days htime =>
    obtain ⟨cs, hcs, hcomparisons⟩ := bind_eq_ok hcomparisons
    cases hcomparisons
    obtain ⟨comparison, -, hc⟩ := mapM_mem hcs c hc
    obtain ⟨⟨q', ws'⟩, hq', hc⟩ := bind_eq_ok hc
    obtain ⟨st', hst', hc⟩ := bind_eq_ok hc
    cases hc
    rw [htime] at hquery
    exact ⟨query_days hquery hq', _, _, hq', hst'⟩
  case h_2 =>
    cases hcomparisons
    cases hc

end Report

end MetricLayer
