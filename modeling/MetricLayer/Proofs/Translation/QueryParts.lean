import MetricLayer.Proofs.Report.Resolved
import MetricLayer.Proofs.Translation.QueryShape

/-!
# Where the expressions of a query come from

Every expression of the query of a report is that of a dimension, that of a metric, the condition of
a filter or the condition that a time column lies within the days. `Report.Writes` lists these cases,
so what is to be shown of all expressions is shown case by case.

Results:
1. `Report.select_shows` and `Report.order_shows`: what a query selects and what its rows are ordered
   by are dimensions and metrics.
2. `Report.query_writes`: the expressions of a query are those that its report writes.
3. `Report.Writes.fields_subset`: their fields are those of the report and the time column.
4. `Report.Writes.listed`: no list of choices in them is empty.
-/

namespace MetricLayer

/-! ## Conditions -/

namespace ReportFilter

variable {f : ReportFilter} {target e : Expr}

theorem fieldsOfList_values (vs : List Literal) : Expr.fieldsOfList (vs.map .value) = [] := by
  induction vs with
  | nil => rfl
  | cons v vs ih => exact ih

theorem anyHasEmptyList_values (vs : List Literal) :
    Expr.anyHasEmptyList (vs.map .value) = false := by
  induction vs with
  | nil => rfl
  | cons v vs ih => exact ih

/-- A condition has the fields of its target. -/
theorem condition_fields (h : f.condition target = .ok e) : e.fields = target.fields := by
  obtain ⟨plain, hplain, rfl⟩ := map_eq_ok h
  have hfields : plain.fields = target.fields := by
    obtain ⟨op, v, rfl⟩ | ⟨v, rfl⟩ | ⟨negated, -, rfl⟩ | ⟨low, high, rfl⟩ | ⟨negated, rfl⟩ :=
      plainCondition_cases hplain <;> simp [Expr.fields, fieldsOfList_values]
  split
  · exact hfields
  · exact hfields

/-- A condition has no empty list of choices but those of its target. -/
theorem condition_listed (h : f.condition target = .ok e) :
    e.hasEmptyList = target.hasEmptyList := by
  obtain ⟨plain, hplain, rfl⟩ := map_eq_ok h
  have hlists : plain.hasEmptyList = target.hasEmptyList := by
    obtain ⟨op, v, rfl⟩ | ⟨v, rfl⟩ | ⟨negated, hvalues, rfl⟩ | ⟨low, high, rfl⟩ | ⟨negated, rfl⟩ :=
      plainCondition_cases hplain
    case inr.inr.inl =>
      have hne : (f.values.map Expr.value).isEmpty = false := by simpa using hvalues
      simp only [Expr.hasEmptyList, anyHasEmptyList_values, hne, Bool.false_or, Bool.or_false]
    all_goals simp [Expr.hasEmptyList]
  split
  · exact hlists
  · exact hlists

end ReportFilter

/-! ## Dimensions and metrics -/

theorem ReportDimension.expr_fields (d : ReportDimension) : d.expr.fields = [d.field] := by
  unfold expr
  split <;> rfl

namespace Report

variable {r : Report}

/-- The fields of a metric are its own one and those of the metrics of the report. -/
theorem metricExpr_fields {m : ReportMetric} {e : Expr} (h : r.metricExpr m = .ok e) :
    e.fields ⊆ m.field.toList ++ r.metrics.filterMap (·.field) := by
  refine metricExpr_induction (P := fun e => e.fields ⊆ _) ?_ ?_ ?_ ?_ h
  · exact fun x => List.nil_subset _
  · exact fun e he => he
  · intro op a b ha hb
    cases op <;> exact List.append_subset.mpr ⟨ha, hb⟩
  · rintro n (rfl | hn) c hc
    · rw [hc]
      exact List.subset_append_left _ _
    · have hmem := List.mem_filterMap.mpr ⟨n, hn, hc⟩
      exact List.cons_subset.mpr ⟨List.mem_append_right _ hmem, List.nil_subset _⟩

theorem metricExpr_listed {m : ReportMetric} {e : Expr} (h : r.metricExpr m = .ok e) :
    e.hasEmptyList = false := by
  refine metricExpr_induction (P := fun e => e.hasEmptyList = false) ?_ ?_ ?_ ?_ h
  · exact fun x => rfl
  · exact fun e he => he
  · intro op a b ha hb
    cases op <;> simp [ArithOp.expr, Expr.hasEmptyList, ha, hb]
  · exact fun n _ c _ => rfl

/-! ## What a report writes -/

/-- The expression is that of a dimension or of a metric of the report. -/
inductive Shows (r : Report) : Expr → Prop
  | dimension {d : ReportDimension} : d ∈ r.dimensions → Shows r d.expr
  | metric {m : ReportMetric} {e : Expr} : m ∈ r.metrics → r.metricExpr m = .ok e → Shows r e

/-- The expression is one that the report writes, over the days if there are any. -/
inductive Writes (r : Report) (time : Option (TimeColumn × DayRange)) : Expr → Prop
  | shown {e : Expr} : r.Shows e → Writes r time e
  | days {c : TimeColumn} {days : DayRange} : time = some (c, days) → Writes r time (c.within days)
  | row {f : ReportFilter} {c : Field} {e : Expr} : f ∈ r.filters → f.target = .column c →
      f.condition (.field c) = .ok e → Writes r time e
  | group {f : ReportFilter} {m : ReportMetric} {target e : Expr} : f ∈ r.filters →
      f.target = .metric m → r.metricExpr m = .ok target → f.condition target = .ok e →
      Writes r time e

variable {time : Option (TimeColumn × DayRange)}

theorem conditions_writes (time : Option (TimeColumn × DayRange)) {rows groups : List Expr}
    (h : r.conditions r.filters = .ok (rows, groups)) :
    (∀ e ∈ rows, r.Writes time e) ∧ ∀ e ∈ groups, r.Writes time e := by
  obtain ⟨hrows, hgroups⟩ := mem_conditions h
  constructor
  · intro e he
    obtain ⟨f, hf, c, htarget, he⟩ := hrows e he
    exact .row hf htarget he
  · intro e he
    obtain ⟨f, hf, m, target, htarget, hmetric, he⟩ := hgroups e he
    exact .group hf htarget hmetric he

theorem visible_mem {m : ReportMetric} (h : m ∈ r.visibleMetrics) : m ∈ r.metrics :=
  List.mem_of_mem_filter h

theorem defaultOrder_shows {os : List OrderItem} (h : r.defaultOrder = .ok os) :
    ∀ o ∈ os, r.Shows o.expr := by
  unfold defaultOrder at h
  split at h
  · next m _ hvisible =>
    obtain ⟨e, he, h⟩ := bind_eq_ok h
    cases h
    have hm : m ∈ r.visibleMetrics := hvisible ▸ List.mem_cons_self
    exact List.forall_mem_singleton.mpr (.metric (visible_mem hm) he)
  · cases h
    intro o ho
    obtain ⟨d, hd, rfl⟩ := List.mem_map.mp ho
    exact .dimension hd

theorem order_shows {os : List OrderItem} {ws : List TranslationWarning}
    (h : r.order = .ok (os, ws)) : ∀ o ∈ os, r.Shows o.expr := by
  unfold order at h
  split at h
  · obtain ⟨os', hos, h⟩ := bind_eq_ok h
    cases h
    exact defaultOrder_shows hos
  · obtain ⟨e?, he, h⟩ := bind_eq_ok h
    split at h
    · next e =>
      cases h
      refine List.forall_mem_singleton.mpr ?_
      unfold sortExpr? at he
      split at he
      · split at he
        · next m hm =>
          obtain ⟨e', he', heq⟩ := map_eq_ok he
          cases heq
          exact .metric (List.mem_of_find?_eq_some hm) he'
        · cases he
      · obtain ⟨d, hd, rfl⟩ := Option.map_eq_some_iff.mp (Except.ok.inj he)
        exact .dimension (List.mem_of_find?_eq_some hd)
    · obtain ⟨os', hos, h⟩ := bind_eq_ok h
      cases h
      exact defaultOrder_shows hos

theorem select_shows {metrics : List SelectItem}
    (h : r.visibleMetrics.mapM r.metricItem = .ok metrics) :
    ∀ item ∈ r.dimensions.map (fun d => (⟨d.expr, some d.name⟩ : SelectItem)) ++ metrics,
      r.Shows item.expr := by
  intro item hitem
  rcases List.mem_append.mp hitem with hitem | hitem
  · obtain ⟨d, hd, rfl⟩ := List.mem_map.mp hitem
    exact .dimension hd
  · obtain ⟨m, hm, hitem⟩ := mapM_mem h item hitem
    obtain ⟨e, hmetric, hitem⟩ := bind_eq_ok hitem
    cases hitem
    exact .metric (visible_mem hm) hmetric

/-- The expressions of a query are those that its report writes. -/
theorem query_writes {s : Schema} {plan : JoinPlan} {limit : Nat} {q : Query}
    {ws : List TranslationWarning} (h : r.query s plan time limit = .ok (q, ws)) :
    ∀ e ∈ q.exprs, r.Writes time e := by
  obtain ⟨metrics, rows, groups, orderBy, hmetrics, hconditions, horder, rfl⟩ := query_eq_ok h
  obtain ⟨hrows, hgroups⟩ := conditions_writes time hconditions
  intro e he
  simp only [Query.exprs, List.mem_append] at he
  rcases he with (((he | he) | he) | he) | he
  · obtain ⟨item, hitem, rfl⟩ := List.mem_map.mp he
    exact .shown (select_shows hmetrics item hitem)
  · rcases he with he | he
    · obtain ⟨⟨c, days⟩, htime, rfl⟩ := Option.map_eq_some_iff.mp (Option.mem_toList.mp he)
      exact .days htime
    · exact hrows e he
  · obtain ⟨d, hd, rfl⟩ := List.mem_map.mp he
    exact .shown (.dimension hd)
  · exact hgroups e he
  · obtain ⟨o, ho, rfl⟩ := List.mem_map.mp he
    exact .shown (order_shows horder o ho)

/-- The fields of what a report shows are its own ones. -/
theorem Shows.fields_subset {e : Expr} (h : r.Shows e) : e.fields ⊆ r.fields := by
  intro f hf
  cases h with
  | @dimension d hd =>
    rw [d.expr_fields, List.mem_singleton] at hf
    exact List.mem_append_left _ (List.mem_append_right _ (hf ▸ List.mem_map_of_mem hd))
  | @metric m e hm he =>
    refine List.mem_append_left _ (List.mem_append_left _ ?_)
    rcases List.mem_append.mp (metricExpr_fields he hf) with hf | hf
    · exact List.mem_filterMap.mpr ⟨m, hm, Option.mem_toList.mp hf⟩
    · exact hf

namespace Writes

/-- The fields of what a report writes are its own ones and the time column. -/
theorem fields_subset {e : Expr} (h : r.Writes time e) :
    ∀ f ∈ e.fields, f ∈ r.fields ∨ ∃ c days, time = some (c, days) ∧ f = c.field := by
  cases h with
  | shown h => exact fun f hf => .inl (h.fields_subset hf)
  | @days c days htime =>
    intro f hf
    exact .inr ⟨c, days, htime, by simpa [TimeColumn.within, Expr.fields] using hf⟩
  | @row f c e hf htarget he =>
    intro g hg
    rw [ReportFilter.condition_fields he, Expr.fields, List.mem_singleton] at hg
    refine .inl (List.mem_append_right _ (List.mem_filterMap.mpr ⟨f, hf, ?_⟩))
    rw [htarget, hg]
  | @group f m target e hf htarget hmetric he =>
    intro g hg
    rw [ReportFilter.condition_fields he] at hg
    rcases List.mem_append.mp (metricExpr_fields hmetric hg) with hg | hg
    · refine .inl (List.mem_append_right _ (List.mem_filterMap.mpr ⟨f, hf, ?_⟩))
      rw [htarget]
      exact Option.mem_toList.mp hg
    · exact .inl (List.mem_append_left _ (List.mem_append_left _ hg))

/-- No list of choices in what a report writes is empty. -/
theorem listed {e : Expr} (h : r.Writes time e) : e.hasEmptyList = false := by
  cases h with
  | shown h =>
    cases h with
    | @dimension d _ =>
      unfold ReportDimension.expr
      split <;> rfl
    | metric _ he => exact metricExpr_listed he
  | days _ => rfl
  | row _ _ he => exact ReportFilter.condition_listed he
  | group _ _ hmetric he =>
    rw [ReportFilter.condition_listed he]
    exact metricExpr_listed hmetric

end Writes

end Report

end MetricLayer
