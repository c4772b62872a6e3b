import MetricLayer.Proofs.Report.Conditions

/-!
# Targets that are told apart

The filters of a request are told apart by texts: that of a column, or the name of a metric. Columns
are told by their texts, and in one request there is one metric of a name, however often it is
looked at. A column and a metric are told apart unless the metric has the text of the column for its
name.

Results:
1. `addMetric_hidden_grows`: what a metric is calculated from is put behind the other metrics.
2. `filtersDraft_metric?`: a metric that a filter looks at is the one of the request.
3. `filtersDraft_target_eq`: filters of one text have one target, where targets are apart.
-/

namespace MetricLayer

namespace Mapping

open Draft

variable {ctx : Context}

/-! ## Metrics that filters look at -/

/-- A hidden metric is put behind the others, with those that it is calculated from. -/
theorem addMetric_hidden_grows (fuel : Nat) (name term : String)
    (aggregation : Option Aggregation) (d : Draft) :
    d.metrics <+: (ctx.addMetric fuel name term aggregation true d).metrics := by
  induction fuel generalizing name term aggregation d with
  | zero => exact List.prefix_rfl
  | succ fuel ih =>
    unfold Context.addMetric
    split
    · exact List.prefix_rfl
    · simp only
      split
      · exact List.prefix_rfl
      · split
        · exact List.prefix_rfl
        · refine List.foldlRecOn (motive := fun d' : Draft => d.metrics <+: d'.metrics) _ _
            (List.prefix_append _ _) fun d' hd' r _ => ?_
          split
          · exact hd'.trans (ih r r none d')
          · exact hd'

theorem filterTarget_grows (f : FilterMention) (kind : EntityKind) (name : String) (d : Draft) :
    d.metrics <+: (ctx.filterTarget f kind name d).1.metrics := by
  unfold Context.filterTarget
  split
  · exact addMetric_hidden_grows _ _ _ _ _
  · split
    · exact List.prefix_rfl
    · split <;> exact List.prefix_rfl

theorem foldl_raise_metrics (cs : List Conflict) (d : Draft) :
    (cs.foldl Draft.raise d).metrics = d.metrics :=
  List.foldlRecOn (motive := fun d' : Draft => d'.metrics = d.metrics) cs _ rfl
    fun _ hd' _ _ => hd'

theorem mapFilter_grows (f : FilterMention) (d : Draft) :
    d.metrics <+: (ctx.mapFilter f d).1.metrics := by
  cases hresolve : ctx.resolveField .filter .dimension f.field f.confidence f.pinned with
  | error c =>
    rw [Context.mapFilter, hresolve]
    exact List.prefix_rfl
  | ok entry =>
    obtain ⟨kind, name⟩ := entry
    have hwarn : (Context.warnOperator f d).metrics = d.metrics := by
      unfold Context.warnOperator
      split <;> rfl
    obtain ⟨cs, hcs⟩ := mapFilter_draft hresolve d
    rw [hcs, foldl_raise_metrics, ← hwarn]
    exact filterTarget_grows f kind name _

theorem mapFilters_grows (fs : List FilterMention) (d : Draft) :
    d.metrics <+: (ctx.mapFilters fs d).1.metrics := by
  induction fs generalizing d with
  | nil => exact List.prefix_rfl
  | cons f fs ih =>
    rw [mapFilters_cons]
    exact (mapFilter_grows f d).trans (ih _)

/-- A metric that a filter looks at is that of the draft. -/
theorem mapFilter_metric? {f : FilterMention} {d : Draft} {x : ReportFilter}
    (hx : (ctx.mapFilter f d).2 = some x) {m : ReportMetric} (hm : x.target = .metric m) :
    (ctx.mapFilter f d).1.metric? m.name = some m := by
  obtain ⟨kind, name, target, type, -, hfound, rfl⟩ := mapFilter_mapped hx
  obtain ⟨m', rfl, hm', rfl, -⟩ | ⟨e, c, -, -, -, rfl, -⟩ :=
    filterTarget_found (congrArg Prod.snd hfound)
  · cases hm
    rw [hfound] at hm'
    rwa [metric?_name hm']
  · cases hm

theorem mapFilters_metric? (fs : List FilterMention) (d : Draft) {x : FilterMention × ReportFilter}
    (hx : x ∈ (ctx.mapFilters fs d).2) {m : ReportMetric} (hm : x.2.target = .metric m) :
    (ctx.mapFilters fs d).1.metric? m.name = some m := by
  induction fs generalizing d with
  | nil => cases hx
  | cons f fs ih =>
    rw [mapFilters_cons] at hx ⊢
    rcases List.mem_append.mp hx with hx | hx
    · obtain ⟨y, hy, rfl⟩ := Option.map_eq_some_iff.mp (Option.mem_toList.mp hx)
      exact (mapFilters_grows fs _).find?_eq_some (mapFilter_metric? hy hm)
    · exact ih _ hx

/-- A metric that a filter of a request looks at is the one that the request has of the name. -/
theorem filtersDraft_metric? {r : Request} {x : FilterMention × ReportFilter}
    (hx : x ∈ (ctx.filtersDraft r).2) {m : ReportMetric} (hm : x.2.target = .metric m) :
    (ctx.filtersDraft r).1.metric? m.name = some m :=
  mapFilters_metric? r.filters _ hx hm

/-! ## Texts of targets -/

namespace Context

/-- A filter can mean the entry. -/
def Filterable (ctx : Context) (kind : EntityKind) (name : String) : Prop :=
  ∃ f : FilterMention,
    ctx.resolveField .filter .dimension f.field f.confidence f.pinned = .ok (kind, name)

/-- No metric that a filter can look at is named like the column of a dimension that a filter can
mean. -/
def TargetsApart (ctx : Context) : Prop :=
  ∀ metric dimension, ctx.Filterable .metric metric → ctx.IsKnown metric →
    ctx.Filterable .dimension dimension → ctx.targetKey? .dimension dimension ≠ some metric

end Context

theorem filterable_dimension {kind : EntityKind} (hkind : kind ≠ .metric) {name : String}
    (h : ctx.HasEntry kind name) : kind = .dimension := by
  cases kind
  case metric => exact absurd rfl hkind
  case dimension => rfl
  all_goals cases h

/-- A filter looks at the column of a dimension, or at a metric, that it can mean. -/
theorem mapFilter_filterable {f : FilterMention} {d : Draft} (h : d.Sound ctx) {x : ReportFilter}
    (hx : (ctx.mapFilter f d).2 = some x) :
    (∃ c name, x.target = .column c ∧ ctx.Filterable .dimension name ∧
      ctx.targetKey? .dimension name = some x.targetKey) ∨
      ∃ m, x.target = .metric m ∧ ctx.Filterable .metric m.name ∧ ctx.IsKnown m.name := by
  have hmetric := fun m => mapFilter_metric? (m := m) hx
  have hsound := (mapFilter_spec h f).1.sound
  obtain ⟨kind, name, target, type, hresolve, hfound, rfl⟩ := mapFilter_mapped hx
  have hkey := filterTarget_key f (congrArg Prod.snd hfound)
  obtain ⟨m, rfl, hm, rfl, -⟩ | ⟨e, c, hkind, -, -, rfl, -⟩ :=
    filterTarget_found (congrArg Prod.snd hfound)
  · refine .inr ⟨m, rfl, ⟨f, ?_⟩, hsound.isKnown ?_⟩
    · rw [hresolve, metric?_name hm]
    · exact List.mem_map_of_mem (List.mem_of_find?_eq_some (hmetric m rfl))
  · obtain rfl := filterable_dimension hkind (resolveField_entry hresolve)
    exact .inl ⟨c, name, rfl, ⟨f, hresolve⟩, hkey⟩

/-- A filter of a request is mapped on some draft. -/
theorem mem_mapFilters {fs : List FilterMention} {d : Draft} (h : d.Sound ctx)
    {x : FilterMention × ReportFilter} (hx : x ∈ (ctx.mapFilters fs d).2) :
    ∃ d', d'.Sound ctx ∧ (ctx.mapFilter x.1 d').2 = some x.2 := by
  induction fs generalizing d with
  | nil => cases hx
  | cons f fs ih =>
    rw [mapFilters_cons] at hx
    rcases List.mem_append.mp hx with hx | hx
    · obtain ⟨y, hy, rfl⟩ := Option.map_eq_some_iff.mp (Option.mem_toList.mp hx)
      exact ⟨d, h, hy⟩
    · exact ih (mapFilter_spec h f).1.sound hx

theorem filtersDraft_filterable {r : Request} {x : FilterMention × ReportFilter}
    (hx : x ∈ (ctx.filtersDraft r).2) :
    (∃ c name, x.2.target = .column c ∧ ctx.Filterable .dimension name ∧
      ctx.targetKey? .dimension name = some x.2.targetKey) ∨
      ∃ m, x.2.target = .metric m ∧ ctx.Filterable .metric m.name ∧ ctx.IsKnown m.name := by
  obtain ⟨d, hd, hmapped⟩ := mem_mapFilters (dimensionsDraft_step ctx r).sound hx
  exact mapFilter_filterable hd hmapped

/-- Where targets are apart, the filters of a request that have one text look at one target. -/
theorem filtersDraft_target_eq (plain : ctx.dictionary.definition.Plain) (h : ctx.TargetsApart)
    {r : Request} {x y : FilterMention × ReportFilter} (hx : x ∈ (ctx.filtersDraft r).2)
    (hy : y ∈ (ctx.filtersDraft r).2) (hkey : x.2.targetKey = y.2.targetKey) :
    x.2.target = y.2.target := by
  have his := (finalDraft_spec ctx r).2
  have hmixed {x y : FilterMention × ReportFilter} {dimension : String} {m : ReportMetric}
      (hdimension : ctx.Filterable .dimension dimension)
      (htext : ctx.targetKey? .dimension dimension = some x.2.targetKey)
      (hm : y.2.target = .metric m) (hmetric : ctx.Filterable .metric m.name)
      (hknown : ctx.IsKnown m.name) : x.2.targetKey ≠ y.2.targetKey := by
    intro hkey
    refine h m.name dimension hmetric hknown hdimension (htext.trans ?_)
    rw [hkey, ReportFilter.targetKey, hm]
  rcases filtersDraft_filterable hx with ⟨c, name, hc, hname, htext⟩ | ⟨m, hm, hmetric, hknown⟩ <;>
    rcases filtersDraft_filterable hy with
      ⟨c', name', hc', hname', htext'⟩ | ⟨m', hm', hmetric', hknown'⟩
  · have haggregation : x.2.aggregation? = y.2.aggregation? := by
      rw [ReportFilter.aggregation?, ReportFilter.aggregation?, hc, hc']
    have hsame := (target_unphrased_eq plain (his x hx) (his y hy) hkey haggregation).1
    rw [hc, hc'] at hsame ⊢
    exact hsame
  · exact absurd hkey (hmixed hname htext hm' hmetric' hknown')
  · exact absurd hkey.symm (hmixed hname' htext' hm hmetric hknown)
  · have hnames : m.name = m'.name := by
      rwa [ReportFilter.targetKey, ReportFilter.targetKey, hm, hm'] at hkey
    have hsame := (filtersDraft_metric? hx hm).symm.trans
      (hnames ▸ filtersDraft_metric? hy hm')
    rw [hm, hm', Option.some.inj hsame]

/-- The type of a target is told by the target. -/
theorem Context.IsTarget.type_eq {type type' : DataType} {target : FilterTarget}
    (h : ctx.IsTarget type target) (h' : ctx.IsTarget type' target) : type = type' := by
  cases target with
  | column c => exact h.2.trans h'.2.symm
  | metric m => exact h.2.trans h'.2.symm

end Mapping

end MetricLayer
