import MetricLayer.Proofs.Report.Raised

/-!
# What is shown

Nothing that a stage of the mapping shows is hidden or taken away by a later one. So a mention that
means an entry of a valid dictionary puts the entry into the report, whatever else the request
mentions and whichever conflicts are open.

Results:
1. `metric_shown`: a metric that a mention means is in the report and shown.
2. `dimension_shown`: a dimension that a mention means is in the report.
-/

namespace MetricLayer

namespace Mapping

open Draft

variable {ctx : Context}

/-- The metric is shown. -/
def Context.Shows (ctx : Context) (d : Draft) (name : String) : Prop :=
  ∃ a, ctx.standing d name = some (a, true)

theorem Context.Shows.mem {d : Draft} {name : String} (h : ctx.Shows d name) :
    ∃ m ∈ d.metrics, m.name = name ∧ m.hidden = false := by
  obtain ⟨a, ha⟩ := h
  unfold Context.standing at ha
  split at ha
  · next m hm =>
    refine ⟨m, List.mem_of_find?_eq_some hm, metric?_name hm, ?_⟩
    simpa using (Prod.mk.inj (Option.some.inj ha)).2
  · obtain ⟨e, -, he⟩ := Option.map_eq_some_iff.mp ha
    cases he

namespace Draft

/-- What is shown stays so. -/
structure Persists (ctx : Context) (d d' : Draft) : Prop where
  shows : ∀ name, ctx.Shows d name → ctx.Shows d' name
  dimensions : d.dimensionNames ⊆ d'.dimensionNames

namespace Persists

variable {a b d d' : Draft}

theorem same (hmetrics : d'.metrics = d.metrics) (hdimensions : d'.dimensions = d.dimensions) :
    Persists ctx d d' where
  shows name h := by
    obtain ⟨a, ha⟩ := h
    refine ⟨a, ?_⟩
    rw [Context.standing, Draft.metric?] at ha ⊢
    rw [hmetrics]
    exact ha
  dimensions := by
    rw [dimensionNames, dimensionNames, hdimensions]
    exact List.Subset.refl _

theorem refl (d : Draft) : Persists ctx d d := .same rfl rfl

theorem trans (h : Persists ctx a b) (h' : Persists ctx b d) : Persists ctx a d :=
  ⟨fun name hname => h'.shows name (h.shows name hname), List.Subset.trans h.dimensions h'.dimensions⟩

theorem raise (d : Draft) (c : Conflict) : Persists ctx d (d.raise c) := .same rfl rfl

theorem foldl {α : Type} {f : Draft → α → Draft} (hf : ∀ d x, Persists ctx d (f d x))
    (xs : List α) (d : Draft) : Persists ctx d (xs.foldl f d) :=
  List.foldlRecOn xs f (motive := Persists ctx d) (.refl d) fun d' hd' x _ => hd'.trans (hf d' x)

end Persists

end Draft

/-! ## Entries -/

theorem includeMetric_persists (hvalid : ctx.IsValid) {name : String}
    (hentry : ctx.HasEntry .metric name) (term : String) (aggregation : Option Aggregation)
    (d : Draft) : Persists ctx d (ctx.includeMetric name term aggregation false d) := by
  obtain ⟨e, he, rfl, -⟩ := hasEntry_metric hentry
  constructor
  case shows =>
    rintro n ⟨a, ha⟩
    rw [Context.Shows, Context.includeMetric,
      addMetric_standing_shown _ he (hvalid.hasField he) term aggregation d n, ha]
    split <;> exact ⟨_, rfl⟩
  case dimensions =>
    rw [dimensionNames, dimensionNames, Context.includeMetric, addMetric_dimensions]
    exact List.Subset.refl _

theorem includeHidden_persists {name : String} (hentry : ctx.HasEntry .metric name) (term : String)
    (d : Draft) : Persists ctx d (ctx.includeMetric name term none true d) := by
  obtain ⟨e, he, rfl, -⟩ := hasEntry_metric hentry
  constructor
  case shows =>
    rintro n ⟨a, ha⟩
    exact ⟨a, (addMetric_standing_hidden _ he term d n).trans ha⟩
  case dimensions =>
    rw [dimensionNames, dimensionNames, Context.includeMetric, addMetric_dimensions]
    exact List.Subset.refl _

/-- A metric that is mentioned is shown. -/
theorem includeMetric_shows (hvalid : ctx.IsValid) {name : String}
    (hentry : ctx.HasEntry .metric name) (term : String) (aggregation : Option Aggregation)
    (d : Draft) : ctx.Shows (ctx.includeMetric name term aggregation false d) name := by
  obtain ⟨e, he, rfl, hfind⟩ := hasEntry_metric hentry
  have hstanding : ∃ s, ctx.standing d e.definition.name = some s := by
    unfold Context.standing
    split
    · exact ⟨_, rfl⟩
    · rw [hfind]
      exact ⟨_, rfl⟩
  obtain ⟨s, hs⟩ := hstanding
  rw [Context.Shows, Context.includeMetric,
    addMetric_standing_shown _ he (hvalid.hasField he) term aggregation d, if_pos rfl, hs]
  exact ⟨_, rfl⟩

theorem includeDimension_persists (name term : String) (d : Draft) :
    Persists ctx d (ctx.includeDimension name term d) := by
  unfold Context.includeDimension
  split
  · exact .raise d _
  · simp only
    split
    · exact .refl d
    · split
      · refine ⟨fun n hn => hn, ?_⟩
        rw [dimensionNames, dimensionNames, List.map_append]
        exact List.subset_append_left _ _
      · exact .raise d _

theorem includeDimension_mem (hvalid : ctx.IsValid) {name : String}
    (hentry : ctx.HasEntry .dimension name) (term : String) (d : Draft) :
    name ∈ (ctx.includeDimension name term d).dimensionNames := by
  obtain ⟨e, hmem, rfl, he⟩ := hasEntry_dimension (by decide) hentry
  obtain ⟨field, hfield⟩ := Option.isSome_iff_exists.mp (hvalid.hasColumn hmem)
  unfold Context.includeDimension
  simp only [he, hfield]
  split
  · next hthere =>
    obtain ⟨x, hx, hname⟩ := List.any_eq_true.mp hthere
    exact List.mem_map.mpr ⟨x, hx, by simpa using hname⟩
  · simp [dimensionNames]

/-! ## Mentions -/

theorem addMetricMention_persists (hvalid : ctx.IsValid) (d : Draft) (m : MetricMention) :
    Persists ctx d (ctx.addMetricMention d m) := by
  unfold Context.addMetricMention
  cases hresolve : ctx.resolve .metric .metric m.name m.confidence m.pinned with
  | error c => exact .raise d c
  | ok name => exact includeMetric_persists hvalid (resolve_entry hresolve) m.name m.aggregation d

theorem addDimensionMention_persists (d : Draft) (x : DimensionMention) :
    Persists ctx d (ctx.addDimensionMention d x) := by
  unfold Context.addDimensionMention
  split
  · exact includeDimension_persists _ x.name d
  · exact .raise d _

theorem filterTarget_persists {kind : EntityKind} {name : String} (hentry : ctx.HasEntry kind name)
    (f : FilterMention) (d : Draft) : Persists ctx d (ctx.filterTarget f kind name d).1 := by
  by_cases hkind : kind = .metric
  · subst hkind
    exact includeHidden_persists hentry f.field d
  · obtain ⟨e, -, -, he⟩ := hasEntry_dimension hkind hentry
    rw [filterTarget_column hkind he]
    split
    · exact .refl d
    · exact .raise d _

theorem mapFilter_persists (f : FilterMention) (d : Draft) :
    Persists ctx d (ctx.mapFilter f d).1 := by
  cases hresolve : ctx.resolveField .filter .dimension f.field f.confidence f.pinned with
  | error c =>
    rw [Context.mapFilter, hresolve]
    exact .raise d c
  | ok entry =>
    obtain ⟨kind, name⟩ := entry
    have hwarn : Persists ctx d (Context.warnOperator f d) := by
      unfold Context.warnOperator
      split <;> exact .same rfl rfl
    have htarget := hwarn.trans
      (filterTarget_persists (resolveField_entry hresolve) f (Context.warnOperator f d))
    obtain ⟨cs, hcs⟩ := mapFilter_draft hresolve d
    rw [hcs]
    exact htarget.trans (.foldl (fun d c => .raise d c) cs _)

theorem mapFilters_persists (fs : List FilterMention) (d : Draft) :
    Persists ctx d (ctx.mapFilters fs d).1 := by
  induction fs generalizing d with
  | nil => exact .refl d
  | cons f fs ih =>
    rw [mapFilters_cons]
    exact (mapFilter_persists f d).trans (ih _)

theorem mapSort_persists (hvalid : ctx.IsValid) (s : SortMention) (d : Draft) :
    Persists ctx d (ctx.mapSort s d).1 := by
  unfold Context.mapSort
  cases hresolve : ctx.resolveField .sort .metric s.field 1 none with
  | error c => exact .raise d c
  | ok entry =>
    obtain ⟨kind, name⟩ := entry
    cases kind
    case metric =>
      exact includeMetric_persists hvalid (resolveField_entry hresolve) s.field none d
    all_goals exact includeDimension_persists name s.field d

/-! ## The whole request -/

/-- What is shown with the dimensions is shown at the end. -/
theorem dimensionsDraft_persists (hvalid : ctx.IsValid) (r : Request) :
    Persists ctx (ctx.dimensionsDraft r) (ctx.finalDraft r) := by
  have hcompared : Persists ctx (ctx.dimensionsDraft r) (ctx.comparedDraft r) :=
    (mapFilters_persists r.filters _).trans (.foldl (fun d c => .raise d c) _ _)
  have hsorted : Persists ctx (ctx.comparedDraft r) (ctx.sortedDraft r).1 := by
    unfold Context.sortedDraft
    split
    · exact mapSort_persists hvalid _ _
    · exact .refl _
  refine (hcompared.trans hsorted).trans ?_
  unfold Context.finalDraft
  split
  · exact .raise _ _
  · exact .refl _

/-- A metric that a mention means is in the report and shown. -/
theorem metric_shown (hvalid : ctx.IsValid) {r : Request} {m : MetricMention} (hm : m ∈ r.metrics)
    {name : String}
    (hresolve : ctx.resolve .metric .metric m.name m.confidence m.pinned = .ok name) :
    ∃ x ∈ (ctx.map r).report.metrics, x.name = name ∧ x.hidden = false := by
  obtain ⟨before, after, hsplit⟩ := List.append_of_mem hm
  have hshown : ctx.Shows (ctx.metricsDraft r) name := by
    rw [Context.metricsDraft, hsplit, List.foldl_append, List.foldl_cons]
    refine (Persists.foldl (addMetricMention_persists hvalid) after _).shows name ?_
    rw [Context.addMetricMention, hresolve]
    exact includeMetric_shows hvalid (resolve_entry hresolve) m.name m.aggregation _
  have hdimensions : Persists ctx (ctx.metricsDraft r) (ctx.dimensionsDraft r) :=
    .foldl addDimensionMention_persists r.dimensions _
  have hfinal := hdimensions.trans (dimensionsDraft_persists hvalid r)
  obtain ⟨x, hx, hname, hhidden⟩ := (hfinal.shows name hshown).mem
  refine ⟨x, ?_, hname, hhidden⟩
  rw [ctx.map_eq]
  exact List.mem_mergeSort.mpr hx

/-- A dimension that a mention means is in the report. -/
theorem dimension_shown (hvalid : ctx.IsValid) {r : Request} {x : DimensionMention}
    (hx : x ∈ r.dimensions) {name : String}
    (hresolve : ctx.resolve .dimension .dimension x.name x.confidence x.pinned = .ok name) :
    ∃ y ∈ (ctx.map r).report.dimensions, y.name = name := by
  obtain ⟨before, after, hsplit⟩ := List.append_of_mem hx
  have hthere : name ∈ (ctx.dimensionsDraft r).dimensionNames := by
    rw [Context.dimensionsDraft, hsplit, List.foldl_append, List.foldl_cons]
    refine (Persists.foldl addDimensionMention_persists after _).dimensions ?_
    rw [Context.addDimensionMention, hresolve]
    exact includeDimension_mem hvalid (resolve_entry hresolve) x.name _
  obtain ⟨y, hy, hname⟩ := List.mem_map.mp ((dimensionsDraft_persists hvalid r).dimensions hthere)
  refine ⟨y, ?_, hname⟩
  rw [ctx.map_eq]
  exact List.mem_mergeSort.mpr hy

end Mapping

end MetricLayer
