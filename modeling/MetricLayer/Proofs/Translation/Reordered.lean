import MetricLayer.Proofs.Report.Clear
import MetricLayer.Proofs.Report.FilterOrder
import MetricLayer.Proofs.Translation.FilterOrder
import MetricLayer.Proofs.Translation.Resolved

/-!
# Requests in another order

Metrics are added in the order in which they are mentioned: they are shown, hidden or given an
aggregation on the way, and filters take what they look at from the draft as it is then. The report
does not depend on that order. What is there and where it stands is told by the effect of the
request, which hardly depends on the order; and a filter is told by its mention and by where the
metric that it looks at stands. Only mentions of one metric have to keep their order, since the last
aggregation counts.

Results:
1. `Reorders.effect_metrics` and the like: requests that differ in their order have one effect.
2. `Reorders.filters_perm`: their filters are the same, phrases aside.
3. `Reorders.clear`: the one leaves no conflict open if the other does not.
4. `map_reordered`: their translations are the same.
-/

namespace MetricLayer

namespace Mapping

open Draft

variable {ctx : Context}

/-! ## Requests -/

/-- The metric that a mention means. -/
def Context.meaning? (ctx : Context) (m : MetricMention) : Option String :=
  (ctx.resolve .metric .metric m.name m.confidence m.pinned).toOption

/-- The requests ask for the same in another order. Mentions of one metric keep their order; there is
a sort, without which the order of the metrics decides about it; and no conflicts were reported. -/
structure Context.Reorders (ctx : Context) (r r' : Request) : Prop where
  metrics : r.metrics.Perm r'.metrics
  mentions : ∀ name, r.metrics.filter (ctx.meaning? · = some name) =
    r'.metrics.filter (ctx.meaning? · = some name)
  dimensions : r.dimensions.Perm r'.dimensions
  filters : r.filters.Perm r'.filters
  sortBy : r'.sortBy = r.sortBy
  explicit : r.sortBy.isSome = true
  limit : r'.limit = r.limit
  timeRange : r'.timeRange = r.timeRange
  comparisons : r'.comparisons = r.comparisons
  reported : r.conflicts = []
  reported' : r'.conflicts = []

/-! ## Effects -/

theorem mentionsOf_flat_nil {es : List Effect} (h : ∀ e ∈ es, e.mentions = []) (name : String) :
    (Effect.flat es).mentionsOf name = [] := by
  have hnil : (Effect.flat es).mentions = [] := List.flatMap_eq_nil_iff.mpr h
  rw [Effect.mentionsOf, hnil]
  rfl

/-- The aggregations that are named for a metric are those of the mentions that mean it. -/
theorem mentionsOf_metrics (ms : List MetricMention) (name : String) :
    (Effect.flat (ms.map ctx.metricEffect)).mentionsOf name =
      (ms.filter (ctx.meaning? · = some name)).map (·.aggregation) := by
  induction ms with
  | nil => rfl
  | cons m ms ih =>
    rw [List.map_cons, Effect.flat_cons, Effect.mentionsOf_append, ih, List.filter_cons]
    unfold Context.metricEffect Context.meaning?
    cases ctx.resolve .metric .metric m.name m.confidence m.pinned with
    | error c => simp [Effect.mentionsOf, Except.toOption]
    | ok found =>
      by_cases hfound : found = name <;> simp [Effect.mentionsOf, Except.toOption, hfound]

theorem mentionsOf_shown (r : Request) (name : String) : (ctx.shownEffect r).mentionsOf name =
    (r.metrics.filter (ctx.meaning? · = some name)).map (·.aggregation) := by
  have hdimensions : ∀ e ∈ r.dimensions.map ctx.dimensionEffect, e.mentions = [] := by
    intro e he
    obtain ⟨x, -, rfl⟩ := List.mem_map.mp he
    unfold Context.dimensionEffect
    split <;> rfl
  rw [Context.shownEffect, Effect.mentionsOf_append, mentionsOf_metrics,
    mentionsOf_flat_nil hdimensions, List.append_nil]

theorem filterEffect_mentions (f : FilterMention) : (ctx.filterEffect f).mentions = [] := by
  unfold Context.filterEffect
  split
  · unfold Context.targetEffect
    split <;> rfl
  · rfl

theorem mentionsOf_filters (fs : List FilterMention) (name : String) :
    (Effect.flat (fs.map ctx.filterEffect)).mentionsOf name = [] := by
  refine mentionsOf_flat_nil (fun e he => ?_) name
  obtain ⟨f, -, rfl⟩ := List.mem_map.mp he
  exact filterEffect_mentions f

namespace Context.Reorders

variable {r r' : Request}

theorem symm (h : ctx.Reorders r r') : ctx.Reorders r' r where
  metrics := h.metrics.symm
  mentions name := (h.mentions name).symm
  dimensions := h.dimensions.symm
  filters := h.filters.symm
  sortBy := h.sortBy.symm
  explicit := h.sortBy ▸ h.explicit
  limit := h.limit.symm
  timeRange := h.timeRange.symm
  comparisons := h.comparisons.symm
  reported := h.reported'
  reported' := h.reported

theorem shown_mentionsOf (h : ctx.Reorders r r') (name : String) :
    (ctx.shownEffect r').mentionsOf name = (ctx.shownEffect r).mentionsOf name := by
  rw [mentionsOf_shown, mentionsOf_shown, h.mentions]

theorem effect_mentionsOf (h : ctx.Reorders r r') (name : String) :
    (ctx.effect r').mentionsOf name = (ctx.effect r).mentionsOf name := by
  unfold Context.effect
  simp only [Effect.mentionsOf_append, h.shown_mentionsOf, mentionsOf_filters, h.sortBy]

/-- The dimensions of the effects are the same. -/
theorem effect_dimensions (h : ctx.Reorders r r') (name : String) :
    name ∈ (ctx.effect r').dimensions ↔ name ∈ (ctx.effect r).dimensions := by
  have happend : ∀ a b : Effect, (a ++ b).dimensions = a.dimensions ++ b.dimensions :=
    fun _ _ => rfl
  simp only [Context.effect, Context.shownEffect, happend, Effect.flat, List.mem_append,
    List.mem_flatMap, (h.metrics.map ctx.metricEffect).mem_iff,
    (h.dimensions.map ctx.dimensionEffect).mem_iff, (h.filters.map ctx.filterEffect).mem_iff,
    h.sortBy]

theorem fits (h : ctx.Reorders r r') (hr : ctx.Fits r) : ctx.Fits r' where
  reported := h.reported'
  metrics m hm := hr.metrics m (h.metrics.mem_iff.mpr hm)
  dimensions x hx := hr.dimensions x (h.dimensions.mem_iff.mpr hx)
  filters f hf := hr.filters f (h.filters.mem_iff.mpr hf)
  sort s hs := hr.sort s (h.sortBy ▸ hs)

end Context.Reorders

/-! ## Filters -/

/-- What the mention of a filter becomes where the metrics have the aggregations. -/
inductive Context.Becomes (ctx : Context) (aggregations : String → Option Aggregation)
    (f : FilterMention) : ReportFilter → Prop
  | column {kind : EntityKind} {name : String} {e : DimensionEntry} {c : Field} :
      kind ≠ .metric →
      ctx.resolveField .filter .dimension f.field f.confidence f.pinned = .ok (kind, name) →
      ctx.dictionary.dimension? name = some e →
      ctx.schema.canonical? e.definition.field = some c →
        Becomes ctx aggregations f (filterOf f (.column c) (ctx.columnType c))
  | metric {m : ReportMetric} :
      ctx.resolveField .filter .dimension f.field f.confidence f.pinned = .ok (.metric, m.name) →
      ctx.IsMetric m → aggregations m.name = some m.aggregation →
        Becomes ctx aggregations f (filterOf f (.metric m) m.type)

/-- A mention becomes one filter, its phrases aside. -/
theorem Context.Becomes.unphrased_eq {aggregations : String → Option Aggregation}
    {f : FilterMention} {x y : ReportFilter} (hx : ctx.Becomes aggregations f x)
    (hy : ctx.Becomes aggregations f y) : x.unphrased = y.unphrased := by
  cases hx with
  | column hkind hresolve he hc =>
    cases hy with
    | column _ hresolve' he' hc' =>
      cases hresolve.symm.trans hresolve'
      obtain rfl := Option.some.inj (he.symm.trans he')
      rw [Option.some.inj (hc.symm.trans hc')]
    | metric hresolve' =>
      cases hresolve.symm.trans hresolve'
      exact absurd rfl hkind
  | @metric m hresolve hm haggregation =>
    cases hy with
    | column hkind hresolve' =>
      cases hresolve.symm.trans hresolve'
      exact absurd rfl hkind
    | @metric m' hresolve' hm' haggregation' =>
      have hname : m.name = m'.name := by
        simpa using hresolve.symm.trans hresolve'
      rw [← hname] at haggregation'
      obtain ⟨hformula, htype, hfield⟩ := hm.of_name hm' hname
      simp only [filterOf, ReportFilter.unphrased, FilterTarget.unphrased, hname, hformula, htype,
        hfield, Option.some.inj (haggregation.symm.trans haggregation')]

/-- The aggregations that the metrics have in the draft. -/
def Context.aggregations (ctx : Context) (d : Draft) (name : String) : Option Aggregation :=
  (ctx.standing d name).map (·.1)

theorem mapFilter_becomes {d : Draft} (h : d.Sound ctx) (hclosed : d.ClosedBut [])
    {f : FilterMention} (hnil : (ctx.mapFilter f d).1.conflicts = []) {x : ReportFilter}
    (hx : (ctx.mapFilter f d).2 = some x) : ctx.Becomes (ctx.aggregations d) f x := by
  obtain ⟨kind, name, target, type, hmaps⟩ := mapFilter_cases h hnil
  obtain rfl := Option.some.inj (hmaps.filter.symm.trans hx)
  have hfound := hmaps.found
  obtain ⟨m, rfl, hm, rfl, rfl⟩ | ⟨e, c, hkind, he, hc, rfl, rfl⟩ :=
    filterTarget_found (congrArg Prod.snd hfound)
  · rw [hfound] at hm
    obtain rfl := metric?_name hm
    refine .metric hmaps.resolved ?_ ?_
    · exact (mapFilter_spec h f).1.sound.metrics m (List.mem_of_find?_eq_some hm)
    · -- the filter has left the metric where it stood
      have hstanding := (mapFilter_does h hclosed f).standing hnil m.name
      rw [Effect.mentionsOf, filterEffect_mentions] at hstanding
      rw [Context.aggregations, ← show ctx.standing _ m.name = ctx.standing d m.name from hstanding,
        Context.standing, hm]
      rfl
  · exact .column hkind hmaps.resolved he hc

/-- Every filter is what its mention becomes, with the aggregations that the metrics have before the
filters. -/
theorem mapFilters_becomes (fs : List FilterMention) {d : Draft} (h : d.Sound ctx)
    (hclosed : d.ClosedBut []) (hnil : (ctx.mapFilters fs d).1.conflicts = []) :
    ∀ x ∈ (ctx.mapFilters fs d).2, ctx.Becomes (ctx.aggregations d) x.1 x.2 := by
  induction fs generalizing d with
  | nil => simp [Context.mapFilters]
  | cons f fs ih =>
    rw [mapFilters_cons] at hnil ⊢
    have hstep := (mapFilter_spec h f).1
    have hnil' := (mapFilters_spec fs hstep.sound).1.grows.conflicts hnil
    have hsame : ctx.aggregations (ctx.mapFilter f d).1 = ctx.aggregations d := by
      funext name
      have hstanding := (mapFilter_does h hclosed f).standing hnil' name
      rw [Effect.mentionsOf, filterEffect_mentions] at hstanding
      exact congrArg (Option.map (·.1)) hstanding
    intro x hx
    rcases List.mem_append.mp hx with hx | hx
    · obtain ⟨y, hy, rfl⟩ := Option.map_eq_some_iff.mp (Option.mem_toList.mp hx)
      exact mapFilter_becomes h hclosed hnil' hy
    · exact hsame ▸ ih hstep.sound (hstep.closed [] hclosed) hnil x hx

/-- The mapped filters of a request are what their mentions become. -/
theorem filtersDraft_becomes {r : Request} (hnil : (ctx.filtersDraft r).1.conflicts = []) :
    ∀ x ∈ (ctx.filtersDraft r).2,
      ctx.Becomes (ctx.aggregations (ctx.dimensionsDraft r)) x.1 x.2 :=
  mapFilters_becomes r.filters (dimensionsDraft_step ctx r).sound (dimensionsDraft_closed ctx r) hnil

/-- The filters of a request without their phrases, in the order of their mentions. -/
def Context.filters (ctx : Context) (r : Request) : List ReportFilter :=
  (ctx.filtersDraft r).2.map (·.2.unphrased)

namespace Context.Reorders

variable {r r' : Request}

theorem aggregations_eq (h : ctx.Reorders r r')
    (hnil : (ctx.dimensionsDraft r).conflicts = []) (hnil' : (ctx.dimensionsDraft r').conflicts = []) :
    ctx.aggregations (ctx.dimensionsDraft r') = ctx.aggregations (ctx.dimensionsDraft r) := by
  funext name
  rw [Context.aggregations, Context.aggregations, (dimensionsDraft_does ctx r).standing hnil,
    (dimensionsDraft_does ctx r').standing hnil', h.shown_mentionsOf]

/-- The filters of the second request are what their mentions become beside the metrics of the
first. -/
theorem filters_become (h : ctx.Reorders r r') (hnil : (ctx.filtersDraft r).1.conflicts = [])
    (hnil' : (ctx.filtersDraft r').1.conflicts = []) :
    ∀ y ∈ (ctx.filtersDraft r').2,
      ctx.Becomes (ctx.aggregations (ctx.dimensionsDraft r)) y.1 y.2 := by
  have haggregations := h.aggregations_eq ((filtersDraft_step ctx r).grows.conflicts hnil)
    ((filtersDraft_step ctx r').grows.conflicts hnil')
  rw [← haggregations]
  exact filtersDraft_becomes hnil'

/-- The filters are the same, phrases aside. -/
theorem filters_perm (h : ctx.Reorders r r') (hnil : (ctx.filtersDraft r).1.conflicts = [])
    (hnil' : (ctx.filtersDraft r').1.conflicts = []) :
    (ctx.filters r).Perm (ctx.filters r') := by
  have hbecomes := filtersDraft_becomes hnil
  have hbecomes' := h.filters_become hnil hnil'
  have hmentions : ((ctx.filtersDraft r).2.map (·.1)).Perm ((ctx.filtersDraft r').2.map (·.1)) := by
    have hfst := (mapFilters_resolved r.filters (dimensionsDraft_step ctx r).sound hnil).1
    have hfst' := (mapFilters_resolved r'.filters (dimensionsDraft_step ctx r').sound hnil').1
    show (List.map _ (ctx.mapFilters r.filters _).2).Perm (List.map _ (ctx.mapFilters r'.filters _).2)
    rw [hfst, hfst']
    exact h.filters
  refine perm_map_of_key (g := fun x => x.2.unphrased) hmentions fun x hx y hy hxy => ?_
  have hy' : ctx.Becomes (ctx.aggregations (ctx.dimensionsDraft r)) y.1 y.2 :=
    (List.mem_append.mp hy).elim (hbecomes y) (hbecomes' y)
  exact (hbecomes x hx).unphrased_eq (hxy ▸ hy')

end Context.Reorders

/-! ## Requests without open conflicts -/

theorem hasVisibleMetric_iff {d : Draft} (h : d.Sound ctx) :
    d.hasVisibleMetric = true ↔ ∃ name a, ctx.standing d name = some (a, true) := by
  constructor
  · intro hvisible
    obtain ⟨m, hm, hshown⟩ := List.any_eq_true.mp hvisible
    exact ⟨m.name, m.aggregation, by rw [standing_of_mem h hm, hshown]⟩
  · rintro ⟨name, a, hstanding⟩
    unfold Context.standing at hstanding
    split at hstanding
    · next m hm =>
      have hshown := (Prod.mk.inj (Option.some.inj hstanding)).2
      exact List.any_eq_true.mpr ⟨m, List.mem_of_find?_eq_some hm, hshown⟩
    · obtain ⟨e, -, heq⟩ := Option.map_eq_some_iff.mp hstanding
      cases heq

theorem compatible_iff {r : Request} :
    filterConflicts (ctx.filtersDraft r).2 = [] ↔ (ctx.filters r).Pairwise Compatible := by
  rw [filterConflicts_eq_nil, Context.filters, List.pairwise_map, List.pairwise_map]
  simp only [compatible_unphrased]

namespace Context.Reorders

variable {r r' : Request}

theorem lacksMetric_eq (h : ctx.Reorders r r') (hnil : (ctx.sortedDraft r).1.conflicts = [])
    (hnil' : (ctx.sortedDraft r').1.conflicts = []) : ctx.lacksMetric r' = ctx.lacksMetric r := by
  have hstanding : ctx.standing (ctx.sortedDraft r').1 = ctx.standing (ctx.sortedDraft r).1 := by
    funext name
    rw [(sortedDraft_does ctx r).standing hnil, (sortedDraft_does ctx r').standing hnil',
      h.effect_mentionsOf]
  have hvisible : (ctx.sortedDraft r').1.hasVisibleMetric =
      (ctx.sortedDraft r).1.hasVisibleMetric := by
    rw [Bool.eq_iff_iff,
      hasVisibleMetric_iff ((comparedDraft_step ctx r).trans (sortedDraft_step ctx r)).sound,
      hasVisibleMetric_iff ((comparedDraft_step ctx r').trans (sortedDraft_step ctx r')).sound,
      hstanding]
  unfold Context.lacksMetric Context.needsMetric
  rw [h.metrics.isEmpty_eq, h.dimensions.isEmpty_eq, hvisible, h.sortBy, h.limit, h.comparisons]

/-- A request leaves no conflict open if the same request in another order does not. -/
theorem clear (h : ctx.Reorders r r') (hr : ctx.Clear r) : ctx.Clear r' := by
  have hfits := h.fits hr.fits
  have hfilters : ∀ {r}, ctx.Fits r → (ctx.filtersDraft r).1.conflicts = [] := fun {r} hfits =>
    (filtersDraft_does ctx r).conflicts.mpr
      ⟨rfl, ⟨hfits.reported, hfits.metrics, hfits.dimensions⟩, hfits.filters⟩
  have hcompatible : filterConflicts (ctx.filtersDraft r').2 = [] := by
    have hperm := h.filters_perm (hfilters hr.fits) (hfilters hfits)
    exact compatible_iff.mpr
      ((hperm.pairwise_iff Compatible.symm).mp (compatible_iff.mp hr.compatible))
  have hsorted := (sortedDraft_does ctx r).conflicts.mpr ⟨rfl, hr.fits, hr.compatible⟩
  have hsorted' := (sortedDraft_does ctx r').conflicts.mpr ⟨rfl, hfits, hcompatible⟩
  exact ⟨hfits, hcompatible, (h.lacksMetric_eq hsorted hsorted').trans hr.shown⟩

end Context.Reorders

/-! ## Reports -/

/-- Parts that differ by name, one for one, are put into one order. -/
theorem mergeSort_map_eq {α β : Type} {key : α → String} {g : α → β} {xs ys : List α}
    (hxs : (xs.map key).Nodup) (hys : (ys.map key).Nodup)
    (hg : ∀ x ∈ xs, ∀ y ∈ ys, key x = key y → g x = g y)
    (hkeys : ∀ k, k ∈ xs.map key ↔ k ∈ ys.map key) :
    (xs.mergeSort fun a b => decide (key a ≤ key b)).map g =
      (ys.mergeSort fun a b => decide (key a ≤ key b)).map g := by
  have hsorted : ∀ {zs : List α}, (zs.map key).Nodup →
      ((zs.mergeSort fun a b => decide (key a ≤ key b)).map fun z => (key z, g z)).Pairwise
        (·.1 < ·.1) :=
    fun hzs => List.pairwise_map.mpr (pairwise_lt_mergeSort hzs)
  have hnodup : ∀ {zs : List α}, (zs.map key).Nodup → (zs.map fun z => (key z, g z)).Nodup := by
    intro zs hzs
    refine .of_map Prod.fst ?_
    rwa [List.map_map]
  have hperm : (xs.map fun x => (key x, g x)).Perm (ys.map fun y => (key y, g y)) := by
    refine (List.perm_ext_iff_of_nodup (hnodup hxs) (hnodup hys)).mpr fun ⟨k, b⟩ => ?_
    simp only [List.mem_map, Prod.mk.injEq]
    constructor
    · rintro ⟨x, hx, rfl, rfl⟩
      obtain ⟨y, hy, hxy⟩ := List.mem_map.mp ((hkeys _).mp (List.mem_map_of_mem hx))
      exact ⟨y, hy, hxy, (hg x hx y hy hxy.symm).symm⟩
    · rintro ⟨y, hy, rfl, rfl⟩
      obtain ⟨x, hx, hxy⟩ := List.mem_map.mp ((hkeys _).mpr (List.mem_map_of_mem hy))
      exact ⟨x, hx, hxy, hg x hx y hy hxy⟩
  have hperms := (((List.mergeSort_perm xs fun a b => decide (key a ≤ key b)).map _).trans
    hperm).trans ((List.mergeSort_perm ys fun a b => decide (key a ≤ key b)).map _).symm
  have heq := List.Perm.eq_of_pairwise (fun a b _ _ hab hba => absurd hba (String.lt_asymm hab))
    (hsorted hxs) (hsorted hys) hperms
  simpa only [List.map_map, Function.comp_def] using congrArg (List.map Prod.snd) heq

namespace Context.Reorders

variable {r r' : Request}

theorem dimensions_eq (h : ctx.Reorders r r') (hr : ctx.Clear r) (hr' : ctx.Clear r') :
    (ctx.map r).report.unphrased.dimensions = (ctx.map r').report.unphrased.dimensions := by
  have hnil := (finalDraft_does ctx r).conflicts.mpr ⟨rfl, hr⟩
  have hnil' := (finalDraft_does ctx r').conflicts.mpr ⟨rfl, hr'⟩
  have hsound := (finalDraft_spec ctx r).1.sound
  have hsound' := (finalDraft_spec ctx r').1.sound
  rw [ctx.map_eq, ctx.map_eq]
  refine mergeSort_map_eq hsound.dimensions_differ hsound'.dimensions_differ ?_ fun name => ?_
  · exact fun x hx x' hx' => dimension_unphrased_eq (hsound.dimensions x hx) (hsound'.dimensions x' hx')
  · show name ∈ (ctx.finalDraft r).dimensionNames ↔ name ∈ (ctx.finalDraft r').dimensionNames
    rw [(finalDraft_does ctx r).dimensions hnil, (finalDraft_does ctx r').dimensions hnil']
    simp only [h.effect_dimensions]

end Context.Reorders

end Mapping

namespace Wagers

open Mapping

theorem plain : dictionary.definition.Plain := by
  have hplain : ∀ x ∈ vocabulary.dimensions, '.' ∉ x.field.column.toList := by decide +kernel
  exact hplain

end Wagers

end MetricLayer
