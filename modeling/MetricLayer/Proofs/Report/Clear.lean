import MetricLayer.Proofs.Report.Effects

/-!
# Requests that leave no conflict open

The effects of the mentions of a request make up its effect, and where every part fits, that is what
the request does to the empty draft.

Results:
1. `finalDraft_does`: what a whole request does.
2. `isResolved_iff_clear`: when a request leaves no conflict open.
-/

namespace MetricLayer

namespace Mapping

open Draft

variable {ctx : Context}

/-! ## The effect of a request -/

namespace Context

/-- What the mentioned metrics and dimensions do. -/
def shownEffect (ctx : Context) (r : Request) : Effect :=
  .flat (r.metrics.map ctx.metricEffect) ++ .flat (r.dimensions.map ctx.dimensionEffect)

/-- What a request does. -/
def effect (ctx : Context) (r : Request) : Effect :=
  ctx.shownEffect r ++ .flat (r.filters.map ctx.filterEffect) ++
    .flat (r.sortBy.toList.map ctx.sortEffect)

/-- Every part of the request fits. -/
structure Fits (ctx : Context) (r : Request) : Prop where
  reported : r.conflicts = []
  metrics : ∀ m ∈ r.metrics, ctx.MetricFits m
  dimensions : ∀ x ∈ r.dimensions, ctx.DimensionFits x
  filters : ∀ f ∈ r.filters, ctx.FilterFits f
  sort : ∀ s ∈ r.sortBy.toList, ctx.SortFits s

/-- A request that leaves no conflict open. -/
structure Clear (ctx : Context) (r : Request) : Prop where
  fits : ctx.Fits r
  compatible : filterConflicts (ctx.filtersDraft r).2 = []
  shown : ctx.lacksMetric r = false

end Context

variable {r : Request}

theorem closed_empty : ({} : Draft).ClosedBut [] := fun _ m hm => by cases hm

theorem reportedDraft_does (ctx : Context) (r : Request) :
    Does ctx {} (r.conflicts = []) {} (Context.reportedDraft r) := by
  have hdoes := Does.foldl (fun _ c hd => .raise hd ({ c with reported := true } : Conflict).ensureId)
    (fun _ c _ _ => Does.raise (e := {}) ({ c with reported := true } : Conflict).ensureId id)
    (sound_empty ctx) closed_empty r.conflicts
  have hflat : Effect.flat (r.conflicts.map fun _ => {}) = {} := by
    simp [Effect.flat]
  rw [hflat] at hdoes
  exact hdoes.congr fun _ => List.eq_nil_iff_forall_not_mem.symm

theorem metricsDraft_closed (ctx : Context) (r : Request) : (ctx.metricsDraft r).ClosedBut [] :=
  (metricsDraft_step ctx r).closed [] ((reportedDraft_step ctx r).closed [] closed_empty)

theorem dimensionsDraft_closed (ctx : Context) (r : Request) :
    (ctx.dimensionsDraft r).ClosedBut [] :=
  (dimensionsDraft_step ctx r).closed [] (metricsDraft_closed ctx r)

theorem comparedDraft_closed (ctx : Context) (r : Request) : (ctx.comparedDraft r).ClosedBut [] :=
  (comparedDraft_step ctx r).closed [] <|
    (filtersDraft_step ctx r).closed [] (dimensionsDraft_closed ctx r)

/-- What is there before the filters. -/
theorem dimensionsDraft_does (ctx : Context) (r : Request) :
    Does ctx (ctx.shownEffect r)
      (r.conflicts = [] ∧ (∀ m ∈ r.metrics, ctx.MetricFits m) ∧
        ∀ x ∈ r.dimensions, ctx.DimensionFits x) {} (ctx.dimensionsDraft r) := by
  have hmetrics : Does ctx (.flat (r.metrics.map ctx.metricEffect)) _ _ (ctx.metricsDraft r) :=
    .foldl (fun _ m hd => .addMetricMention hd m) (fun _ m hd hc => addMetricMention_does hd hc m)
      (reportedDraft_step ctx r).sound ((reportedDraft_step ctx r).closed [] closed_empty) r.metrics
  have hdimensions : Does ctx (.flat (r.dimensions.map ctx.dimensionEffect)) _ _
      (ctx.dimensionsDraft r) :=
    .foldl (fun _ x hd => .addDimensionMention hd x) (fun _ x hd _ => addDimensionMention_does hd x)
      (metricsDraft_step ctx r).sound (metricsDraft_closed ctx r) r.dimensions
  exact (((reportedDraft_does ctx r).trans hmetrics).trans hdimensions).congr fun _ => and_assoc

/-- What is there before the sort. -/
theorem filtersDraft_does (ctx : Context) (r : Request) :
    Does ctx (ctx.shownEffect r ++ .flat (r.filters.map ctx.filterEffect))
      ((r.conflicts = [] ∧ (∀ m ∈ r.metrics, ctx.MetricFits m) ∧
        ∀ x ∈ r.dimensions, ctx.DimensionFits x) ∧ ∀ f ∈ r.filters, ctx.FilterFits f)
      {} (ctx.filtersDraft r).1 := by
  refine (dimensionsDraft_does ctx r).trans ?_
  rw [Context.filtersDraft, mapFilters_fst]
  exact .foldl (fun _ f hd => (mapFilter_spec hd f).1) (fun _ f hd hc => mapFilter_does hd hc f)
    (dimensionsDraft_step ctx r).sound (dimensionsDraft_closed ctx r) r.filters

theorem comparedDraft_does (ctx : Context) (r : Request) :
    Does ctx {} (filterConflicts (ctx.filtersDraft r).2 = []) (ctx.filtersDraft r).1
      (ctx.comparedDraft r) := by
  unfold Context.comparedDraft
  generalize filterConflicts (ctx.filtersDraft r).2 = cs
  cases cs with
  | nil => exact (Does.same rfl rfl rfl).congr fun _ => by simp
  | cons c cs => exact .failed (foldl_raise_conflicts (List.cons_ne_nil c cs) _) fun _ => by simp

/-- What a request does, apart from the conflict about a missing metric. -/
theorem sortedDraft_does (ctx : Context) (r : Request) :
    Does ctx (ctx.effect r) (ctx.Fits r ∧ filterConflicts (ctx.filtersDraft r).2 = []) {}
      (ctx.sortedDraft r).1 := by
  have hsort : Does ctx (.flat (r.sortBy.toList.map ctx.sortEffect))
      (∀ s ∈ r.sortBy.toList, ctx.SortFits s) (ctx.comparedDraft r) (ctx.sortedDraft r).1 := by
    unfold Context.sortedDraft
    cases r.sortBy with
    | none => exact (Does.same rfl rfl rfl).congr fun _ => by simp
    | some s =>
      have hflat : Effect.flat ((some s).toList.map ctx.sortEffect) = ctx.sortEffect s := by
        simp [Effect.flat]
      rw [hflat]
      exact (mapSort_does (comparedDraft_step ctx r).sound (comparedDraft_closed ctx r) s).congr
        fun _ => by simp
  have hall := (filtersDraft_does ctx r).trans ((comparedDraft_does ctx r).trans hsort)
  rw [Effect.empty_append] at hall
  refine hall.congr fun _ => ⟨?_, ?_⟩
  · rintro ⟨⟨⟨hreported, hmetrics, hdimensions⟩, hfilters⟩, hcompatible, hsort⟩
    exact ⟨⟨hreported, hmetrics, hdimensions, hfilters, hsort⟩, hcompatible⟩
  · rintro ⟨h, hcompatible⟩
    exact ⟨⟨⟨h.reported, h.metrics, h.dimensions⟩, h.filters⟩, hcompatible, h.sort⟩

/-- What a whole request does, unless it leaves a conflict open. -/
theorem finalDraft_does (ctx : Context) (r : Request) :
    Does ctx (ctx.effect r) (ctx.Clear r) {} (ctx.finalDraft r) := by
  have hlacks : Does ctx {} (ctx.lacksMetric r = false) (ctx.sortedDraft r).1
      (ctx.finalDraft r) := by
    unfold Context.finalDraft
    cases hlacks : ctx.lacksMetric r with
    | false => exact (Does.same rfl rfl rfl).congr fun _ => by simp
    | true => exact .raise _ (by simp)
  have hall := (sortedDraft_does ctx r).trans hlacks
  rw [Effect.append_empty] at hall
  refine hall.congr fun _ => ⟨?_, ?_⟩
  · rintro ⟨⟨hfits, hcompatible⟩, hshown⟩
    exact ⟨hfits, hcompatible, hshown⟩
  · intro h
    exact ⟨⟨h.fits, h.compatible⟩, h.shown⟩

theorem isResolved_iff_clear : (ctx.map r).isResolved = true ↔ ctx.Clear r := by
  rw [isResolved_iff, (finalDraft_does ctx r).conflicts]
  exact and_iff_right rfl

end Mapping

end MetricLayer
