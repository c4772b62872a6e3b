import Mathlib.Data.List.ReduceOption
import MetricLayer.Proofs.Report.Shown
import MetricLayer.Proofs.Translation.Reordered

/-!
# What of a request is kept

Where a request leaves no conflict open, everything in it should be found in its report. All of it
is, with two exceptions that nothing tells the asker of. Two mentions of one metric may name
different aggregations, of which the last one counts. And a time range may have an end without a
start, in which case its period decides about the days, or the standard one.

Results:
1. `foldl_mentioned`: mentions show a metric and give it the last aggregation that is named.
2. `map_keeps_metric`, `map_keeps_filters`, `map_keeps_sort`: what becomes of the mentions.
3. `map_keeps_iff`: a request is kept as a whole just if it has none of the two exceptions.
-/

namespace MetricLayer

namespace Mapping

namespace Context

/-! ## What it is to be kept -/

/-- The target is the entry, which is a metric or the column of a dimension. -/
inductive PointsTo (ctx : Context) : FilterTarget → EntityKind → String → Prop
  | metric (m : ReportMetric) : PointsTo ctx (.metric m) .metric m.name
  | column {kind : EntityKind} {name : String} {e : DimensionEntry} {c : Field} :
      kind ≠ .metric → ctx.dictionary.dimension? name = some e →
        ctx.schema.canonical? e.definition.field = some c → PointsTo ctx (.column c) kind name

/-- The filter says what its mention says: it looks at what the mention means, and has its operator,
its negation and each of its values. -/
structure Carries (ctx : Context) (f : FilterMention) (x : ReportFilter) : Prop where
  term : x.term = f.field
  target : ∃ kind name,
    ctx.resolveField .filter .dimension f.field f.confidence f.pinned = .ok (kind, name) ∧
      ctx.PointsTo x.target kind name
  operator : x.operator = operatorOf f
  negated : x.negated = f.negated
  values : List.Forall₂ (fun text v => Literal.coerce (valueType x.operator x.type) text = .ok v)
    f.value.toList x.values

/-- Mentions of one metric that name an aggregation name the same one. -/
def Agree (ctx : Context) (ms : List MetricMention) : Prop :=
  ∀ m ∈ ms, ∀ m' ∈ ms, ∀ name, ctx.meaning? m = some name → ctx.meaning? m' = some name →
    ∀ a a', m.aggregation = some a → m'.aggregation = some a' → a = a'

end Context

end Mapping

/-- The day is the first or the last one of the range. -/
def DayRange.Bounds (range : DayRange) (day : Date) : Prop := range.start = day ∨ range.stop = day

/-- The days that are given. -/
def TimeMention.days (t : TimeMention) : List Date := t.start.toList ++ t.stop.toList

/-- Everything in the request is found in the report. -/
structure Report.Keeps (ctx : Mapping.Context) (request : Request) (r : Report) : Prop where
  metrics : ∀ m ∈ request.metrics, ∃ x ∈ r.visibleMetrics, ctx.meaning? m = some x.name ∧
    ∀ a, m.aggregation = some a → x.aggregation = a
  dimensions : ∀ m ∈ request.dimensions, ∃ x ∈ r.dimensions,
    ctx.resolve .dimension .dimension m.name m.confidence m.pinned = .ok x.name
  filters : ∃ fs, fs.Perm r.filters ∧ List.Forall₂ ctx.Carries request.filters fs
  sort : ∀ s, request.sortBy = some s → ∃ x, r.sort = some x ∧ x.term = s.field ∧
    x.direction = s.direction ∧ x.target.IsIn r ∧
      ∃ kind, ctx.resolveField .sort .metric s.field 1 none = .ok (kind, x.target.name)
  limit : r.limit = request.limit
  days : ∀ t, request.timeRange = some t → ∃ range, r.timeRange = some range ∧
    ∀ day ∈ t.days, range.Bounds day

/-- A day that is given without a start before it is one of the bounds of the period. -/
def Request.EndsFit (request : Request) (today : Date) : Prop :=
  ∀ t, request.timeRange = some t → t.start = none → ∀ day, t.stop = some day →
    (TimeMention.periodRange (t.period.getD RelativePeriod.standardText) today).1.Bounds day

namespace Mapping

open Draft

variable {ctx : Context} {request : Request}

/-! ## Metrics -/

/-- Mentions show a metric and give it the last aggregation that is named. -/
theorem foldl_mentioned (as : List (Option Aggregation)) (s : Aggregation × Bool) :
    as.foldl Context.mentioned (some s) =
      some (as.reduceOption.getLast?.getD s.1, s.2 || !as.isEmpty) := by
  induction as generalizing s with
  | nil => simp [List.reduceOption_nil]
  | cons a as ih =>
    obtain ⟨aggregation, shown⟩ := s
    rw [List.foldl_cons, Context.mentioned, Option.map_some, ih]
    cases a with
    | none => simp [List.reduceOption_cons_of_none]
    | some a => simp [List.reduceOption_cons_of_some, List.getLast?_cons]

theorem meaning?_eq_some {m : MetricMention} {name : String} : ctx.meaning? m = some name ↔
    ctx.resolve .metric .metric m.name m.confidence m.pinned = .ok name := by
  unfold Context.meaning?
  cases ctx.resolve .metric .metric m.name m.confidence m.pinned <;> simp [Except.toOption]

/-- The aggregations that the mentions of a metric name, in order. -/
def Context.namedFor (ctx : Context) (r : Request) (name : String) : List Aggregation :=
  ((r.metrics.filter (ctx.meaning? · = some name)).map (·.aggregation)).reduceOption

theorem mem_namedFor {name : String} {a : Aggregation} : a ∈ ctx.namedFor request name ↔
    ∃ m ∈ request.metrics, ctx.meaning? m = some name ∧ m.aggregation = some a := by
  simp [Context.namedFor, List.reduceOption_mem_iff, and_assoc]

/-- A sort names no aggregation. -/
theorem reduceOption_mentionsOf_sort (s : Option SortMention) (name : String) :
    ((Effect.flat (s.toList.map ctx.sortEffect)).mentionsOf name).reduceOption = [] := by
  refine List.eq_nil_iff_forall_not_mem.mpr fun a ha => ?_
  rw [List.reduceOption_mem_iff] at ha
  obtain ⟨⟨n, b⟩, hmem, rfl⟩ := List.mem_map.mp ha
  obtain ⟨e, he, hmention⟩ := List.mem_flatMap.mp (List.mem_of_mem_filter hmem)
  obtain ⟨s, -, rfl⟩ := List.mem_map.mp he
  unfold Context.sortEffect at hmention
  split at hmention <;> simp at hmention

theorem reduceOption_mentionsOf_effect (r : Request) (name : String) :
    ((ctx.effect r).mentionsOf name).reduceOption = ctx.namedFor r name := by
  unfold Context.effect
  rw [Effect.mentionsOf_append, Effect.mentionsOf_append, mentionsOf_filters, List.append_nil,
    List.reduceOption_append, reduceOption_mentionsOf_sort, List.append_nil, mentionsOf_shown]
  rfl

/-- A metric of the dictionary stands in the end as its mentions have it. -/
theorem finalDraft_standing (h : (ctx.map request).isResolved = true) {e : MetricEntry}
    (he : e ∈ ctx.dictionary.metrics) :
    ctx.standing (ctx.finalDraft request) e.definition.name =
      some ((ctx.namedFor request e.definition.name).getLast?.getD e.definition.aggregation,
        !((ctx.effect request).mentionsOf e.definition.name).isEmpty) := by
  have hdoes := finalDraft_does ctx request
  have hbefore : ctx.standing {} e.definition.name = some (e.definition.aggregation, false) := by
    show (ctx.dictionary.metric? e.definition.name).map _ = _
    rw [Dictionary.metric?_of_mem he]
    rfl
  rw [hdoes.standing (hdoes.conflicts.mpr ⟨rfl, isResolved_iff_clear.mp h⟩), hbefore,
    foldl_mentioned, reduceOption_mentionsOf_effect, Bool.false_or]

/-- A metric that is mentioned is shown, with the last aggregation that is named for it. -/
theorem map_keeps_metric (h : (ctx.map request).isResolved = true) {m : MetricMention}
    (hm : m ∈ request.metrics) :
    ∃ x ∈ (ctx.map request).report.visibleMetrics, ctx.meaning? m = some x.name ∧
      ∀ a ∈ (ctx.namedFor request x.name).getLast?, x.aggregation = a := by
  have hsound := (finalDraft_spec ctx request).1.sound
  obtain ⟨name, hresolve, -⟩ := (isResolved_iff_clear.mp h).fits.metrics m hm
  obtain ⟨e, he, rfl, -⟩ := hasEntry_metric (resolve_entry hresolve)
  have hmeaning := meaning?_eq_some.mpr hresolve
  -- the metric is mentioned at least once, so it is shown
  have hmentioned : ((ctx.effect request).mentionsOf e.definition.name).isEmpty = false := by
    rw [List.isEmpty_eq_false_iff_exists_mem]
    refine ⟨m.aggregation, ?_⟩
    unfold Context.effect
    rw [Effect.mentionsOf_append, Effect.mentionsOf_append, mentionsOf_shown]
    refine List.mem_append_left _ (List.mem_append_left _ (List.mem_map_of_mem ?_))
    simp [hm, hmeaning]
  have hstanding := finalDraft_standing h he
  rw [hmentioned] at hstanding
  obtain ⟨x, hx, hname, hhidden⟩ := Context.Shows.mem ⟨_, hstanding⟩
  rw [← hname] at hmeaning hstanding
  rw [standing_of_mem hsound hx] at hstanding
  refine ⟨x, ?_, hmeaning, fun a ha => ?_⟩
  · rw [ctx.map_eq]
    exact List.mem_filter.mpr ⟨List.mem_mergeSort.mpr hx, by simp [hhidden]⟩
  · rw [(Prod.mk.inj (Option.some.inj hstanding)).1, Option.mem_def.mp ha]
    rfl

/-- Every mention of a metric is kept just if the mentions agree. -/
theorem map_keeps_metrics_iff (h : (ctx.map request).isResolved = true) :
    (∀ m ∈ request.metrics, ∃ x ∈ (ctx.map request).report.visibleMetrics,
      ctx.meaning? m = some x.name ∧ ∀ a, m.aggregation = some a → x.aggregation = a) ↔
        ctx.Agree request.metrics := by
  constructor
  · intro hkeeps m hm m' hm' name hname hname' a a' ha ha'
    obtain ⟨x, hx, hmeaning, haggregation⟩ := hkeeps m hm
    obtain ⟨x', hx', hmeaning', haggregation'⟩ := hkeeps m' hm'
    have hsame : x.name = x'.name := by
      rw [hname, Option.some.injEq] at hmeaning
      rw [hname', Option.some.injEq] at hmeaning'
      exact hmeaning.symm.trans hmeaning'
    have hmapped := map_mapped ctx request
    have hfind := hmapped.metric?_eq (List.mem_of_mem_filter hx)
    rw [hsame, hmapped.metric?_eq (List.mem_of_mem_filter hx')] at hfind
    rw [← haggregation a ha, ← haggregation' a' ha', Option.some.inj hfind]
  · intro hagree m hm
    obtain ⟨x, hx, hmeaning, hlast⟩ := map_keeps_metric h hm
    refine ⟨x, hx, hmeaning, fun a ha => ?_⟩
    have hmem : a ∈ ctx.namedFor request x.name := mem_namedFor.mpr ⟨m, hm, hmeaning, ha⟩
    obtain ⟨b, hb⟩ := List.getLast?_isSome.mpr (List.ne_nil_of_mem hmem) |> Option.isSome_iff_exists.mp
    obtain ⟨m', hm', hmeaning', hb'⟩ := mem_namedFor.mp (List.mem_of_getLast? hb)
    rw [hlast b hb]
    exact hagree m' hm' m hm x.name hmeaning' hmeaning b a hb' ha

/-! ## Dimensions, filters and the sort -/

theorem map_keeps_dimension (h : (ctx.map request).isResolved = true) {m : DimensionMention}
    (hm : m ∈ request.dimensions) : ∃ x ∈ (ctx.map request).report.dimensions,
      ctx.resolve .dimension .dimension m.name m.confidence m.pinned = .ok x.name := by
  have hclear := isResolved_iff_clear.mp h
  have hdoes := finalDraft_does ctx request
  obtain ⟨name, hresolve, -⟩ := hclear.fits.dimensions m hm
  have hthere : name ∈ (ctx.finalDraft request).dimensionNames := by
    refine (hdoes.dimensions (hdoes.conflicts.mpr ⟨rfl, hclear⟩) name).mpr (.inr ?_)
    have heffect : name ∈ (Effect.flat (request.dimensions.map ctx.dimensionEffect)).dimensions := by
      refine List.mem_flatMap.mpr ⟨_, List.mem_map_of_mem hm, ?_⟩
      simp [Context.dimensionEffect, hresolve]
    exact List.mem_append_left _ (List.mem_append_left _ (List.mem_append_right _ heffect))
  obtain ⟨x, hx, rfl⟩ := List.mem_map.mp hthere
  refine ⟨x, ?_, hresolve⟩
  rw [ctx.map_eq]
  exact List.mem_mergeSort.mpr hx

/-- Values that all suit the type are read one for one. -/
theorem coercedValues_forall₂ {f : FilterMention} {type : DataType}
    (h : Context.valueConflicts f type = []) :
    List.Forall₂ (fun text v => Literal.coerce type text = .ok v) f.value.toList
      (Context.coercedValues f type) := by
  unfold Context.valueConflicts at h
  unfold Context.coercedValues
  generalize f.value.toList = texts at h
  induction texts with
  | nil => exact .nil
  | cons text texts ih =>
    cases hv : Literal.coerce type text with
    | error e => simp [hv] at h
    | ok v =>
      simp only [List.filterMap_cons, hv] at h
      simp only [List.filterMap_cons, hv, Except.toOption]
      exact .cons hv (ih h)

theorem Context.Becomes.pointsTo {aggregations : String → Option Aggregation} {f : FilterMention}
    {x : ReportFilter} (h : ctx.Becomes aggregations f x) : ∃ kind name,
      ctx.resolveField .filter .dimension f.field f.confidence f.pinned = .ok (kind, name) ∧
        ctx.PointsTo x.target kind name := by
  cases h with
  | column hkind hresolve he hc => exact ⟨_, _, hresolve, .column hkind he hc⟩
  | @metric m hresolve => exact ⟨_, _, hresolve, .metric m⟩

/-- A filter that is mapped without a conflict says what its mention says. -/
theorem mapFilter_carries {d : Draft} (h : d.Sound ctx) (hclosed : d.ClosedBut [])
    {f : FilterMention} (hnil : (ctx.mapFilter f d).1.conflicts = []) :
    ∃ x, (ctx.mapFilter f d).2 = some x ∧ ctx.Carries f x := by
  obtain ⟨kind, name, target, type, hmaps⟩ := mapFilter_cases h hnil
  have hvalues := coercedValues_forall₂ hmaps.values
  have hbecomes := mapFilter_becomes h hclosed hnil hmaps.filter
  refine ⟨_, hmaps.filter, ?_⟩
  unfold Context.filterOf at hbecomes ⊢
  constructor
  case term => rfl
  case target => exact hbecomes.pointsTo
  case operator => dsimp only
  case negated => rfl
  case values =>
    dsimp only
    exact hvalues

theorem mapFilters_carries (fs : List FilterMention) {d : Draft} (h : d.Sound ctx)
    (hclosed : d.ClosedBut []) (hnil : (ctx.mapFilters fs d).1.conflicts = []) :
    List.Forall₂ ctx.Carries fs ((ctx.mapFilters fs d).2.map (·.2)) := by
  induction fs generalizing d with
  | nil => exact .nil
  | cons f fs ih =>
    rw [mapFilters_cons] at hnil ⊢
    have hstep := (mapFilter_spec h f).1
    obtain ⟨x, hx, hcarries⟩ := mapFilter_carries h hclosed
      ((mapFilters_spec fs hstep.sound).1.grows.conflicts hnil)
    rw [hx]
    exact .cons hcarries (ih hstep.sound (hstep.closed [] hclosed) hnil)

/-- Every mention of a filter has a filter of its own. -/
theorem map_keeps_filters (h : (ctx.map request).isResolved = true) :
    ∃ fs, fs.Perm (ctx.map request).report.filters ∧ List.Forall₂ ctx.Carries request.filters fs := by
  refine ⟨(ctx.filtersDraft request).2.map (·.2), ?_, ?_⟩
  · rw [ctx.map_eq]
    exact (List.mergeSort_perm _ _).symm
  · exact mapFilters_carries request.filters (dimensionsDraft_step ctx request).sound
      (dimensionsDraft_closed ctx request) (stages_resolved h).1

/-- What a mentioned sort becomes. -/
theorem mapSort_snd_eq {s : SortMention} {kind : EntityKind} {name : String}
    (hresolve : ctx.resolveField .sort .metric s.field 1 none = .ok (kind, name)) (d : Draft) :
    ∃ target : SortTarget, target.name = name ∧
      (ctx.mapSort s d).2 = some ⟨s.field, target, s.direction⟩ := by
  unfold Context.mapSort
  rw [hresolve]
  cases kind
  case metric => exact ⟨.metric name, rfl, rfl⟩
  all_goals exact ⟨.dimension name, rfl, rfl⟩

/-- A mentioned sort is kept, and what it names is in the report. -/
theorem map_keeps_sort (h : (ctx.map request).isResolved = true) {s : SortMention}
    (hs : request.sortBy = some s) : ∃ x, (ctx.map request).report.sort = some x ∧
      x.term = s.field ∧ x.direction = s.direction ∧ x.target.IsIn (ctx.map request).report ∧
        ∃ kind, ctx.resolveField .sort .metric s.field 1 none = .ok (kind, x.target.name) := by
  obtain ⟨kind, name, -, hresolve, -⟩ :=
    (isResolved_iff_clear.mp h).fits.sort s (by rw [hs]; exact List.mem_singleton.mpr rfl)
  obtain ⟨target, rfl, hmapped⟩ := mapSort_snd_eq hresolve (ctx.comparedDraft request)
  have hsort : (ctx.map request).report.sort = some ⟨s.field, target, s.direction⟩ := by
    rw [ctx.map_eq]
    show (ctx.sortedDraft request).2 = _
    rw [Context.sortedDraft, hs]
    exact hmapped
  exact ⟨_, hsort, rfl, rfl, map_sort h hsort, kind, hresolve⟩

/-! ## Days -/

theorem bounds_between {a b day : Date} : (DayRange.between a b).Bounds day ↔ a = day ∨ b = day := by
  unfold DayRange.between
  split
  · exact Iff.rfl
  · exact or_comm

/-- The days that are given are the bounds of the range just if an end without a start is one of the
bounds of the period. -/
theorem resolve_bounds_iff (t : TimeMention) (today : Date) :
    (∀ day ∈ t.days, (t.resolve today).1.Bounds day) ↔
      (t.start = none → ∀ day, t.stop = some day →
        (TimeMention.periodRange (t.period.getD RelativePeriod.standardText) today).1.Bounds day) := by
  unfold TimeMention.days TimeMention.resolve
  cases t.start with
  | some a => cases t.stop <;> simp [bounds_between]
  | none => simp

theorem map_keeps_days_iff (ctx : Mapping.Context) (request : Request) :
    (∀ t, request.timeRange = some t → ∃ range, (ctx.map request).report.timeRange = some range ∧
      ∀ day ∈ t.days, range.Bounds day) ↔ request.EndsFit ctx.today := by
  refine forall_congr' fun t => forall_congr' fun ht => ?_
  have hrange : (ctx.map request).report.timeRange = some (t.resolve ctx.today).1 := by
    rw [ctx.map_eq]
    show (ctx.timeRange request).1 = _
    rw [Context.timeRange, ht]
  rw [hrange, ← resolve_bounds_iff]
  simp

/-! ## The whole request -/

/-- A request that leaves no conflict open is kept as a whole just if the mentions of one metric
agree on its aggregation, and an end without a start is one of the bounds of the period. -/
theorem map_keeps_iff (ctx : Mapping.Context) (request : Request)
    (h : (ctx.map request).isResolved = true) :
    (ctx.map request).report.Keeps ctx request ↔
      ctx.Agree request.metrics ∧ request.EndsFit ctx.today := by
  rw [← map_keeps_metrics_iff h, ← map_keeps_days_iff]
  constructor
  · exact fun hkeeps => ⟨hkeeps.metrics, hkeeps.days⟩
  · rintro ⟨hmetrics, hdays⟩
    exact ⟨hmetrics, fun _ => map_keeps_dimension h, map_keeps_filters h, fun _ => map_keeps_sort h,
      rfl, hdays⟩

end Mapping

namespace Wagers

open Mapping

def june : Mapping.Context :=
  { context with today := ⟨2024, 6, 30, by decide, by decide, by decide⟩ }

def quarterEnd : Date := ⟨2024, 3, 31, by decide, by decide, by decide⟩

/-- The turnover until the end of a quarter. -/
def untilQuarterEnd : Request :=
  { metrics := [{ name := "turnover", pinned := some "Turnover" }]
    timeRange := some { stop := some quarterEnd } }

/-- The greatest stake and the least one. -/
def extremes : Request :=
  { metrics := [{ name := "greatest", aggregation := some .max, pinned := some "Stake" },
      { name := "least", aggregation := some .min, pinned := some "Stake" }] }

/-- Neither request leaves a conflict open or gives a warning. The first one gets the last 30 days,
and the second one the least stake alone. -/
theorem map_loses :
    ((june.map untilQuarterEnd).isResolved = true ∧ (june.map untilQuarterEnd).warnings = [] ∧
      ¬ (june.map untilQuarterEnd).report.Keeps june untilQuarterEnd) ∧
    ((june.map extremes).isResolved = true ∧ (june.map extremes).warnings = [] ∧
      ¬ (june.map extremes).report.Keeps june extremes) := by
  have huntil : (june.map untilQuarterEnd).isResolved = true := by decide +kernel
  have hextremes : (june.map extremes).isResolved = true := by decide +kernel
  refine ⟨⟨huntil, by decide +kernel, fun hkeeps => ?_⟩,
    ⟨hextremes, by decide +kernel, fun hkeeps => ?_⟩⟩
  · obtain ⟨-, hfit⟩ := (map_keeps_iff june untilQuarterEnd huntil).mp hkeeps
    have hno : ¬ (TimeMention.periodRange RelativePeriod.standardText june.today).1.Bounds
        quarterEnd := by
      unfold DayRange.Bounds
      decide +kernel
    exact hno (hfit _ rfl rfl _ rfl)
  · obtain ⟨hagree, -⟩ := (map_keeps_iff june extremes hextremes).mp hkeeps
    have hmeaning : ∀ m ∈ extremes.metrics, june.meaning? m = some "Stake" := by decide +kernel
    have hsame := hagree _ List.mem_cons_self _ (List.mem_cons_of_mem _ List.mem_cons_self) "Stake"
      (hmeaning _ List.mem_cons_self) (hmeaning _ (List.mem_cons_of_mem _ List.mem_cons_self))
      .max .min rfl rfl
    cases hsame

end Wagers

end MetricLayer
