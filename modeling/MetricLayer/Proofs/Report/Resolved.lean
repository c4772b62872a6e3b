import MetricLayer.Proofs.Report.Mapping
import MetricLayer.Proofs.Schema.Names
import MetricLayer.Proofs.Vocabulary.Lookup
import MetricLayer.Translation.Query

/-!
# Requests without open conflicts

What a mention means is always an entry of the dictionary, whose name is then used for the metric or
dimension itself. So where a request leaves no conflict open, every mention has become a part of the
report: no filter is lost, a metric that is filtered or sorted by is among the metrics, and
everything that a metric is calculated from is there. `Report.Resolved` says all this.

Results:
1. `resolve_entry` and `resolveField_entry`: what a mention means is an entry of the dictionary.
2. `mapFilters_resolved` and `mapSort_resolved`: without a conflict nothing of a mention is lost.
3. `map_resolved`: the report of a request without open conflicts is resolved.
-/

namespace MetricLayer

namespace Mapping

variable {ctx : Context}

/-! ## Entries -/

/-- The dictionary has an entry of the kind with exactly the name. -/
def Context.HasEntry (ctx : Context) (kind : EntityKind) (name : String) : Prop :=
  name ∈ (ctx.dictionary.entriesOf kind).map (·.1)

theorem hasEntry_metric {name : String} (h : ctx.HasEntry .metric name) :
    ∃ e ∈ ctx.dictionary.metrics, e.definition.name = name ∧ ctx.dictionary.metric? name = some e := by
  simp only [Context.HasEntry, Dictionary.entriesOf, List.map_map, List.mem_map] at h
  obtain ⟨e, he, rfl⟩ := h
  exact ⟨e, he, rfl, Dictionary.metric?_of_mem he⟩

theorem hasEntry_dimension {kind : EntityKind} (hkind : kind ≠ .metric) {name : String}
    (h : ctx.HasEntry kind name) :
    ∃ e ∈ ctx.dictionary.dimensions, e.definition.name = name ∧
      ctx.dictionary.dimension? name = some e := by
  cases kind <;> simp only [Context.HasEntry, Dictionary.entriesOf, List.map_map, List.mem_map,
    List.map_nil, List.not_mem_nil] at h
  case metric => exact absurd rfl hkind
  case dimension =>
    obtain ⟨e, he, rfl⟩ := h
    exact ⟨e, he, rfl, Dictionary.dimension?_of_mem he⟩

theorem lookup_entry {kind : EntityKind} {phrase : String} {c : Candidate}
    (h : c ∈ ctx.lookup kind phrase) : ctx.HasEntry kind c.name := by
  have hphrase : Term.ofPhrase phrase ≠ "" := by
    intro hempty
    simp [Context.lookup, Dictionary.lookup, hempty] at h
  obtain ⟨-, hscores⟩ := ((ctx.dictionary.lookup_ranks ctx.settings kind hphrase).listed c).mp h
  obtain ⟨e, he, -, hname, -⟩ := Dictionary.scores_iff.mp hscores
  exact List.mem_map.mpr ⟨e, he, hname.symm⟩

theorem exactName?_entry {kind : EntityKind} {phrase name : String}
    (h : ctx.exactName? kind phrase = some name) : ctx.HasEntry kind name := by
  unfold Context.HasEntry Dictionary.entriesOf
  cases kind
  case metric =>
    obtain ⟨e, he, rfl⟩ := Option.map_eq_some_iff.mp h
    rw [List.map_map]
    exact List.mem_map_of_mem (Dictionary.metric?_spec he).1
  case dimension =>
    obtain ⟨e, he, rfl⟩ := Option.map_eq_some_iff.mp h
    rw [List.map_map]
    exact List.mem_map_of_mem (List.mem_of_find?_eq_some he)
  all_goals cases h

/-- If a candidate is chosen, then it is the best one. -/
theorem choose_eq_ok {best : Candidate} {others : List Candidate} {entity : EntityKind}
    {term name : String} {confidence : Float}
    (h : ctx.choose best others entity term confidence = .ok name) : name = best.name := by
  unfold Context.choose at h
  simp only at h
  split at h
  · cases h
  · exact (Except.ok.inj h).symm

theorem resolvePhrase_entry {kind entity : EntityKind} {term name : String} {confidence : Float}
    (h : ctx.resolvePhrase kind entity term confidence = .ok name) : ctx.HasEntry kind name := by
  unfold Context.resolvePhrase at h
  split at h
  · cases h
  · next best others hlookup =>
    rw [choose_eq_ok h]
    exact lookup_entry (hlookup ▸ List.mem_cons_self)

/-- What a mention of a kind means is an entry of the kind. -/
theorem resolve_entry {kind entity : EntityKind} {term name : String} {confidence : Float}
    {pinned : Option String} (h : ctx.resolve kind entity term confidence pinned = .ok name) :
    ctx.HasEntry kind name := by
  unfold Context.resolve at h
  split at h
  · exact resolvePhrase_entry h
  · split at h
    · next hexact =>
      cases h
      exact exactName?_entry hexact
    · split at h
      · next hphrase =>
        cases h
        exact resolvePhrase_entry hphrase
      · cases h

theorem resolveFieldPhrase_entry {entity prefer kind : EntityKind} {term name : String}
    {confidence : Float}
    (h : ctx.resolveFieldPhrase entity prefer term confidence = .ok (kind, name)) :
    ctx.HasEntry kind name := by
  unfold Context.resolveFieldPhrase at h
  simp only at h
  split at h
  · cases h
  · split at h
    · cases h
    · next best others hchosen =>
      obtain ⟨chosen, hchoose, hpair⟩ := map_eq_ok h
      obtain ⟨rfl, rfl⟩ := Prod.mk.inj hpair
      rw [choose_eq_ok hchoose]
      -- the candidates are those of the kind that was chosen
      have hkinds : ∀ p : EntityKind × List Candidate, p.2 = ctx.lookup p.1 term →
          p.2 = best :: others → ctx.HasEntry p.1 best.name := by
        intro p hp hbest
        have hmem : best ∈ p.2 := hbest ▸ List.mem_cons_self
        rw [hp] at hmem
        exact lookup_entry hmem
      refine hkinds _ ?_ hchosen
      split <;> simp only

/-- What a mention of either kind means is an entry of the kind that is told. -/
theorem resolveField_entry {entity prefer kind : EntityKind} {term name : String}
    {confidence : Float} {pinned : Option String}
    (h : ctx.resolveField entity prefer term confidence pinned = .ok (kind, name)) :
    ctx.HasEntry kind name := by
  unfold Context.resolveField at h
  split at h
  · exact resolveFieldPhrase_entry h
  · split at h
    · next hexact =>
      cases h
      obtain ⟨k, -, hk⟩ := List.exists_of_findSome?_eq_some hexact
      obtain ⟨found, hfound, hpair⟩ := Option.map_eq_some_iff.mp hk
      cases hpair
      exact exactName?_entry hfound
    · split at h
      · next hphrase =>
        cases h
        exact resolveFieldPhrase_entry hphrase
      · cases h

/-! ## Mentions without conflicts -/

open Draft

/-- A metric that is added without a conflict is there. -/
theorem includeMetric_resolved {d : Draft} (h : d.Sound ctx) {name term : String}
    {aggregation : Option Aggregation} {hidden : Bool} (hentry : ctx.HasEntry .metric name)
    (hnil : (ctx.includeMetric name term aggregation hidden d).conflicts = []) :
    name ∈ (ctx.includeMetric name term aggregation hidden d).names := by
  unfold Context.includeMetric at hnil ⊢
  obtain ⟨e, he, hin⟩ := (addMetric_spec _ name term aggregation hidden h (by omega)).2 hnil
  obtain ⟨e', -, hname, he'⟩ := hasEntry_metric hentry
  obtain rfl := Option.some.inj (he.symm.trans he')
  rw [hname] at hin
  exact hin

/-- A dimension that is added without a conflict is there. -/
theorem includeDimension_resolved {d : Draft} {kind : EntityKind} (hkind : kind ≠ .metric)
    {name term : String} (hentry : ctx.HasEntry kind name)
    (hnil : (ctx.includeDimension name term d).conflicts = []) :
    name ∈ (ctx.includeDimension name term d).dimensions.map (·.name) := by
  obtain ⟨e, -, hname, he⟩ := hasEntry_dimension hkind hentry
  unfold Context.includeDimension at hnil ⊢
  simp only [he] at hnil ⊢
  split
  · next hthere =>
    obtain ⟨x, hx, hxname⟩ := List.any_eq_true.mp hthere
    exact List.mem_map.mpr ⟨x, hx, (of_decide_eq_true hxname).trans hname⟩
  · next hnew =>
    rw [if_neg hnew] at hnil
    split
    · simp [hname]
    · next hfield =>
      simp only [hfield] at hnil
      exact absurd hnil (raise_conflicts _ _)

theorem foldl_raise_conflicts {cs : List Conflict} (hcs : cs ≠ []) (d : Draft) :
    (cs.foldl Draft.raise d).conflicts ≠ [] := by
  induction cs generalizing d with
  | nil => exact absurd rfl hcs
  | cons c cs ih =>
    rw [List.foldl_cons]
    cases cs with
    | nil => exact d.raise_conflicts c
    | cons c' cs => exact ih (List.cons_ne_nil _ _) _

/-- Without a conflict a filter has a target, and a metric that it looks at is in the draft. -/
theorem filterTarget_resolved {d : Draft} (h : d.Sound ctx) {f : FilterMention} {kind : EntityKind}
    {name : String} (hentry : ctx.HasEntry kind name)
    (hnil : (ctx.filterTarget f kind name d).1.conflicts = []) :
    ∃ target type, (ctx.filterTarget f kind name d).2 = some (target, type) ∧
      ∀ m, target = .metric m → m ∈ (ctx.filterTarget f kind name d).1.metrics := by
  unfold Context.filterTarget at hnil ⊢
  split
  · have hin := includeMetric_resolved h hentry hnil
    obtain ⟨m, hm⟩ := Option.isSome_iff_exists.mp (metric?_isSome.mpr hin)
    refine ⟨.metric m, m.type, by simp only [hm, Option.map_some], ?_⟩
    rintro _ ⟨⟩
    exact List.mem_of_find?_eq_some hm
  · next hkind =>
    obtain ⟨e, -, -, he⟩ := hasEntry_dimension hkind hentry
    simp only [he] at hnil ⊢
    split
    · exact ⟨_, _, rfl, nofun⟩
    · next hfield =>
      simp only [hfield] at hnil
      exact absurd hnil (raise_conflicts _ _)

/-- The draft with a warning if the word for the operator of a filter is not understood. -/
def Context.warnOperator (f : FilterMention) (d : Draft) : Draft :=
  if f.operator?.isNone then d.warn (.operator f.operator f.field) else d

theorem warnOperator_step {d : Draft} (h : d.Sound ctx) (f : FilterMention) :
    Step ctx d (Context.warnOperator f d) := by
  unfold Context.warnOperator
  split
  · exact .warn h _
  · exact .refl h

/-- The operator of a mentioned filter. -/
def Context.operatorOf (f : FilterMention) : Operator := f.operator?.getD .equals

/-- The filter of a mention, given its target and the type of that. -/
def Context.filterOf (f : FilterMention) (target : FilterTarget) (type : DataType) : ReportFilter :=
  ⟨f.field, target, type, operatorOf f,
    coercedValues f (valueType (operatorOf f) type), f.negated⟩

/-- What a filter that is mapped without a conflict becomes. -/
structure Context.MapsTo (ctx : Context) (f : FilterMention) (d : Draft) (kind : EntityKind)
    (name : String) (target : FilterTarget) (type : DataType) : Prop where
  resolved : ctx.resolveField .filter .dimension f.field f.confidence f.pinned = .ok (kind, name)
  found : ctx.filterTarget f kind name (warnOperator f d) =
    ((ctx.mapFilter f d).1, some (target, type))
  takes : (operatorOf f).takes f.value.toList.length = true
  values : valueConflicts f (valueType (operatorOf f) type) = []
  filter : (ctx.mapFilter f d).2 = some (filterOf f target type)

/-- The mapping of a filter whose mention means an entry. -/
theorem mapFilter_eq {f : FilterMention} {kind : EntityKind} {name : String}
    (hresolve : ctx.resolveField .filter .dimension f.field f.confidence f.pinned = .ok (kind, name))
    (d : Draft) : ctx.mapFilter f d =
      match ctx.filterTarget f kind name (Context.warnOperator f d) with
      | (d, none) => (d, none)
      | (d, some (target, type)) =>
        if !(Context.operatorOf f).takes f.value.toList.length then
          (d.raise (Context.arityConflict f (Context.operatorOf f)), none)
        else match Context.valueConflicts f (Context.valueType (Context.operatorOf f) type) with
          | [] => (d, some (Context.filterOf f target type))
          | cs => (cs.foldl Draft.raise d, none) := by
  unfold Context.mapFilter
  rw [hresolve]
  rfl

/-- Once a filter has looked for its target, it only raises conflicts. -/
theorem mapFilter_draft {f : FilterMention} {kind : EntityKind} {name : String}
    (hresolve : ctx.resolveField .filter .dimension f.field f.confidence f.pinned = .ok (kind, name))
    (d : Draft) : ∃ cs : List Conflict, (ctx.mapFilter f d).1 =
      cs.foldl Draft.raise (ctx.filterTarget f kind name (Context.warnOperator f d)).1 := by
  rw [mapFilter_eq hresolve]
  split
  · next hfound => exact ⟨[], by rw [hfound]; rfl⟩
  · next hfound =>
    rw [hfound]
    split
    · exact ⟨[_], rfl⟩
    · split
      · exact ⟨[], rfl⟩
      · exact ⟨_, rfl⟩

/-- A filter that leaves no conflict is mapped. -/
theorem mapFilter_cases {d : Draft} (h : d.Sound ctx) {f : FilterMention}
    (hnil : (ctx.mapFilter f d).1.conflicts = []) :
    ∃ kind name target type, ctx.MapsTo f d kind name target type := by
  cases hresolve : ctx.resolveField .filter .dimension f.field f.confidence f.pinned with
  | error c =>
    simp only [Context.mapFilter, hresolve] at hnil
    exact absurd hnil (raise_conflicts _ _)
  | ok entry =>
    obtain ⟨kind, name⟩ := entry
    have heq := mapFilter_eq hresolve d
    have htarget : (ctx.filterTarget f kind name (Context.warnOperator f d)).1.conflicts = [] → _ :=
      filterTarget_resolved (warnOperator_step h f).sound (resolveField_entry hresolve)
    generalize hfound : ctx.filterTarget f kind name (Context.warnOperator f d) = found at heq htarget
    obtain ⟨d', found⟩ := found
    cases found with
    | none =>
      simp only at heq
      rw [heq] at hnil
      obtain ⟨target, type, hnone, -⟩ := htarget hnil
      cases hnone
    | some found =>
      obtain ⟨target, type⟩ := found
      simp only at heq
      split at heq
      · rw [heq] at hnil
        exact absurd hnil (raise_conflicts _ _)
      · next htakes =>
        split at heq
        · next hvalues =>
          refine ⟨kind, name, target, type, hresolve, ?_, by simpa using htakes, hvalues, ?_⟩
          · rw [hfound, heq]
          · rw [heq]
        · next hvalues =>
          rw [heq] at hnil
          exact absurd hnil (foldl_raise_conflicts hvalues _)

/-- A metric that a mapped filter looks at is in the draft. -/
theorem Context.MapsTo.metric_mem {d : Draft} (h : d.Sound ctx) {f : FilterMention}
    {kind : EntityKind} {name : String} {target : FilterTarget} {type : DataType}
    (hmaps : ctx.MapsTo f d kind name target type) (hnil : (ctx.mapFilter f d).1.conflicts = [])
    {m : ReportMetric} (hm : target = .metric m) : m ∈ (ctx.mapFilter f d).1.metrics := by
  have htarget := filterTarget_resolved (f := f) (warnOperator_step h f).sound
    (resolveField_entry hmaps.resolved)
  rw [hmaps.found] at htarget
  obtain ⟨target', type', heq, hin⟩ := htarget hnil
  cases heq
  exact hin m hm

theorem mapFilters_cons (f : FilterMention) (fs : List FilterMention) (d : Draft) :
    ctx.mapFilters (f :: fs) d =
      ((ctx.mapFilters fs (ctx.mapFilter f d).1).1,
        ((ctx.mapFilter f d).2.map (f, ·)).toList ++
          (ctx.mapFilters fs (ctx.mapFilter f d).1).2) :=
  rfl

/-- Without a conflict every mentioned filter is mapped, and the metrics that they look at are in
the draft. -/
theorem mapFilters_resolved (fs : List FilterMention) {d : Draft} (h : d.Sound ctx)
    (hnil : (ctx.mapFilters fs d).1.conflicts = []) :
    (ctx.mapFilters fs d).2.map (·.1) = fs ∧
      ∀ x ∈ (ctx.mapFilters fs d).2, ∀ m, x.2.target = .metric m →
        m.name ∈ (ctx.mapFilters fs d).1.names := by
  induction fs generalizing d with
  | nil => exact ⟨rfl, by simp [Context.mapFilters]⟩
  | cons f fs ih =>
    rw [mapFilters_cons] at hnil ⊢
    have hstep := (mapFilter_spec h f).1
    have hrest := (mapFilters_spec fs hstep.sound).1
    have hnil' := hrest.grows.conflicts hnil
    obtain ⟨hmentions, hmetrics⟩ := ih hstep.sound hnil
    obtain ⟨kind, name, target, type, hmaps⟩ := mapFilter_cases h hnil'
    rw [hmaps.filter]
    refine ⟨congrArg (f :: ·) hmentions, List.forall_mem_cons.mpr ⟨fun m hm => ?_, hmetrics⟩⟩
    exact hrest.grows.names _ (List.mem_map_of_mem (hmaps.metric_mem h hnil' hm))

/-- Without a conflict a mentioned sort is mapped, and what it names is in the draft. -/
theorem mapSort_resolved {d : Draft} (h : d.Sound ctx) {s : SortMention}
    (hnil : (ctx.mapSort s d).1.conflicts = []) :
    ∃ x, (ctx.mapSort s d).2 = some x ∧ match x.target with
      | .metric name => name ∈ (ctx.mapSort s d).1.names
      | .dimension name => name ∈ (ctx.mapSort s d).1.dimensions.map (·.name) := by
  unfold Context.mapSort at hnil ⊢
  split
  · next c hresolve =>
    simp only [hresolve] at hnil
    exact absurd hnil (raise_conflicts _ _)
  · next kind name hresolve =>
    have hentry := resolveField_entry hresolve
    simp only [hresolve] at hnil
    split
    · exact ⟨_, rfl, includeMetric_resolved h hentry hnil⟩
    · next hkind =>
      refine ⟨_, rfl, includeDimension_resolved hkind hentry ?_⟩
      split at hnil
      · exact absurd rfl hkind
      · exact hnil

end Mapping

/-! ## Reports -/

/-- The name is that of a metric or dimension of the report. -/
def SortTarget.IsIn (r : Report) : SortTarget → Prop
  | metric name => name ∈ r.metrics.map (·.name)
  | dimension name => name ∈ r.dimensions.map (·.name)

/-- The metrics that the filters of the report look at. -/
def Report.filteredMetrics (r : Report) : List ReportMetric :=
  r.filters.filterMap fun f => match f.target with
    | .metric m => some m
    | .column _ => none

/-- What holds of the report of a request that leaves no conflict open. -/
structure Report.Resolved (ctx : Mapping.Context) (request : Request) (r : Report) : Prop where
  metrics_ordered : r.metrics.Pairwise (·.name < ·.name)
  dimensions_ordered : r.dimensions.Pairwise (·.name < ·.name)
  filtered : ∀ m ∈ r.filteredMetrics, m.name ∈ r.metrics.map (·.name)
  closed : ∀ m ∈ r.metrics ++ r.filteredMetrics, ∀ f, m.formula = some f → ∀ name ∈ f.names,
    name ∈ r.metrics.map (·.name)
  declared : ∀ f ∈ r.fields, ctx.schema.Declares f
  filter_count : r.filters.length = request.filters.length
  takes : ∀ f ∈ r.filters, f.operator.takes f.values.length = true
  sort : ∀ s, r.sort = some s → s.target.IsIn r

theorem Report.mem_filteredMetrics {r : Report} {m : ReportMetric} :
    m ∈ r.filteredMetrics ↔ ∃ f ∈ r.filters, f.target = .metric m := by
  unfold filteredMetrics
  rw [List.mem_filterMap]
  refine exists_congr fun f => and_congr_right fun _ => ?_
  cases f.target with
  | metric m' => simp
  | column c => simp

/-- Different names that are put in order ascend. -/
theorem pairwise_lt_mergeSort {α : Type} {key : α → String} {xs : List α}
    (h : (xs.map key).Nodup) :
    (xs.mergeSort fun a b => decide (key a ≤ key b)).Pairwise (key · < key ·) := by
  have hle : (xs.mergeSort fun a b => decide (key a ≤ key b)).Pairwise (key · ≤ key ·) := by
    refine (List.pairwise_mergeSort ?_ ?_ xs).imp of_decide_eq_true
    · intro a b c hab hbc
      exact decide_eq_true (String.le_trans (of_decide_eq_true hab) (of_decide_eq_true hbc))
    · intro a b
      simpa using String.le_total (key a) (key b)
  have hne : (xs.mergeSort fun a b => decide (key a ≤ key b)).Pairwise (key · ≠ key ·) :=
    List.pairwise_map.mp (((List.mergeSort_perm _ _).map key).nodup_iff.mpr h)
  refine (hle.and hne).imp fun ⟨hle, hne⟩ => ?_
  by_contra hlt
  exact hne (String.le_antisymm hle (String.not_lt.mp hlt))

namespace Mapping

open Draft

variable {ctx : Context} {request : Request}

theorem Context.IsMetric.declared {m : ReportMetric} (h : ctx.IsMetric m) {f : Field}
    (hf : m.field = some f) : ctx.schema.Declares f := by
  obtain ⟨e, -, -, -, -, hfield, -⟩ := h
  obtain ⟨g, -, hg⟩ := Option.bind_eq_some_iff.mp (hfield.symm.trans hf)
  exact Schema.canonical?_declares hg

/-- The fields of a mapped report are declared as they are written. -/
theorem map_declared (ctx : Context) (request : Request) :
    ∀ f ∈ (ctx.map request).report.fields, ctx.schema.Declares f := by
  have h := map_mapped ctx request
  intro f hf
  rcases List.mem_append.mp hf with hf | hf
  · rcases List.mem_append.mp hf with hf | hf
    · obtain ⟨m, hm, hf⟩ := List.mem_filterMap.mp hf
      exact (h.metrics m hm).declared hf
    · obtain ⟨x, hx, rfl⟩ := List.mem_map.mp hf
      obtain ⟨e, -, -, -, -, hfield⟩ := h.dimensions x hx
      exact Schema.canonical?_declares hfield
  · obtain ⟨x, hx, hf⟩ := List.mem_filterMap.mp hf
    have htarget := (h.filters x hx).target
    cases hx : x.target with
    | column c =>
      rw [hx] at htarget hf
      obtain ⟨e, -, hfield⟩ := htarget.1
      cases hf
      exact Schema.canonical?_declares hfield
    | metric m =>
      rw [hx] at htarget hf
      exact htarget.1.declared hf

/-- Without open conflicts, there is none at the stages of the mapping. -/
theorem stages_resolved (h : (ctx.map request).isResolved = true) :
    (ctx.filtersDraft request).1.conflicts = [] ∧ (ctx.sortedDraft request).1.conflicts = [] ∧
      ctx.finalDraft request = (ctx.sortedDraft request).1 := by
  have hfinal := isResolved_iff.mp h
  have hsorted := (finalDraft_step ctx request).grows.conflicts hfinal
  have hcompared := (sortedDraft_step ctx request).grows.conflicts hsorted
  refine ⟨(comparedDraft_step ctx request).grows.conflicts hcompared, hsorted, ?_⟩
  unfold Context.finalDraft at hfinal ⊢
  split
  · next hlacks =>
    rw [if_pos hlacks] at hfinal
    exact absurd hfinal (raise_conflicts _ _)
  · rfl

/-- A metric that a filter looks at is one of the metrics. -/
theorem map_filtered (h : (ctx.map request).isResolved = true) :
    ∀ m ∈ (ctx.map request).report.filteredMetrics,
      m.name ∈ (ctx.map request).report.metrics.map (·.name) := by
  intro m hm
  obtain ⟨f, hf, hm⟩ := Report.mem_filteredMetrics.mp hm
  rw [ctx.map_eq] at hf
  obtain ⟨x, hx, rfl⟩ := List.mem_map.mp (List.mem_mergeSort.mp hf)
  have hfilters := (mapFilters_resolved request.filters (dimensionsDraft_step ctx request).sound
    (stages_resolved h).1).2 x hx m hm
  have hgrows := (comparedDraft_step ctx request).trans <| (sortedDraft_step ctx request).trans <|
    finalDraft_step ctx request
  exact mem_map_names.mpr (hgrows.grows.names _ hfilters)

/-- What the report is sorted by is part of it. -/
theorem map_sort (h : (ctx.map request).isResolved = true) {s : ReportSort}
    (hs : (ctx.map request).report.sort = some s) : s.target.IsIn (ctx.map request).report := by
  obtain ⟨-, hnil, hfinal⟩ := stages_resolved h
  have hmetric : ∀ name, name ∈ (ctx.sortedDraft request).1.names →
      name ∈ (ctx.map request).report.metrics.map (·.name) :=
    fun name hname => mem_map_names.mpr (hfinal ▸ hname)
  have hdimension : ∀ name, name ∈ (ctx.sortedDraft request).1.dimensions.map (·.name) →
      name ∈ (ctx.map request).report.dimensions.map (·.name) := by
    intro name hname
    rw [ctx.map_eq, hfinal]
    exact ((List.mergeSort_perm _ _).map _).mem_iff.mpr hname
  have hsort : (ctx.sortedDraft request).2 = some s := by
    rw [ctx.map_eq] at hs
    exact hs
  unfold Context.sortedDraft at hsort hnil hmetric hdimension
  split at hsort
  · next mention hmention =>
    simp only [hmention] at hnil hmetric hdimension
    obtain ⟨x, hx, hin⟩ := mapSort_resolved (comparedDraft_step ctx request).sound hnil
    obtain rfl := Option.some.inj (hx.symm.trans hsort)
    cases htarget : x.target with
    | metric name =>
      rw [htarget] at hin
      exact hmetric name hin
    | dimension name =>
      rw [htarget] at hin
      exact hdimension name hin
  · -- without a mention, by the first metric that is shown
    next hmention =>
    simp only [hmention] at hmetric
    obtain ⟨name, hname, rfl⟩ := Option.map_eq_some_iff.mp hsort
    obtain ⟨m, hm, rfl⟩ := Option.map_eq_some_iff.mp hname
    have hgrows := (dimensionsDraft_step ctx request).trans <|
      (filtersDraft_step ctx request).trans (comparedDraft_step ctx request)
    exact hmetric m.name (hgrows.grows.names _ (List.mem_map_of_mem (List.mem_of_find?_eq_some hm)))

/-- The report of a request that leaves no conflict open is closed, in order and spelled as the
schema declares it, and nothing of the request is lost. -/
theorem map_resolved (h : (ctx.map request).isResolved = true) :
    (ctx.map request).report.Resolved ctx request := by
  have hmapped := map_mapped ctx request
  have hclosed := map_closed h
  constructor
  case metrics_ordered =>
    rw [ctx.map_eq]
    exact pairwise_lt_mergeSort (finalDraft_spec ctx request).1.sound.names_differ
  case dimensions_ordered =>
    rw [ctx.map_eq]
    exact pairwise_lt_mergeSort (finalDraft_spec ctx request).1.sound.dimensions_differ
  case filtered => exact map_filtered h
  case closed =>
    intro m hm f hf
    rcases List.mem_append.mp hm with hm | hm
    · exact hclosed m hm f hf
    · -- the metric of the report with the name has the same formula
      obtain ⟨x, hx, hxm⟩ := Report.mem_filteredMetrics.mp hm
      obtain ⟨n, hn, hname⟩ := List.mem_map.mp (map_filtered h m hm)
      have htarget := (hmapped.filters x hx).target
      rw [hxm] at htarget
      obtain ⟨hformula, -, -⟩ := htarget.1.of_name (hmapped.metrics n hn) hname.symm
      exact hclosed n hn f (hformula.symm.trans hf)
  case declared => exact map_declared ctx request
  case filter_count =>
    have hfilters := (mapFilters_resolved request.filters (dimensionsDraft_step ctx request).sound
      (stages_resolved h).1).1
    have hlength := congrArg List.length hfilters
    rw [List.length_map] at hlength
    rw [ctx.map_eq]
    simp only [List.length_mergeSort, List.length_map]
    exact hlength
  case takes => exact fun f hf => (hmapped.filters f hf).count
  case sort => exact fun s hs => map_sort h hs

end Mapping

end MetricLayer
