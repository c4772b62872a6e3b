import MetricLayer.Proofs.Report.Standing

/-!
# What the mentions of a request do

Every part of a request does three things to the draft, or else it raises a conflict: it mentions
metrics, needs metrics that are not shown, and adds dimensions. Its `Effect` says which, and whether
there is a conflict does not depend on the draft either. `Draft.Does` says that a step has an effect;
the effects of steps that follow each other are put together.

Results:
1. `Does.trans` and `Does.foldl`: the effects of steps that follow each other.
2. `addMetricMention_does`, `addDimensionMention_does`, `mapFilter_does` and `mapSort_does`: the
   effects of the mentions of a request.
-/

namespace MetricLayer

namespace Mapping

open Draft

variable {ctx : Context}

/-! ## Effects -/

/-- What a part of a request does to the draft. -/
structure Effect where
  /-- The metrics that are mentioned, with the aggregations that are named, in order. -/
  mentions : List (String × Option Aggregation) := []
  /-- The metrics that are needed without being shown. -/
  needed : List String := []
  dimensions : List String := []

namespace Effect

/-- The metrics, shown or not. -/
def metrics (e : Effect) : List String := e.mentions.map (·.1) ++ e.needed

/-- The aggregations that are named for a metric, in order. -/
def mentionsOf (e : Effect) (name : String) : List (Option Aggregation) :=
  (e.mentions.filter (·.1 = name)).map (·.2)

/-- The one effect after the other. -/
instance : Append Effect :=
  ⟨fun a b => ⟨a.mentions ++ b.mentions, a.needed ++ b.needed, a.dimensions ++ b.dimensions⟩⟩

/-- The effects one after the other. -/
def flat (es : List Effect) : Effect :=
  ⟨es.flatMap (·.mentions), es.flatMap (·.needed), es.flatMap (·.dimensions)⟩

theorem mem_metrics_append {a b : Effect} {name : String} :
    name ∈ (a ++ b).metrics ↔ name ∈ a.metrics ∨ name ∈ b.metrics := by
  show name ∈ (a.mentions ++ b.mentions).map _ ++ (a.needed ++ b.needed) ↔ _
  simp only [metrics, List.map_append, List.mem_append]
  tauto

theorem mentionsOf_append (a b : Effect) (name : String) :
    (a ++ b).mentionsOf name = a.mentionsOf name ++ b.mentionsOf name := by
  show (List.filter _ (a.mentions ++ b.mentions)).map _ = _
  rw [List.filter_append, List.map_append]
  rfl

theorem empty_append (e : Effect) : {} ++ e = e := rfl

theorem append_empty (e : Effect) : e ++ {} = e := by
  show Effect.mk (e.mentions ++ []) (e.needed ++ []) (e.dimensions ++ []) = e
  rw [List.append_nil, List.append_nil, List.append_nil]

theorem flat_cons (e : Effect) (es : List Effect) : flat (e :: es) = e ++ flat es := rfl

end Effect

namespace Draft

/-- The names of the dimensions. -/
def dimensionNames (d : Draft) : List String := d.dimensions.map (·.name)

/-- The step raises a conflict unless its part of the request fits, and has the effect if there is
none. -/
structure Does (ctx : Context) (e : Effect) (fits : Prop) (d d' : Draft) : Prop where
  conflicts : d'.conflicts = [] ↔ d.conflicts = [] ∧ fits
  metrics : d'.conflicts = [] →
    ∀ n, n ∈ d'.names ↔ n ∈ d.names ∨ ∃ root ∈ e.metrics, ctx.Needs root n
  dimensions : d'.conflicts = [] →
    ∀ n, n ∈ d'.dimensionNames ↔ n ∈ d.dimensionNames ∨ n ∈ e.dimensions
  standing : d'.conflicts = [] →
    ∀ n, ctx.standing d' n = (e.mentionsOf n).foldl Context.mentioned (ctx.standing d n)

namespace Does

variable {d d' d'' : Draft} {e e' : Effect} {fits fits' : Prop}

/-- A step that leaves the parts and the conflicts as they are. -/
theorem same (hconflicts : d'.conflicts = d.conflicts) (hmetrics : d'.metrics = d.metrics)
    (hdimensions : d'.dimensions = d.dimensions) : Does ctx {} True d d' where
  conflicts := by rw [hconflicts, and_true]
  metrics _ n := by simp [names, hmetrics, Effect.metrics]
  dimensions _ n := by simp [dimensionNames, hdimensions]
  standing _ n := by
    show ctx.standing d' n = ctx.standing d n
    rw [Context.standing, Context.standing, metric?, metric?, hmetrics]

/-- A step that ends in a conflict, as it should. -/
theorem failed (hd' : d'.conflicts ≠ []) (hfits : d.conflicts = [] → ¬ fits) :
    Does ctx e fits d d' where
  conflicts := ⟨fun hnil => absurd hnil hd', fun ⟨hnil, h⟩ => absurd h (hfits hnil)⟩
  metrics hnil := absurd hnil hd'
  dimensions hnil := absurd hnil hd'
  standing hnil := absurd hnil hd'

theorem raise (c : Conflict) (hfits : ¬ fits) : Does ctx e fits d (d.raise c) :=
  failed (d.raise_conflicts c) fun _ => hfits

/-- The step fits in other words. -/
theorem congr (h : Does ctx e fits d d') (hfits : d.conflicts = [] → (fits ↔ fits')) :
    Does ctx e fits' d d' where
  conflicts := h.conflicts.trans (and_congr_right hfits)
  metrics := h.metrics
  dimensions := h.dimensions
  standing := h.standing

theorem trans (h : Does ctx e fits d d') (h' : Does ctx e' fits' d' d'') :
    Does ctx (e ++ e') (fits ∧ fits') d d'' := by
  have hnil : d''.conflicts = [] → d'.conflicts = [] := fun hnil => (h'.conflicts.mp hnil).1
  constructor
  case conflicts => rw [h'.conflicts, h.conflicts, and_assoc]
  case metrics =>
    intro hnil'' n
    rw [h'.metrics hnil'', h.metrics (hnil hnil''), or_assoc]
    simp only [Effect.mem_metrics_append, or_and_right, exists_or]
  case dimensions =>
    intro hnil'' n
    show _ ↔ _ ∨ n ∈ e.dimensions ++ e'.dimensions
    rw [h'.dimensions hnil'', h.dimensions (hnil hnil''), or_assoc, List.mem_append]
  case standing =>
    intro hnil'' n
    rw [h'.standing hnil'', h.standing (hnil hnil''), Effect.mentionsOf_append, List.foldl_append]

/-- Steps that follow each other have their effects one after the other. -/
theorem foldl {α : Type} {f : Draft → α → Draft} {effect : α → Effect} {fits : α → Prop}
    (hstep : ∀ d x, d.Sound ctx → Step ctx d (f d x))
    (hdoes : ∀ d x, d.Sound ctx → d.ClosedBut [] → Does ctx (effect x) (fits x) d (f d x))
    {d : Draft} (hd : d.Sound ctx) (hclosed : d.ClosedBut []) (xs : List α) :
    Does ctx (.flat (xs.map effect)) (∀ x ∈ xs, fits x) d (xs.foldl f d) := by
  induction xs generalizing d with
  | nil => exact (same rfl rfl rfl).congr fun _ => by simp
  | cons x xs ih =>
    have hfirst := hstep d x hd
    have hrest := ih hfirst.sound (hfirst.closed [] hclosed)
    rw [List.map_cons, Effect.flat_cons]
    exact ((hdoes d x hd hclosed).trans hrest).congr fun _ => List.forall_mem_cons.symm

end Does

end Draft

/-! ## The effects of mentions -/

theorem includeMetric_shown {d : Draft} (h : d.Sound ctx) (hclosed : d.ClosedBut [])
    {name : String} (hentry : ctx.HasEntry .metric name) (term : String)
    (aggregation : Option Aggregation) :
    Does ctx { mentions := [(name, aggregation)] } (ctx.IsComplete name) d
      (ctx.includeMetric name term aggregation false d) := by
  have hconflicts := includeMetric_conflicts h hclosed hentry term aggregation false
  constructor
  case conflicts => exact hconflicts
  case metrics =>
    intro hnil n
    rw [includeMetric_names h hclosed hentry hnil]
    simp [Effect.metrics]
  case dimensions =>
    intro _ n
    rw [dimensionNames, Context.includeMetric, addMetric_dimensions]
    simp [dimensionNames]
  case standing =>
    intro hnil n
    obtain ⟨e, he, rfl, hfield⟩ := (hconflicts.mp hnil).2 name (.self name)
    rw [Context.includeMetric, addMetric_standing_shown _ he hfield]
    by_cases hn : n = e.definition.name <;> simp [Effect.mentionsOf, hn, eq_comm]

theorem includeMetric_hidden {d : Draft} (h : d.Sound ctx) (hclosed : d.ClosedBut [])
    {name : String} (hentry : ctx.HasEntry .metric name) (term : String) :
    Does ctx { needed := [name] } (ctx.IsComplete name) d
      (ctx.includeMetric name term none true d) := by
  constructor
  case conflicts => exact includeMetric_conflicts h hclosed hentry term none true
  case metrics =>
    intro hnil n
    rw [includeMetric_names h hclosed hentry hnil]
    simp [Effect.metrics]
  case dimensions =>
    intro _ n
    rw [dimensionNames, Context.includeMetric, addMetric_dimensions]
    simp [dimensionNames]
  case standing =>
    intro _ n
    obtain ⟨e, he, rfl, -⟩ := hasEntry_metric hentry
    exact addMetric_standing_hidden _ he term d n

/-- Whether a dimension is added does not depend on the draft. -/
theorem includeDimension_does {d : Draft} (h : d.Sound ctx) {kind : EntityKind}
    (hkind : kind ≠ .metric) {name : String} (hentry : ctx.HasEntry kind name) (term : String) :
    Does ctx { dimensions := [name] } (ctx.HasColumn name) d (ctx.includeDimension name term d) := by
  obtain ⟨e, hmem, rfl, he⟩ := hasEntry_dimension hkind hentry
  unfold Context.includeDimension
  simp only [he]
  split
  · next hthere =>
    -- it is there, so its field was found before
    obtain ⟨x, hx, hname⟩ := List.any_eq_true.mp hthere
    have hname : x.name = e.definition.name := of_decide_eq_true hname
    obtain ⟨e', he', hename, -, -, hfield⟩ := h.dimensions x hx
    obtain rfl := Dictionary.dimension_eq he' hmem (hename.trans hname)
    have hcolumn : ctx.HasColumn e'.definition.name := ⟨e', he, by rw [hfield]; rfl⟩
    have hin : e'.definition.name ∈ d.dimensionNames := hname ▸ List.mem_map_of_mem hx
    constructor
    case conflicts => simp [hcolumn]
    case metrics => exact fun _ n => by simp [Effect.metrics]
    case dimensions =>
      intro _ n
      simp only [List.mem_singleton]
      exact ⟨.inl, fun hn => hn.elim id fun hn => hn ▸ hin⟩
    case standing => exact fun _ n => rfl
  · split
    · next field hfield =>
      have hcolumn : ctx.HasColumn e.definition.name := ⟨e, he, by rw [hfield]; rfl⟩
      constructor
      case conflicts => simp [hcolumn]
      case metrics => exact fun _ n => by simp [Effect.metrics, names]
      case dimensions => exact fun _ n => by simp [dimensionNames]
      case standing => exact fun _ n => rfl
    · next hnone =>
      refine .raise _ ?_
      rintro ⟨e', he', hsome⟩
      obtain rfl := Option.some.inj (he.symm.trans he')
      rw [hnone] at hsome
      cases hsome

namespace Context

/-- What the mention of a metric does. -/
def metricEffect (ctx : Context) (m : MetricMention) : Effect :=
  match ctx.resolve .metric .metric m.name m.confidence m.pinned with
  | .ok name => { mentions := [(name, m.aggregation)] }
  | .error _ => {}

/-- The mention means a metric that is complete. -/
def MetricFits (ctx : Context) (m : MetricMention) : Prop :=
  ∃ name, ctx.resolve .metric .metric m.name m.confidence m.pinned = .ok name ∧
    ctx.IsComplete name

/-- What the mention of a dimension does. -/
def dimensionEffect (ctx : Context) (x : DimensionMention) : Effect :=
  match ctx.resolve .dimension .dimension x.name x.confidence x.pinned with
  | .ok name => { dimensions := [name] }
  | .error _ => {}

/-- The mention means a dimension with a column. -/
def DimensionFits (ctx : Context) (x : DimensionMention) : Prop :=
  ∃ name, ctx.resolve .dimension .dimension x.name x.confidence x.pinned = .ok name ∧
    ctx.HasColumn name

/-- The type of a column, as the schema tells it. -/
def columnType (ctx : Context) (c : Field) : DataType :=
  ((ctx.schema.column? c).map (·.type)).getD .unknown

/-- The entry can be looked at, and its values have the type. -/
inductive TargetFits (ctx : Context) : EntityKind → String → DataType → Prop
  | metric {name : String} {e : MetricEntry} : ctx.dictionary.metric? name = some e →
      ctx.IsComplete name → TargetFits ctx .metric name e.definition.type
  | column {kind : EntityKind} {name : String} {e : DimensionEntry} {c : Field} :
      kind ≠ .metric → ctx.dictionary.dimension? name = some e →
        ctx.schema.canonical? e.definition.field = some c →
          TargetFits ctx kind name (ctx.columnType c)

/-- What it does to look at an entry. -/
def targetEffect (kind : EntityKind) (name : String) : Effect :=
  match kind with
  | .metric => { needed := [name] }
  | _ => {}

/-- What the mention of a filter does. -/
def filterEffect (ctx : Context) (f : FilterMention) : Effect :=
  match ctx.resolveField .filter .dimension f.field f.confidence f.pinned with
  | .ok (kind, name) => targetEffect kind name
  | .error _ => {}

/-- The mention means an entry that can be looked at, and has values for it. -/
def FilterFits (ctx : Context) (f : FilterMention) : Prop :=
  ∃ kind name type,
    ctx.resolveField .filter .dimension f.field f.confidence f.pinned = .ok (kind, name) ∧
      ctx.TargetFits kind name type ∧ (operatorOf f).takes f.value.toList.length = true ∧
        valueConflicts f (valueType (operatorOf f) type) = []

/-- What the mention of a sort does. -/
def sortEffect (ctx : Context) (s : SortMention) : Effect :=
  match ctx.resolveField .sort .metric s.field 1 none with
  | .ok (.metric, name) => { mentions := [(name, none)] }
  | .ok (_, name) => { dimensions := [name] }
  | .error _ => {}

/-- The mention means an entry that can be sorted by. -/
def SortFits (ctx : Context) (s : SortMention) : Prop :=
  ∃ kind name type, ctx.resolveField .sort .metric s.field 1 none = .ok (kind, name) ∧
    ctx.TargetFits kind name type

theorem targetFits_metric {name : String} :
    (∃ type, ctx.TargetFits .metric name type) ↔ ctx.IsComplete name := by
  constructor
  · rintro ⟨_, hfits⟩
    cases hfits with
    | metric _ hcomplete => exact hcomplete
    | column hkind => exact absurd rfl hkind
  · intro hcomplete
    obtain ⟨e, he, rfl, -⟩ := hcomplete name (.self name)
    exact ⟨_, .metric (Dictionary.metric?_of_mem he) hcomplete⟩

theorem targetFits_column {kind : EntityKind} (hkind : kind ≠ .metric) {name : String} :
    (∃ type, ctx.TargetFits kind name type) ↔ ctx.HasColumn name := by
  constructor
  · rintro ⟨_, hfits⟩
    cases hfits with
    | metric => exact absurd rfl hkind
    | column _ he hc => exact ⟨_, he, by rw [hc]; rfl⟩
  · rintro ⟨e, he, hsome⟩
    obtain ⟨c, hc⟩ := Option.isSome_iff_exists.mp hsome
    exact ⟨_, .column hkind he hc⟩

/-- An entry has values of one type. -/
theorem TargetFits.type_eq {kind : EntityKind} {name : String} {type type' : DataType}
    (h : ctx.TargetFits kind name type) (h' : ctx.TargetFits kind name type') : type = type' := by
  cases h with
  | metric he =>
    cases h' with
    | metric he' => rw [Option.some.inj (he.symm.trans he')]
    | column hkind => exact absurd rfl hkind
  | column hkind he hc =>
    cases h' with
    | metric => exact absurd rfl hkind
    | column _ he' hc' =>
      obtain rfl := Option.some.inj (he.symm.trans he')
      rw [Option.some.inj (hc.symm.trans hc')]

end Context

theorem addMetricMention_does {d : Draft} (h : d.Sound ctx) (hclosed : d.ClosedBut [])
    (m : MetricMention) :
    Does ctx (ctx.metricEffect m) (ctx.MetricFits m) d (ctx.addMetricMention d m) := by
  unfold Context.metricEffect Context.MetricFits Context.addMetricMention
  cases hresolve : ctx.resolve .metric .metric m.name m.confidence m.pinned with
  | error c => exact .raise c (by simp)
  | ok name =>
    exact (includeMetric_shown h hclosed (resolve_entry hresolve) m.name m.aggregation).congr
      fun _ => by simp

theorem addDimensionMention_does {d : Draft} (h : d.Sound ctx) (x : DimensionMention) :
    Does ctx (ctx.dimensionEffect x) (ctx.DimensionFits x) d (ctx.addDimensionMention d x) := by
  unfold Context.dimensionEffect Context.DimensionFits Context.addDimensionMention
  cases hresolve : ctx.resolve .dimension .dimension x.name x.confidence x.pinned with
  | error c => exact .raise c (by simp)
  | ok name =>
    exact (includeDimension_does h (by decide) (resolve_entry hresolve) x.name).congr
      fun _ => by simp

/-- A filter that looks at a dimension leaves the draft as it is, unless the schema lacks the field. -/
theorem filterTarget_column {kind : EntityKind} (hkind : kind ≠ .metric) {name : String}
    {e : DimensionEntry} (he : ctx.dictionary.dimension? name = some e) (f : FilterMention)
    (d : Draft) : ctx.filterTarget f kind name d =
      match ctx.schema.canonical? e.definition.field with
      | some field => (d, some (.column field, ctx.columnType field))
      | none =>
        (d.raise (.make .unknown .filter f.field
          ("Dimension '" ++ name ++ "' uses " ++ e.definition.field.text ++
            ", which is not in the schema") [] none), none) := by
  unfold Context.filterTarget
  split
  · exact absurd rfl hkind
  · rw [he]
    rfl

/-- The target that a filter finds is a metric of the draft or the column of a dimension. -/
theorem filterTarget_found {f : FilterMention} {kind : EntityKind} {name : String} {d : Draft}
    {target : FilterTarget} {type : DataType}
    (h : (ctx.filterTarget f kind name d).2 = some (target, type)) :
    (∃ m, kind = .metric ∧ (ctx.filterTarget f kind name d).1.metric? name = some m ∧
        target = .metric m ∧ type = m.type) ∨
      ∃ e c, kind ≠ .metric ∧ ctx.dictionary.dimension? name = some e ∧
        ctx.schema.canonical? e.definition.field = some c ∧
        target = .column c ∧ type = ctx.columnType c := by
  by_cases hkind : kind = .metric
  · subst hkind
    obtain ⟨m, hm, hpair⟩ := Option.map_eq_some_iff.mp h
    cases hpair
    exact .inl ⟨m, rfl, hm, rfl, rfl⟩
  · cases he : ctx.dictionary.dimension? name with
    | none =>
      have hnone : (ctx.filterTarget f kind name d).2 = none := by
        cases kind <;> first | exact absurd rfl hkind | simp only [Context.filterTarget, he]
      rw [hnone] at h
      cases h
    | some e =>
      rw [filterTarget_column hkind he] at h
      split at h
      · next c hc =>
        cases h
        exact .inr ⟨e, c, hkind, rfl, hc, rfl, rfl⟩
      · cases h

/-- A filter looks at an entry. -/
theorem filterTarget_does {d : Draft} (h : d.Sound ctx) (hclosed : d.ClosedBut [])
    (f : FilterMention) {kind : EntityKind} {name : String} (hentry : ctx.HasEntry kind name) :
    Does ctx (Context.targetEffect kind name) (∃ type, ctx.TargetFits kind name type) d
        (ctx.filterTarget f kind name d).1 ∧
      ((ctx.filterTarget f kind name d).1.conflicts = [] → ∀ target type,
        (ctx.filterTarget f kind name d).2 = some (target, type) →
          ctx.TargetFits kind name type) := by
  by_cases hkind : kind = .metric
  · subst hkind
    have hdoes := includeMetric_hidden h hclosed hentry f.field
    refine ⟨hdoes.congr fun _ => Context.targetFits_metric.symm, fun hnil target type heq => ?_⟩
    obtain ⟨m, hm, heq⟩ := Option.map_eq_some_iff.mp heq
    cases heq
    have hsound := (Step.includeMetric h name f.field none true).sound
    obtain ⟨e, he, hename, -, htype, -⟩ := hsound.metrics m (List.mem_of_find?_eq_some hm)
    obtain rfl := hename.trans (metric?_name hm)
    rw [htype]
    exact .metric (Dictionary.metric?_of_mem he) (hdoes.conflicts.mp hnil).2
  · obtain ⟨e, -, -, he⟩ := hasEntry_dimension hkind hentry
    have heffect : Context.targetEffect kind name = {} := by
      cases kind <;> first | rfl | exact absurd rfl hkind
    rw [heffect, filterTarget_column hkind he]
    cases hc : ctx.schema.canonical? e.definition.field with
    | some c =>
      have hfits : ctx.TargetFits kind name (ctx.columnType c) := .column hkind he hc
      refine ⟨(Does.same rfl rfl rfl).congr fun _ => ?_, fun _ target type heq => ?_⟩
      · simp only [true_iff]
        exact ⟨_, hfits⟩
      · cases heq
        exact hfits
    | none =>
      refine ⟨.raise _ ?_, fun _ target type heq => by cases heq⟩
      rw [Context.targetFits_column hkind]
      rintro ⟨e', he', hsome⟩
      obtain rfl := Option.some.inj (he.symm.trans he')
      rw [hc] at hsome
      cases hsome

theorem warnOperator_does (f : FilterMention) (d : Draft) :
    Does ctx {} True d (Context.warnOperator f d) := by
  unfold Context.warnOperator
  split <;> exact .same rfl rfl rfl

theorem mapFilter_does {d : Draft} (h : d.Sound ctx) (hclosed : d.ClosedBut [])
    (f : FilterMention) :
    Does ctx (ctx.filterEffect f) (ctx.FilterFits f) d (ctx.mapFilter f d).1 := by
  unfold Context.filterEffect Context.FilterFits
  cases hresolve : ctx.resolveField .filter .dimension f.field f.confidence f.pinned with
  | error c =>
    simp only [Context.mapFilter, hresolve]
    exact .raise c (by simp)
  | ok entry =>
    obtain ⟨kind, name⟩ := entry
    have hentry := resolveField_entry hresolve
    have hwarn := warnOperator_step h f
    obtain ⟨htarget, hfits⟩ := filterTarget_does hwarn.sound (hwarn.closed [] hclosed) f hentry
    have hfound := filterTarget_resolved (f := f) hwarn.sound hentry
    have hdoes := (warnOperator_does f d).trans htarget
    rw [mapFilter_eq hresolve]
    generalize ctx.filterTarget f kind name (Context.warnOperator f d) = found at *
    obtain ⟨d', found⟩ := found
    -- where the target fits, the draft has no conflict yet
    have hnil : d.conflicts = [] → ∀ type, ctx.TargetFits kind name type → d'.conflicts = [] :=
      fun hnil type hfits => hdoes.conflicts.mpr ⟨hnil, trivial, type, hfits⟩
    simp only [Except.ok.injEq, Prod.mk.injEq]
    cases found with
    | none =>
      have hd' : d'.conflicts ≠ [] := by
        intro hd'
        obtain ⟨target, type, hnone, -⟩ := hfound hd'
        cases hnone
      refine .failed hd' fun hd => ?_
      rintro ⟨_, _, type, ⟨rfl, rfl⟩, htype, -⟩
      exact hd' (hnil hd type htype)
    | some found =>
      obtain ⟨target, type⟩ := found
      simp only
      split
      · next htakes =>
        refine .failed (raise_conflicts _ _) fun _ => ?_
        rintro ⟨_, _, _, -, -, htakes', -⟩
        rw [htakes'] at htakes
        cases htakes
      · next htakes =>
        have htakes : (Context.operatorOf f).takes f.value.toList.length = true := by
          simpa using htakes
        split
        · next hvalues =>
          constructor
          case conflicts =>
            constructor
            · intro hd'
              exact ⟨(hdoes.conflicts.mp hd').1, kind, name, type, ⟨rfl, rfl⟩,
                hfits hd' target type rfl, htakes, hvalues⟩
            · rintro ⟨hd, _, _, type, ⟨rfl, rfl⟩, htype, -⟩
              exact hnil hd type htype
          case metrics => exact hdoes.metrics
          case dimensions => exact hdoes.dimensions
          case standing => exact hdoes.standing
        · next hvalues =>
          refine .failed (foldl_raise_conflicts hvalues d') fun hd => ?_
          rintro ⟨_, _, type', ⟨rfl, rfl⟩, htype, -, hvalues'⟩
          have htypes := (hfits (hnil hd type' htype) target type rfl).type_eq htype
          exact hvalues (htypes ▸ hvalues')

theorem mapFilters_fst (fs : List FilterMention) (d : Draft) :
    (ctx.mapFilters fs d).1 = fs.foldl (fun d f => (ctx.mapFilter f d).1) d := by
  induction fs generalizing d with
  | nil => rfl
  | cons f fs ih => rw [mapFilters_cons, List.foldl_cons, ih]

theorem mapSort_does {d : Draft} (h : d.Sound ctx) (hclosed : d.ClosedBut []) (s : SortMention) :
    Does ctx (ctx.sortEffect s) (ctx.SortFits s) d (ctx.mapSort s d).1 := by
  unfold Context.sortEffect Context.SortFits Context.mapSort
  cases hresolve : ctx.resolveField .sort .metric s.field 1 none with
  | error c => exact .raise c (by simp)
  | ok entry =>
    obtain ⟨kind, name⟩ := entry
    have hentry := resolveField_entry hresolve
    have hfits : (∃ kind' name' type, (Except.ok (kind, name) : Except Conflict _) =
        .ok (kind', name') ∧ ctx.TargetFits kind' name' type) ↔
          ∃ type, ctx.TargetFits kind name type := by
      simp
    rw [hfits]
    cases kind
    case metric =>
      exact (includeMetric_shown h hclosed hentry s.field none).congr
        fun _ => Context.targetFits_metric.symm
    all_goals
      exact (includeDimension_does h (by decide) hentry s.field).congr
        fun _ => (Context.targetFits_column (by decide)).symm

end Mapping

end MetricLayer
