import Mathlib.Data.List.Perm.Subperm
import MetricLayer.Proofs.Vocabulary.Dictionary
import MetricLayer.Report.Mapping

/-!
# Drafts of reports

What holds of a draft while the parts of a report are collected. `Draft.Sound` ties its metrics and
dimensions to entries of the dictionary. `Draft.ClosedBut` says that everything that a metric is
calculated from is there too, apart from the metrics whose references are still being added, as long
as no conflict was raised. `Draft.Grows` is what every step does.

A request is mapped part by part: reported conflicts, metrics, dimensions, filters, filters that
exclude each other, the sort, a metric that is missing. Each stage hands its draft to the next one,
and a conflict that was raised stays, so a request without open conflicts has none at any stage.

Results:
1. `addMetric_spec`: a metric is added with everything that it is calculated from.
2. `Step.mapFilters`, `Step.mapSort` and the like: every part of a request keeps the draft sound and
   closed.
3. `Context.map_eq`: the outcome of a mapping in terms of its stages.
4. `finalDraft_spec`: every stage leaves the draft as it should be.
-/

namespace MetricLayer

namespace Mapping

variable {ctx : Context}

/-! ## What a draft holds -/

/-- The metric is that of an entry, with its field in the spelling of the schema. -/
def Context.IsMetric (ctx : Context) (m : ReportMetric) : Prop :=
  ∃ e ∈ ctx.dictionary.metrics, e.definition.name = m.name ∧ m.formula = e.formula ∧
    m.type = e.definition.type ∧ m.field = e.definition.field.bind ctx.schema.canonical? ∧
      (e.definition.field.isSome = true → m.field.isSome = true)

/-- The dimension is that of an entry, with its field in the spelling of the schema. -/
def Context.IsDimension (ctx : Context) (x : ReportDimension) : Prop :=
  ∃ e ∈ ctx.dictionary.dimensions, e.definition.name = x.name ∧ x.grain = e.definition.grain ∧
    x.isDate = e.definition.isDate ∧ ctx.schema.canonical? e.definition.field = some x.field

namespace Draft

/-- The names of the metrics. -/
def names (d : Draft) : List String := d.metrics.map (·.name)

/-- The metrics and dimensions are those of entries, each once. -/
structure Sound (ctx : Context) (d : Draft) : Prop where
  metrics : ∀ m ∈ d.metrics, ctx.IsMetric m
  names_differ : d.names.Nodup
  dimensions : ∀ x ∈ d.dimensions, ctx.IsDimension x
  dimensions_differ : (d.dimensions.map (·.name)).Nodup

/-- What the metrics are calculated from is there, apart from that of the metrics in `pending`, as
long as there is no conflict. -/
def ClosedBut (pending : List String) (d : Draft) : Prop :=
  d.conflicts = [] → ∀ m ∈ d.metrics, m.name ∉ pending → ∀ f, m.formula = some f →
    ∀ name ∈ f.names, name ∈ d.names

/-- Nothing is taken away, and a conflict stays. -/
structure Grows (d d' : Draft) : Prop where
  names : ∀ name ∈ d.names, name ∈ d'.names
  conflicts : d'.conflicts = [] → d.conflicts = []
  count : d.metrics.length ≤ d'.metrics.length

theorem Grows.refl (d : Draft) : Grows d d := ⟨fun _ => id, id, Nat.le_refl _⟩

theorem Grows.trans {a b c : Draft} (hab : Grows a b) (hbc : Grows b c) : Grows a c :=
  ⟨fun name h => hbc.names name (hab.names name h), fun h => hab.conflicts (hbc.conflicts h),
    Nat.le_trans hab.count hbc.count⟩

/-- A step of the mapping that leaves the draft as it should be. -/
structure Step (ctx : Context) (d d' : Draft) : Prop where
  grows : Grows d d'
  sound : d'.Sound ctx
  closed : ∀ pending, d.ClosedBut pending → d'.ClosedBut pending

theorem Step.refl {d : Draft} (h : d.Sound ctx) : Step ctx d d := ⟨.refl d, h, fun _ => id⟩

theorem Step.trans {a b c : Draft} (hab : Step ctx a b) (hbc : Step ctx b c) : Step ctx a c :=
  ⟨hab.grows.trans hbc.grows, hbc.sound, fun _ h => hbc.closed _ (hab.closed _ h)⟩

theorem Step.foldl {α : Type} {f : Draft → α → Draft}
    (hf : ∀ d x, d.Sound ctx → Step ctx d (f d x)) {d : Draft} (hd : d.Sound ctx) (xs : List α) :
    Step ctx d (xs.foldl f d) := by
  induction xs generalizing d with
  | nil => exact .refl hd
  | cons x xs ih => exact (hf d x hd).trans (ih (hf d x hd).sound)

/-! ## Conflicts and warnings -/

theorem raise_conflicts (d : Draft) (c : Conflict) : (d.raise c).conflicts ≠ [] := by
  simp only [raise, Conflict.insert]
  split
  · next h =>
    intro hnil
    simp [hnil] at h
  · simp

theorem Step.raise {d : Draft} (h : d.Sound ctx) (c : Conflict) : Step ctx d (d.raise c) where
  grows := ⟨fun _ => id, fun hnil => absurd hnil (d.raise_conflicts c), Nat.le_refl _⟩
  sound := ⟨h.metrics, h.names_differ, h.dimensions, h.dimensions_differ⟩
  closed _ _ hnil := absurd hnil (d.raise_conflicts c)

theorem Step.warn {d : Draft} (h : d.Sound ctx) (w : MappingWarning) : Step ctx d (d.warn w) where
  grows := ⟨fun _ => id, id, Nat.le_refl _⟩
  sound := ⟨h.metrics, h.names_differ, h.dimensions, h.dimensions_differ⟩
  closed _ hclosed := hclosed

end Draft

/-! ## Metrics -/

open Draft

theorem metric?_isSome {d : Draft} {name : String} :
    (d.metric? name).isSome = true ↔ name ∈ d.names := by
  simp [Draft.metric?, Draft.names]

/-- Metrics that are changed in the way they are mentioned stay what they are. -/
theorem Draft.Step.updateMetric {d : Draft} (h : d.Sound ctx) (name term : String)
    (aggregation : Option Aggregation) :
    Step ctx d (Context.updateMetric name (Context.mentionAgain term aggregation) d) := by
  have hmap : ∀ m ∈ (Context.updateMetric name (Context.mentionAgain term aggregation) d).metrics,
      ∃ m' ∈ d.metrics, m'.name = m.name ∧ m'.formula = m.formula ∧ m'.type = m.type ∧
        m'.field = m.field := by
    intro m hm
    obtain ⟨m', hm', rfl⟩ := List.mem_map.mp hm
    refine ⟨m', hm', ?_⟩
    split <;> exact ⟨rfl, rfl, rfl, rfl⟩
  have hnames : (Context.updateMetric name (Context.mentionAgain term aggregation) d).names =
      d.names := by
    simp only [Draft.names, Context.updateMetric, List.map_map]
    refine List.map_congr_left fun m _ => ?_
    simp only [Function.comp]
    split <;> rfl
  constructor
  case grows => exact ⟨fun n hn => hnames ▸ hn, id, by simp [Context.updateMetric]⟩
  case sound =>
    refine ⟨fun m hm => ?_, hnames ▸ h.names_differ, h.dimensions, h.dimensions_differ⟩
    obtain ⟨m', hm', hname, hformula, htype, hfield⟩ := hmap m hm
    obtain ⟨e, he, hename, heformula, hetype, hefield, hesome⟩ := h.metrics m' hm'
    exact ⟨e, he, hename.trans hname, hformula ▸ heformula, htype ▸ hetype, hfield ▸ hefield,
      hfield ▸ hesome⟩
  case closed =>
    intro pending hclosed hnil m hm hpending f hf n hn
    obtain ⟨m', hm', hname, hformula, -, -⟩ := hmap m hm
    rw [hnames]
    exact hclosed hnil m' hm' (hname ▸ hpending) f (hformula.trans hf) n hn

/-- A further metric, whose references are still to be added. -/
theorem add_spec {d : Draft} (h : d.Sound ctx) {m : ReportMetric} (hm : ctx.IsMetric m)
    (hnew : m.name ∉ d.names) :
    let d' := { d with metrics := d.metrics ++ [m] }
    d'.Sound ctx ∧ Grows d d' ∧ d'.metrics.length = d.metrics.length + 1 ∧ m.name ∈ d'.names ∧
      ∀ pending, d.ClosedBut pending → d'.ClosedBut (m.name :: pending) := by
  have hnames : (d.metrics ++ [m]).map (·.name) = d.names ++ [m.name] := by
    simp [Draft.names]
  refine ⟨⟨?_, ?_, h.dimensions, h.dimensions_differ⟩, ⟨?_, id, ?_⟩, ?_, ?_, ?_⟩
  · intro m' hm'
    rcases List.mem_append.mp hm' with hm' | hm'
    · exact h.metrics m' hm'
    · rw [List.mem_singleton.mp hm']
      exact hm
  · rw [Draft.names, hnames]
    refine List.nodup_append.mpr ⟨h.names_differ, by simp, ?_⟩
    intro a ha b hb hab
    rw [List.mem_singleton.mp hb] at hab
    exact hnew (hab ▸ ha)
  · intro name hname
    rw [Draft.names, hnames]
    exact List.mem_append_left _ hname
  · simp
  · simp
  · simp [Draft.names]
  · intro pending hclosed hnil m' hm' hpending f hf name hname
    rw [Draft.names, hnames]
    rcases List.mem_append.mp hm' with hm' | hm'
    · refine List.mem_append_left _ (hclosed hnil m' hm' ?_ f hf name hname)
      exact fun hin => hpending (List.mem_cons_of_mem _ hin)
    · rw [List.mem_singleton.mp hm'] at hpending
      exact absurd List.mem_cons_self hpending

/-- A further metric is added in one step together with its references. -/
theorem Draft.Step.add {d d' : Draft} (h : d.Sound ctx) {m : ReportMetric} (hm : ctx.IsMetric m)
    (hnew : m.name ∉ d.names) (hstep : Step ctx { d with metrics := d.metrics ++ [m] } d')
    (hall : d'.conflicts = [] → ∀ f, m.formula = some f → ∀ n ∈ f.names, n ∈ d'.names) :
    Step ctx d d' ∧ m.name ∈ d'.names := by
  obtain ⟨-, hgrows, -, hthere, hclosed⟩ := add_spec h hm hnew
  refine ⟨⟨hgrows.trans hstep.grows, hstep.sound, fun pending hpending => ?_⟩,
    hstep.grows.names _ hthere⟩
  intro hnil m' hm' hnot f hf n hn
  by_cases hsame : m'.name = m.name
  · -- the metric that was added: its references are those of the entry
    obtain ⟨e', he', hename', heformula', -⟩ := hstep.sound.metrics m' hm'
    obtain ⟨e, he, hename, heformula, -⟩ := hm
    obtain rfl := Dictionary.metric_eq he' he (hename'.trans (hsame.trans hename.symm))
    exact hall hnil f (heformula.trans (heformula'.symm.trans hf)) n hn
  · refine hstep.closed _ (hclosed pending hpending) hnil m' hm' ?_ f hf n hn
    simpa [hsame] using hnot

/-- The names of the metrics are names of the dictionary. -/
theorem Draft.Sound.length_le {d : Draft} (h : d.Sound ctx) :
    d.metrics.length ≤ ctx.dictionary.metrics.length := by
  have hsub : d.names ⊆ ctx.dictionary.metrics.map (·.definition.name) := by
    intro name hname
    obtain ⟨m, hm, rfl⟩ := List.mem_map.mp hname
    obtain ⟨e, he, hename, -⟩ := h.metrics m hm
    exact hename ▸ List.mem_map_of_mem he
  simpa [Draft.names] using (List.subperm_of_subset h.names_differ hsub).length_le

/-- References that are added one after the other are all there at the end. -/
theorem foldl_references (g : Draft → String → Draft) (rs : List String) {count : Nat}
    (hg : ∀ r ∈ rs, ∀ d : Draft, d.Sound ctx → count ≤ d.metrics.length →
      Step ctx d (g d r) ∧ ((g d r).conflicts = [] → r ∈ (g d r).names))
    {d : Draft} (hd : d.Sound ctx) (hcount : count ≤ d.metrics.length) :
    Step ctx d (rs.foldl g d) ∧
      ((rs.foldl g d).conflicts = [] → ∀ r ∈ rs, r ∈ (rs.foldl g d).names) := by
  induction rs generalizing d with
  | nil => exact ⟨.refl hd, by simp⟩
  | cons r rs ih =>
    obtain ⟨hstep, hthere⟩ := hg r List.mem_cons_self d hd hcount
    obtain ⟨hrest, hall⟩ := ih (fun x hx => hg x (List.mem_cons_of_mem _ hx)) hstep.sound
      (Nat.le_trans hcount hstep.grows.count)
    refine ⟨hstep.trans hrest, fun hnil x hx => ?_⟩
    rcases List.mem_cons.mp hx with rfl | hx
    · exact hrest.grows.names _ (hthere (hrest.grows.conflicts hnil))
    · exact hall hnil x hx

/-- A metric is added with everything that it is calculated from. -/
theorem addMetric_spec (fuel : Nat) (name term : String) (aggregation : Option Aggregation)
    (hidden : Bool) {d : Draft} (h : d.Sound ctx)
    (hfuel : ctx.dictionary.metrics.length < fuel + d.metrics.length) :
    Step ctx d (ctx.addMetric fuel name term aggregation hidden d) ∧
      ((ctx.addMetric fuel name term aggregation hidden d).conflicts = [] →
        ∃ e, ctx.dictionary.metric? name = some e ∧
          e.definition.name ∈ (ctx.addMetric fuel name term aggregation hidden d).names) := by
  induction fuel generalizing name term aggregation hidden d with
  | zero =>
    have := h.length_le
    omega
  | succ fuel ih =>
    unfold Context.addMetric
    split
    · exact ⟨.raise h _, fun hnil => absurd hnil (Draft.raise_conflicts _ _)⟩
    · next e he =>
      have hmem := (Dictionary.metric?_spec he).1
      simp only
      split
      · next hthere =>
        have hthere := metric?_isSome.mp hthere
        split
        · exact ⟨.refl h, fun _ => ⟨e, he, hthere⟩⟩
        · have hstep : Step ctx d _ := .updateMetric h e.definition.name term aggregation
          exact ⟨hstep, fun _ => ⟨e, he, hstep.grows.names _ hthere⟩⟩
      · next hnew =>
        have hnew : e.definition.name ∉ d.names := fun hin => hnew (metric?_isSome.mpr hin)
        split
        · exact ⟨.raise h _, fun hnil => absurd hnil (Draft.raise_conflicts _ _)⟩
        · next hfound =>
          obtain ⟨m, hm⟩ : ∃ m : ReportMetric, m =
              { term
                name := e.definition.name
                field := e.definition.field.bind ctx.schema.canonical?
                aggregation := aggregation.getD e.definition.aggregation
                type := e.definition.type
                formula := e.formula
                hidden } := ⟨_, rfl⟩
          rw [← hm]
          have hname : m.name = e.definition.name := by rw [hm]
          have his : ctx.IsMetric m := by
            refine ⟨e, hmem, hname.symm, by rw [hm], by rw [hm], by rw [hm], fun hsome => ?_⟩
            obtain ⟨f, hf⟩ := Option.isSome_iff_exists.mp hsome
            rw [hm]
            exact Option.isSome_iff_ne_none.mpr fun hnone => hfound f hf hnone
          obtain ⟨hsound, -, hcount, -, -⟩ := add_spec h his (hname ▸ hnew)
          -- every reference is added as a metric of its own, or raises a conflict
          have hrefs := foldl_references
            (fun d r => if (ctx.dictionary.metric? r).isSome then
                ctx.addMetric fuel r r none true d
              else d.raise (.make .unknown .metric r
                ("Formula for '" ++ e.definition.name ++ "' references unknown metric '" ++ r ++ "'")
                [] none))
            ((e.formula.map Formula.references).getD []) ?_ hsound (Nat.le_of_eq hcount.symm)
          · obtain ⟨hstep, hall⟩ := hrefs
            obtain ⟨hadded, hin⟩ := Step.add h his (hname ▸ hnew) hstep fun hnil f hf n hn => by
              refine hall hnil n ?_
              have hformula : e.formula = some f := by rw [← hf, hm]
              simpa [hformula, Formula.references] using hn
            exact ⟨hadded, fun _ => ⟨e, he, hname ▸ hin⟩⟩
          · intro r hr d' hd' hcount'
            split
            · obtain ⟨hstep, hthere⟩ := ih r r none true hd' (by omega)
              refine ⟨hstep, fun hnil => ?_⟩
              obtain ⟨e', he', hin⟩ := hthere hnil
              obtain ⟨f, hf, hrf⟩ : ∃ f, e.formula = some f ∧ r ∈ f.names := by
                cases hformula : e.formula with
                | none => simp [hformula] at hr
                | some f => exact ⟨f, rfl, by simpa [hformula, Formula.references] using hr⟩
              rwa [Dictionary.metric?_reference hmem hf hrf he'] at hin
            · exact ⟨.raise hd' _, fun hnil => absurd hnil (Draft.raise_conflicts _ _)⟩

theorem Draft.Step.includeMetric {d : Draft} (h : d.Sound ctx) (name term : String)
    (aggregation : Option Aggregation) (hidden : Bool) :
    Step ctx d (ctx.includeMetric name term aggregation hidden d) :=
  (addMetric_spec _ name term aggregation hidden h (by omega)).1

/-! ## Dimensions and mentions -/

theorem Draft.Step.includeDimension {d : Draft} (h : d.Sound ctx) (name term : String) :
    Step ctx d (ctx.includeDimension name term d) := by
  unfold Context.includeDimension
  split
  · exact .raise h _
  · next e he =>
    have hmem := List.mem_of_find?_eq_some he
    simp only
    split
    · exact .refl h
    · next hnew =>
      split
      · next field hfield =>
        refine ⟨⟨fun _ => id, id, Nat.le_refl _⟩, ?_, fun _ hclosed => hclosed⟩
        refine ⟨h.metrics, h.names_differ, fun x hx => ?_, ?_⟩
        · rcases List.mem_append.mp hx with hx | hx
          · exact h.dimensions x hx
          · rw [List.mem_singleton.mp hx]
            exact ⟨e, hmem, rfl, rfl, rfl, hfield⟩
        · rw [List.map_append]
          refine List.nodup_append.mpr ⟨h.dimensions_differ, by simp, ?_⟩
          intro a ha b hb hab
          obtain ⟨x, hx, rfl⟩ := List.mem_map.mp ha
          rw [List.map_singleton, List.mem_singleton] at hb
          refine hnew (List.any_eq_true.mpr ⟨x, hx, ?_⟩)
          simpa using hab.trans hb
      · exact .raise h _

theorem Draft.Step.addMetricMention {d : Draft} (h : d.Sound ctx) (m : MetricMention) :
    Step ctx d (ctx.addMetricMention d m) := by
  unfold Context.addMetricMention
  split
  · exact .includeMetric h ..
  · exact .raise h _

theorem Draft.Step.addDimensionMention {d : Draft} (h : d.Sound ctx) (x : DimensionMention) :
    Step ctx d (ctx.addDimensionMention d x) := by
  unfold Context.addDimensionMention
  split
  · exact .includeDimension h ..
  · exact .raise h _

/-! ## Filters and sorts -/

/-- The target is a metric, or the field of a dimension, and has the type. -/
def Context.IsTarget (ctx : Context) (type : DataType) : FilterTarget → Prop
  | .metric m => ctx.IsMetric m ∧ type = m.type
  | .column c =>
    (∃ e ∈ ctx.dictionary.dimensions, ctx.schema.canonical? e.definition.field = some c) ∧
      type = ((ctx.schema.column? c).map (·.type)).getD .unknown

/-- The filter has a target of its type and as many values as its operator takes, each of them read
as a value of the type. -/
structure Context.IsFilter (ctx : Context) (f : ReportFilter) : Prop where
  target : ctx.IsTarget f.type f.target
  count : f.operator.takes f.values.length = true
  values : ∀ v ∈ f.values, ∃ text, Literal.coerce (Context.valueType f.operator f.type) text = .ok v

theorem filterTarget_spec {d : Draft} (h : d.Sound ctx) (f : FilterMention) (kind : EntityKind)
    (name : String) :
    Step ctx d (ctx.filterTarget f kind name d).1 ∧
      ∀ target type, (ctx.filterTarget f kind name d).2 = some (target, type) →
        ctx.IsTarget type target := by
  unfold Context.filterTarget
  split
  · have hstep := Step.includeMetric h name f.field none true
    refine ⟨hstep, fun target type heq => ?_⟩
    obtain ⟨m, hm, heq⟩ := Option.map_eq_some_iff.mp heq
    cases heq
    exact ⟨hstep.sound.metrics m (List.mem_of_find?_eq_some hm), rfl⟩
  · split
    · exact ⟨.refl h, by rintro _ _ ⟨⟩⟩
    · next e he =>
      have hmem := List.mem_of_find?_eq_some he
      split
      · next field hfield =>
        refine ⟨.refl h, ?_⟩
        rintro _ _ ⟨⟩
        exact ⟨⟨e, hmem, hfield⟩, rfl⟩
      · exact ⟨.raise h _, by rintro _ _ ⟨⟩⟩

theorem coercedValues_length {f : FilterMention} {type : DataType}
    (h : Context.valueConflicts f type = []) :
    (Context.coercedValues f type).length = f.value.toList.length := by
  unfold Context.valueConflicts at h
  unfold Context.coercedValues
  generalize f.value.toList = values at h
  induction values with
  | nil => rfl
  | cons v vs ih =>
    cases hv : Literal.coerce type v with
    | error e => simp [hv] at h
    | ok x =>
      simp only [List.filterMap_cons, hv] at h
      simp only [List.filterMap_cons, hv, Except.toOption, List.length_cons]
      exact congrArg (· + 1) (ih h)

theorem mapFilter_spec {d : Draft} (h : d.Sound ctx) (f : FilterMention) :
    Step ctx d (ctx.mapFilter f d).1 ∧
      ∀ x, (ctx.mapFilter f d).2 = some x → ctx.IsFilter x := by
  unfold Context.mapFilter
  split
  · exact ⟨.raise h _, by rintro _ ⟨⟩⟩
  · next kind name hresolve =>
    simp only
    obtain ⟨d₁, hd₁⟩ : ∃ d₁,
        d₁ = if f.operator?.isNone then d.warn (.operator f.operator f.field) else d := ⟨_, rfl⟩
    have hwarn : Step ctx d d₁ := by
      rw [hd₁]
      split
      · exact .warn h _
      · exact .refl h
    rw [← hd₁]
    obtain ⟨htarget, his⟩ := filterTarget_spec hwarn.sound f kind name
    split
    · next d₂ heq =>
      rw [heq] at htarget
      exact ⟨hwarn.trans htarget, by rintro _ ⟨⟩⟩
    · next d₂ target type heq =>
      rw [heq] at htarget his
      split
      · exact ⟨(hwarn.trans htarget).trans (.raise htarget.sound _), by rintro _ ⟨⟩⟩
      · next htakes =>
        split
        · next hconflicts =>
          refine ⟨hwarn.trans htarget, ?_⟩
          rintro _ ⟨⟩
          refine ⟨his target type rfl, ?_, fun v hv => ?_⟩
          · rw [coercedValues_length hconflicts]
            simpa using htakes
          · obtain ⟨text, -, hcoerce⟩ := List.mem_filterMap.mp hv
            refine ⟨text, ?_⟩
            cases hx : Literal.coerce (Context.valueType (f.operator?.getD .equals) type) text with
            | error e => simp [hx, Except.toOption] at hcoerce
            | ok x =>
              rw [hx] at hcoerce
              cases hcoerce
              rfl
        · refine ⟨(hwarn.trans htarget).trans (.foldl ?_ htarget.sound _), by rintro _ ⟨⟩⟩
          exact fun d c hd => .raise hd c

theorem mapFilters_spec (fs : List FilterMention) {d : Draft} (h : d.Sound ctx) :
    Step ctx d (ctx.mapFilters fs d).1 ∧
      ∀ x ∈ (ctx.mapFilters fs d).2, ctx.IsFilter x.2 := by
  induction fs generalizing d with
  | nil => exact ⟨.refl h, by simp [Context.mapFilters]⟩
  | cons f fs ih =>
    obtain ⟨hstep, his⟩ := mapFilter_spec h f
    obtain ⟨hrest, hall⟩ := ih hstep.sound
    refine ⟨hstep.trans hrest, fun x hx => ?_⟩
    rcases List.mem_append.mp hx with hx | hx
    · obtain ⟨y, hy, rfl⟩ := Option.map_eq_some_iff.mp (Option.mem_toList.mp hx)
      exact his y hy
    · exact hall x hx

theorem Draft.Step.mapSort {d : Draft} (h : d.Sound ctx) (s : SortMention) :
    Step ctx d (ctx.mapSort s d).1 := by
  unfold Context.mapSort
  split
  · exact .raise h _
  · split
    · exact .includeMetric h ..
    · exact .includeDimension h ..

/-! ## Stages of a mapping -/

namespace Context

variable (ctx) (r : Request)

/-- The draft with the conflicts that came with the request. -/
def reportedDraft (r : Request) : Draft :=
  r.conflicts.foldl (fun d c => d.raise ({ c with reported := true } : Conflict).ensureId) {}

/-- The draft with the mentioned metrics. -/
def metricsDraft : Draft := r.metrics.foldl ctx.addMetricMention (reportedDraft r)

/-- The metric that a request without a sort is sorted by. -/
def firstShown : Option String := ((ctx.metricsDraft r).metrics.find? (!·.hidden)).map (·.name)

/-- The draft with the mentioned dimensions. -/
def dimensionsDraft : Draft := r.dimensions.foldl ctx.addDimensionMention (ctx.metricsDraft r)

/-- The draft with the mentioned filters, and the filters. -/
def filtersDraft : Draft × List (FilterMention × ReportFilter) :=
  ctx.mapFilters r.filters (ctx.dimensionsDraft r)

/-- The draft with the conflicts between filters. -/
def comparedDraft : Draft :=
  (filterConflicts (ctx.filtersDraft r).2).foldl Draft.raise (ctx.filtersDraft r).1

/-- The draft with the mentioned sort, and the sort. -/
def sortedDraft : Draft × Option ReportSort :=
  match r.sortBy with
  | some s => ctx.mapSort s (ctx.comparedDraft r)
  | none => (ctx.comparedDraft r, (ctx.firstShown r).map fun name => ⟨name, .metric name, .desc⟩)

/-- The request needs a metric, and the draft has none to show. -/
def lacksMetric : Bool :=
  r.metrics.isEmpty && !(ctx.sortedDraft r).1.hasVisibleMetric && needsMetric r

/-- The draft with everything. -/
def finalDraft : Draft :=
  if ctx.lacksMetric r then (ctx.sortedDraft r).1.raise ctx.missingMetric
  else (ctx.sortedDraft r).1

/-- The outcome of a mapping in terms of its stages. -/
theorem map_eq : ctx.map r =
    { report :=
        { metrics := (ctx.finalDraft r).metrics.mergeSort fun a b => decide (a.name ≤ b.name)
          dimensions := (ctx.finalDraft r).dimensions.mergeSort fun a b => decide (a.name ≤ b.name)
          filters := ((ctx.filtersDraft r).2.map (·.2)).mergeSort filterBefore
          sort := (ctx.sortedDraft r).2
          limit := r.limit
          timeRange := (ctx.timeRange r).1
          comparisons := orderedComparisons r.comparisons }
      conflicts := (ctx.finalDraft r).conflicts
      warnings := (ctx.finalDraft r).warnings ++ (ctx.timeRange r).2 } := by
  rfl

end Context

/-! ## Steps from stage to stage -/

theorem sound_empty (ctx : Context) : ({} : Draft).Sound ctx :=
  ⟨by simp, by simp [Draft.names], by simp, by simp⟩

theorem reportedDraft_step (ctx : Context) (r : Request) :
    Step ctx {} (Context.reportedDraft r) :=
  .foldl (fun _ _ hd => .raise hd _) (sound_empty ctx) r.conflicts

theorem metricsDraft_step (ctx : Context) (r : Request) :
    Step ctx (Context.reportedDraft r) (ctx.metricsDraft r) :=
  .foldl (fun _ m hd => .addMetricMention hd m) (reportedDraft_step ctx r).sound r.metrics

theorem dimensionsDraft_step (ctx : Context) (r : Request) :
    Step ctx (ctx.metricsDraft r) (ctx.dimensionsDraft r) :=
  .foldl (fun _ x hd => .addDimensionMention hd x) (metricsDraft_step ctx r).sound r.dimensions

theorem filtersDraft_step (ctx : Context) (r : Request) :
    Step ctx (ctx.dimensionsDraft r) (ctx.filtersDraft r).1 :=
  (mapFilters_spec r.filters (dimensionsDraft_step ctx r).sound).1

theorem comparedDraft_step (ctx : Context) (r : Request) :
    Step ctx (ctx.filtersDraft r).1 (ctx.comparedDraft r) :=
  .foldl (fun _ c hd => .raise hd c) (filtersDraft_step ctx r).sound _

theorem sortedDraft_step (ctx : Context) (r : Request) :
    Step ctx (ctx.comparedDraft r) (ctx.sortedDraft r).1 := by
  unfold Context.sortedDraft
  split
  · exact .mapSort (comparedDraft_step ctx r).sound _
  · exact .refl (comparedDraft_step ctx r).sound

theorem finalDraft_step (ctx : Context) (r : Request) :
    Step ctx (ctx.sortedDraft r).1 (ctx.finalDraft r) := by
  unfold Context.finalDraft
  split
  · exact .raise (sortedDraft_step ctx r).sound _
  · exact .refl (sortedDraft_step ctx r).sound

/-- From the metrics on, the stages only add to the draft. -/
theorem metricsDraft_final (ctx : Context) (r : Request) :
    Step ctx (ctx.metricsDraft r) (ctx.finalDraft r) :=
  (dimensionsDraft_step ctx r).trans <| (filtersDraft_step ctx r).trans <|
    (comparedDraft_step ctx r).trans <| (sortedDraft_step ctx r).trans (finalDraft_step ctx r)

/-- The final draft is as it should be, and so are the filters. -/
theorem finalDraft_spec (ctx : Context) (r : Request) :
    Step ctx {} (ctx.finalDraft r) ∧ ∀ x ∈ (ctx.filtersDraft r).2, ctx.IsFilter x.2 :=
  ⟨(reportedDraft_step ctx r).trans <| (metricsDraft_step ctx r).trans (metricsDraft_final ctx r),
    (mapFilters_spec r.filters (dimensionsDraft_step ctx r).sound).2⟩

end Mapping

end MetricLayer
