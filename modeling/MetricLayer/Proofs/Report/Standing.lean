import MetricLayer.Proofs.Report.Resolved

/-!
# What it does to add a metric

A metric stands in the draft with an aggregation, and is shown or hidden. To add a metric adds what
it needs, which are the metrics that it is calculated from; these are hidden and stand as their
entries have them, unless they are there already. Where a metric stands is changed by its own
mentions only. There is a conflict just if something that is needed is not known.

Results:
1. `addMetric_cases`: what `addMetric` can do.
2. `addMetric_standing_hidden` and `addMetric_standing_shown`: where metrics stand afterwards.
3. `includeMetric_conflicts` and `includeMetric_names`: when there is a conflict, and what is added if
   there is none.
-/

namespace MetricLayer

namespace Mapping

open Draft

variable {ctx : Context}

/-! ## What a metric needs -/

namespace Context

/-- The metric is calculated by the formula. -/
def HasFormula (ctx : Context) (name : String) (f : Formula) : Prop :=
  ∃ e ∈ ctx.dictionary.metrics, e.definition.name = name ∧ e.formula = some f

/-- A metric needs itself and whatever it is calculated from. -/
inductive Needs (ctx : Context) : String → String → Prop
  | self (name : String) : Needs ctx name name
  | reference {name r other : String} {f : Formula} :
      ctx.HasFormula name f → r ∈ f.names → Needs ctx r other → Needs ctx name other

/-- The field of the metric, if it has one, is in the schema. -/
def HasField (ctx : Context) (e : MetricEntry) : Prop :=
  ∀ f, e.definition.field = some f → (ctx.schema.canonical? f).isSome = true

/-- The metric is in the dictionary, and its field in the schema. -/
def IsKnown (ctx : Context) (name : String) : Prop :=
  ∃ e ∈ ctx.dictionary.metrics, e.definition.name = name ∧ ctx.HasField e

/-- Everything that the metric needs is known. -/
def IsComplete (ctx : Context) (name : String) : Prop :=
  ∀ other, ctx.Needs name other → ctx.IsKnown other

/-- The dimension is in the dictionary, and its field in the schema. -/
def HasColumn (ctx : Context) (name : String) : Prop :=
  ∃ e, ctx.dictionary.dimension? name = some e ∧
    (ctx.schema.canonical? e.definition.field).isSome = true

theorem IsComplete.reference {name r : String} {f : Formula} (h : ctx.IsComplete name)
    (hf : ctx.HasFormula name f) (hr : r ∈ f.names) : ctx.IsComplete r :=
  fun other hneeds => h other (.reference hf hr hneeds)

end Context

/-- Without a conflict, what a metric of the draft needs is there too. -/
theorem Draft.Sound.needs_mem {d : Draft} (h : d.Sound ctx) (hclosed : d.ClosedBut [])
    (hnil : d.conflicts = []) {name other : String} (hneeds : ctx.Needs name other)
    (hname : name ∈ d.names) : other ∈ d.names := by
  induction hneeds with
  | self _ => exact hname
  | reference hf hr _ ih =>
    obtain ⟨e, he, rfl, hformula⟩ := hf
    obtain ⟨m, hm, hmname⟩ := List.mem_map.mp hname
    obtain ⟨e', he', hename, hmformula, -⟩ := h.metrics m hm
    obtain rfl := Dictionary.metric_eq he he' (hmname.symm.trans hename.symm)
    exact ih (hclosed hnil m hm (List.not_mem_nil) _ (hmformula.trans hformula) _ hr)

/-- A metric of the draft is known. -/
theorem Draft.Sound.isKnown {d : Draft} (h : d.Sound ctx) {name : String} (hname : name ∈ d.names) :
    ctx.IsKnown name := by
  obtain ⟨m, hm, rfl⟩ := List.mem_map.mp hname
  obtain ⟨e, he, hename, -, -, hfield, hsome⟩ := h.metrics m hm
  refine ⟨e, he, hename, fun f hf => ?_⟩
  have hfound := hsome (by rw [hf]; rfl)
  rwa [hfield, hf] at hfound

/-! ## Where a metric stands -/

namespace Context

/-- The aggregation of a metric and whether it is shown. A metric that is not in the draft stands as
its entry has it, and is not shown. -/
def standing (ctx : Context) (d : Draft) (name : String) : Option (Aggregation × Bool) :=
  match d.metric? name with
  | some m => some (m.aggregation, !m.hidden)
  | none => (ctx.dictionary.metric? name).map fun e => (e.definition.aggregation, false)

/-- Where a metric stands after it was mentioned. -/
def mentioned (s : Option (Aggregation × Bool)) (aggregation : Option Aggregation) :
    Option (Aggregation × Bool) :=
  s.map fun (a, _) => (aggregation.getD a, true)

end Context

theorem metric?_eq_none {d : Draft} {name : String} (h : name ∉ d.names) : d.metric? name = none := by
  rw [← Option.not_isSome_iff_eq_none, metric?_isSome]
  exact h

theorem metric?_name {d : Draft} {name : String} {m : ReportMetric} (h : d.metric? name = some m) :
    m.name = name := by
  simpa using List.find?_some h

theorem standing_of_mem {d : Draft} (h : d.Sound ctx) {m : ReportMetric} (hm : m ∈ d.metrics) :
    ctx.standing d m.name = some (m.aggregation, !m.hidden) := by
  have hfind : d.metric? m.name = some m := find?_key h.names_differ hm
  rw [Context.standing, hfind]

theorem standing_of_notMem {d : Draft} {e : MetricEntry} (he : e ∈ ctx.dictionary.metrics)
    (h : e.definition.name ∉ d.names) :
    ctx.standing d e.definition.name = some (e.definition.aggregation, false) := by
  rw [Context.standing, metric?_eq_none h, Dictionary.metric?_of_mem he]
  rfl

/-- A further metric stands as it is added. -/
theorem standing_add {d : Draft} {m : ReportMetric} (hnew : m.name ∉ d.names) (n : String) :
    ctx.standing { d with metrics := d.metrics ++ [m] } n =
      if n = m.name then some (m.aggregation, !m.hidden) else ctx.standing d n := by
  have hfind : ({ d with metrics := d.metrics ++ [m] } : Draft).metric? n =
      (d.metric? n).or (if m.name = n then some m else none) := by
    rw [Draft.metric?, List.find?_append, Draft.metric?]
    congr 1
    by_cases hn : m.name = n <;> simp [hn]
  rw [Context.standing, hfind]
  by_cases hn : n = m.name
  · rw [if_pos hn, hn, metric?_eq_none hnew, if_pos rfl]
    rfl
  · rw [if_neg hn, if_neg fun heq => hn heq.symm, Option.or_none]
    rfl

theorem standing_update {d : Draft} {name : String} (hname : name ∈ d.names) (term : String)
    (aggregation : Option Aggregation) (n : String) :
    ctx.standing (Context.updateMetric name (Context.mentionAgain term aggregation) d) n =
      if n = name then Context.mentioned (ctx.standing d n) aggregation else ctx.standing d n := by
  have hfind : (Context.updateMetric name (Context.mentionAgain term aggregation) d).metric? n =
      (d.metric? n).map fun m =>
        if m.name = name then Context.mentionAgain term aggregation m else m := by
    rw [Draft.metric?, Context.updateMetric, List.find?_map, Draft.metric?]
    congr 2
    funext m
    simp only [Function.comp_apply]
    split <;> rfl
  rw [Context.standing, hfind, Context.standing]
  cases hn : d.metric? n with
  | none =>
    have hne : n ≠ name := by
      rintro rfl
      rw [← metric?_isSome, hn] at hname
      cases hname
    rw [if_neg hne]
    rfl
  | some m =>
    have hm := metric?_name hn
    by_cases hsame : n = name
    · simp only [Option.map_some, if_pos (hm.trans hsame), if_pos hsame]
      rfl
    · have hne : m.name ≠ name := fun heq => hsame (hm.symm.trans heq)
      simp only [Option.map_some, if_neg hne, if_neg hsame]

/-! ## Adding a metric -/

namespace Context

/-- The metric of an entry as it is added. -/
def newMetric (ctx : Context) (e : MetricEntry) (term : String) (aggregation : Option Aggregation)
    (hidden : Bool) : ReportMetric :=
  { term
    name := e.definition.name
    field := e.definition.field.bind ctx.schema.canonical?
    aggregation := aggregation.getD e.definition.aggregation
    type := e.definition.type
    formula := e.formula
    hidden }

/-- Adds a metric that the formula of another one refers to. -/
def addReference (ctx : Context) (fuel : Nat) (name : String) (d : Draft) (r : String) : Draft :=
  if (ctx.dictionary.metric? r).isSome then ctx.addMetric fuel r r none true d
  else d.raise (.make .unknown .metric r
    ("Formula for '" ++ name ++ "' references unknown metric '" ++ r ++ "'") [] none)

end Context

/-- A metric of the draft is mentioned again or left as it is, one without its field raises a conflict
about the phrase, and any other one is added with its references. -/
theorem addMetric_cases {e : MetricEntry} (he : e ∈ ctx.dictionary.metrics) (fuel : Nat)
    (term : String) (aggregation : Option Aggregation) (hidden : Bool) (d : Draft) :
    (e.definition.name ∈ d.names ∧
      ctx.addMetric (fuel + 1) e.definition.name term aggregation hidden d =
        if hidden then d
        else Context.updateMetric e.definition.name (Context.mentionAgain term aggregation) d) ∨
    (¬ ctx.HasField e ∧
      ∃ message, ctx.addMetric (fuel + 1) e.definition.name term aggregation hidden d =
        d.raise (.make .unknown .metric term message [] none)) ∨
    (e.definition.name ∉ d.names ∧ ctx.HasField e ∧
      ctx.addMetric (fuel + 1) e.definition.name term aggregation hidden d =
        ((e.formula.map Formula.references).getD []).foldl
          (ctx.addReference fuel e.definition.name)
          { d with metrics := d.metrics ++ [ctx.newMetric e term aggregation hidden] }) := by
  unfold Context.addMetric
  rw [Dictionary.metric?_of_mem he]
  simp only
  by_cases hthere : e.definition.name ∈ d.names
  · rw [if_pos (metric?_isSome.mpr hthere)]
    exact .inl ⟨hthere, rfl⟩
  · rw [if_neg fun hsome => hthere (metric?_isSome.mp hsome)]
    refine .inr ?_
    split
    · next f hf hnone =>
      refine .inl ⟨fun hfield => ?_, _, rfl⟩
      have hsome := hfield f hf
      rw [hf, Option.bind_some] at hnone
      rw [hnone] at hsome
      cases hsome
    · next hfound =>
      refine .inr ⟨hthere, fun f hf => ?_, rfl⟩
      rw [← Option.ne_none_iff_isSome]
      intro hnone
      exact hfound f hf (by rw [hf, Option.bind_some, hnone])

/-- A reference of a metric is a metric that is added, or raises a conflict. -/
theorem addReference_cases {e : MetricEntry} (he : e ∈ ctx.dictionary.metrics) {r : String}
    (hr : r ∈ (e.formula.map Formula.references).getD []) (fuel : Nat) :
    ∃ f, ctx.HasFormula e.definition.name f ∧ r ∈ f.names ∧
      ((∃ e' ∈ ctx.dictionary.metrics, e'.definition.name = r ∧
          ∀ d, ctx.addReference fuel e.definition.name d r = ctx.addMetric fuel r r none true d) ∨
        (¬ ctx.IsKnown r ∧ ∀ d, ∃ c, ctx.addReference fuel e.definition.name d r = d.raise c)) := by
  cases hf : e.formula with
  | none =>
    rw [hf] at hr
    cases hr
  | some f =>
    have hr : r ∈ f.names := by simpa [hf, Formula.references] using hr
    refine ⟨f, ⟨e, he, rfl, hf⟩, hr, ?_⟩
    cases hfind : ctx.dictionary.metric? r with
    | some e' =>
      refine .inl ⟨e', (Dictionary.metric?_spec hfind).1,
        Dictionary.metric?_reference he hf hr hfind, fun d => ?_⟩
      rw [Context.addReference, if_pos (by rw [hfind]; rfl)]
    | none =>
      refine .inr ⟨?_, fun d => ?_⟩
      · rintro ⟨e', he', rfl, -⟩
        rw [Dictionary.metric?_of_mem he'] at hfind
        cases hfind
      · rw [Context.addReference, if_neg (by rw [hfind]; exact Bool.false_ne_true)]
        exact ⟨_, rfl⟩

/-- A metric that is complete is added without a conflict. -/
theorem addMetric_conflicts (fuel : Nat) {name : String} (hcomplete : ctx.IsComplete name)
    (term : String) (aggregation : Option Aggregation) (hidden : Bool) (d : Draft) :
    (ctx.addMetric fuel name term aggregation hidden d).conflicts = d.conflicts := by
  induction fuel generalizing name term aggregation hidden d with
  | zero => rfl
  | succ fuel ih =>
    obtain ⟨e, he, rfl, hfield⟩ := hcomplete name (.self name)
    rcases addMetric_cases he fuel term aggregation hidden d with
      ⟨-, heq⟩ | ⟨hno, -⟩ | ⟨-, -, heq⟩
    · rw [heq]
      split <;> rfl
    · exact absurd hfield hno
    · rw [heq]
      refine List.foldlRecOn (motive := fun d' : Draft => d'.conflicts = d.conflicts) _ _ rfl ?_
      intro d' hd' r hr
      obtain ⟨f, hf, hrf, ⟨e', -, -, hadd⟩ | ⟨hno, -⟩⟩ := addReference_cases he hr fuel
      · rw [hadd, ih (hcomplete.reference hf hrf), hd']
      · exact absurd (hcomplete r (.reference hf hrf (.self r))) hno

/-- Nothing is added that the metric does not need. -/
theorem addMetric_names (fuel : Nat) {e : MetricEntry} (he : e ∈ ctx.dictionary.metrics)
    (term : String) (aggregation : Option Aggregation) (hidden : Bool) (d : Draft) :
    ∀ n ∈ (ctx.addMetric fuel e.definition.name term aggregation hidden d).names,
      n ∈ d.names ∨ ctx.Needs e.definition.name n := by
  induction fuel generalizing e term aggregation hidden d with
  | zero => exact fun n hn => .inl hn
  | succ fuel ih =>
    rcases addMetric_cases he fuel term aggregation hidden d with
      ⟨-, heq⟩ | ⟨-, _, heq⟩ | ⟨-, -, heq⟩
    · rw [heq]
      intro n hn
      split at hn
      · exact .inl hn
      · -- a metric that is mentioned again keeps its name
        obtain ⟨m, hm, rfl⟩ := List.mem_map.mp hn
        obtain ⟨m', hm', rfl⟩ := List.mem_map.mp hm
        refine .inl (List.mem_map.mpr ⟨m', hm', ?_⟩)
        split <;> rfl
    · rw [heq]
      exact fun n hn => .inl hn
    · rw [heq]
      refine List.foldlRecOn
        (motive := fun d' : Draft => ∀ n ∈ d'.names, n ∈ d.names ∨ ctx.Needs e.definition.name n)
        _ _ ?_ ?_
      · intro n hn
        obtain ⟨m, hm, rfl⟩ := List.mem_map.mp hn
        rcases List.mem_append.mp hm with hm | hm
        · exact .inl (List.mem_map_of_mem hm)
        · rw [List.mem_singleton.mp hm]
          exact .inr (.self _)
      · intro d' hd' r hr n hn
        obtain ⟨f, hf, hrf, ⟨e', he', rfl, hadd⟩ | ⟨-, hraise⟩⟩ := addReference_cases he hr fuel
        · rw [hadd] at hn
          rcases ih he' _ none true d' n hn with hn | hn
          · exact hd' n hn
          · exact .inr (.reference hf hrf hn)
        · obtain ⟨c, hc⟩ := hraise d'
          rw [hc] at hn
          exact hd' n hn

/-- References leave every metric where it stands, if this holds of each metric that is added
hidden. -/
theorem foldl_addReference_standing {fuel : Nat}
    (hadd : ∀ e' ∈ ctx.dictionary.metrics, ∀ term d n,
      ctx.standing (ctx.addMetric fuel e'.definition.name term none true d) n = ctx.standing d n)
    {e : MetricEntry} (he : e ∈ ctx.dictionary.metrics) (d : Draft) (n : String) :
    ctx.standing (((e.formula.map Formula.references).getD []).foldl
      (ctx.addReference fuel e.definition.name) d) n = ctx.standing d n := by
  refine List.foldlRecOn (motive := fun d' => ctx.standing d' n = ctx.standing d n) _ _ rfl ?_
  intro d' hd' r hr
  obtain ⟨f, -, -, ⟨e', he', rfl, heq⟩ | ⟨-, hraise⟩⟩ := addReference_cases he hr fuel
  · rw [heq, hadd e' he', hd']
  · obtain ⟨c, hc⟩ := hraise d'
    rw [hc]
    exact hd'

/-- A metric that is added hidden stands where it did, and so does every other one. -/
theorem addMetric_standing_hidden (fuel : Nat) {e : MetricEntry} (he : e ∈ ctx.dictionary.metrics)
    (term : String) (d : Draft) (n : String) :
    ctx.standing (ctx.addMetric fuel e.definition.name term none true d) n =
      ctx.standing d n := by
  induction fuel generalizing e term d n with
  | zero => rfl
  | succ fuel ih =>
    rcases addMetric_cases he fuel term none true d with ⟨-, heq⟩ | ⟨-, _, heq⟩ | ⟨hnew, -, heq⟩
    · rw [heq, if_pos rfl]
    · rw [heq]
      rfl
    · rw [heq, foldl_addReference_standing (fun e' he' term d n => ih he' term d n) he,
        standing_add hnew]
      split
      · next hn =>
        rw [hn]
        exact (standing_of_notMem he hnew).symm
      · rfl

/-- A metric that is mentioned stands as it was mentioned, and every other one where it did. -/
theorem addMetric_standing_shown (fuel : Nat) {e : MetricEntry} (he : e ∈ ctx.dictionary.metrics)
    (hfield : ctx.HasField e) (term : String) (aggregation : Option Aggregation) (d : Draft)
    (n : String) :
    ctx.standing (ctx.addMetric (fuel + 1) e.definition.name term aggregation false d) n =
      if n = e.definition.name then Context.mentioned (ctx.standing d n) aggregation
      else ctx.standing d n := by
  rcases addMetric_cases he fuel term aggregation false d with
    ⟨hthere, heq⟩ | ⟨hno, -⟩ | ⟨hnew, -, heq⟩
  · rw [heq, if_neg Bool.false_ne_true, standing_update hthere]
  · exact absurd hfield hno
  · rw [heq, foldl_addReference_standing
        (fun e' he' term d n => addMetric_standing_hidden fuel he' term d n) he,
      standing_add hnew]
    show (if n = e.definition.name then _ else _) = _
    split
    · next hn =>
      rw [hn, standing_of_notMem he hnew]
      rfl
    · rfl

/-- Without a conflict a metric is complete, and one that is complete raises none. -/
theorem includeMetric_conflicts {d : Draft} (h : d.Sound ctx) (hclosed : d.ClosedBut [])
    {name : String} (hentry : ctx.HasEntry .metric name) (term : String)
    (aggregation : Option Aggregation) (hidden : Bool) :
    (ctx.includeMetric name term aggregation hidden d).conflicts = [] ↔
      d.conflicts = [] ∧ ctx.IsComplete name := by
  have hstep : Step ctx d (ctx.includeMetric name term aggregation hidden d) :=
    .includeMetric h name term aggregation hidden
  constructor
  · intro hnil
    have hin := includeMetric_resolved h hentry hnil
    exact ⟨hstep.grows.conflicts hnil, fun other hneeds =>
      hstep.sound.isKnown (hstep.sound.needs_mem (hstep.closed [] hclosed) hnil hneeds hin)⟩
  · rintro ⟨hnil, hcomplete⟩
    exact (addMetric_conflicts _ hcomplete term aggregation hidden d).trans hnil

/-- Without a conflict, exactly what the metric needs is added. -/
theorem includeMetric_names {d : Draft} (h : d.Sound ctx) (hclosed : d.ClosedBut [])
    {name : String} (hentry : ctx.HasEntry .metric name) {term : String}
    {aggregation : Option Aggregation} {hidden : Bool}
    (hnil : (ctx.includeMetric name term aggregation hidden d).conflicts = []) (n : String) :
    n ∈ (ctx.includeMetric name term aggregation hidden d).names ↔
      n ∈ d.names ∨ ctx.Needs name n := by
  have hstep : Step ctx d (ctx.includeMetric name term aggregation hidden d) :=
    .includeMetric h name term aggregation hidden
  have hin := includeMetric_resolved h hentry hnil
  obtain ⟨e, he, rfl, -⟩ := hasEntry_metric hentry
  refine ⟨addMetric_names _ he term aggregation hidden d n, ?_⟩
  rintro (hn | hneeds)
  · exact hstep.grows.names n hn
  · exact hstep.sound.needs_mem (hstep.closed [] hclosed) hnil hneeds hin

/-- Adding a metric adds nothing else than metrics. -/
theorem addMetric_dimensions (fuel : Nat) (name term : String) (aggregation : Option Aggregation)
    (hidden : Bool) (d : Draft) :
    (ctx.addMetric fuel name term aggregation hidden d).dimensions = d.dimensions := by
  induction fuel generalizing name term aggregation hidden d with
  | zero => rfl
  | succ fuel ih =>
    unfold Context.addMetric
    split
    · rfl
    · simp only
      split
      · split <;> rfl
      · split
        · rfl
        · refine List.foldlRecOn (motive := fun d' : Draft => d'.dimensions = d.dimensions) _ _ rfl ?_
          intro d' hd' r _
          split
          · rw [ih, hd']
          · exact hd'

end Mapping

end MetricLayer
