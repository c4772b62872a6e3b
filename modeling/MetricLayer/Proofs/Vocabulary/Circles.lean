import MetricLayer.Proofs.Vocabulary.Dictionary

/-!
# Formulas that run in circles

A metric whose formula refers to a metric is linked to it. Names in formulas are compared as terms, and
a name that means no metric links to nothing. `DictionaryDefinition.Links` says so on the definitions,
without the dictionary that is made of them.

The formulas are kept in a hash map, so they are visited in any order. The order decides which metric a
circle is named by, and nothing else.

Results:
1. `edge_iff`: the graph in which circles are looked for has the links as its edges.
2. `entriesVisiting_eq`: a definition without other faults is refused for its circles only.
3. `catchesCircles`: it is refused if and only if a metric is calculated from itself.
-/

namespace MetricLayer.DictionaryDefinition

/-! ## Links -/

/-- Apart from circles the definition has no faults: the terms of its metrics differ, and so do those
of its dimensions; every metric has a formula that can be read, or a field. -/
structure IsWellFormed (d : DictionaryDefinition) : Prop where
  metrics_differ : (d.metrics.map fun m => Term.ofPhrase m.name).Nodup
  dimensions_differ : (d.dimensions.map fun x => Term.ofPhrase x.name).Nodup
  readable : ∀ m ∈ d.metrics,
    (∃ source f, m.formula = some source ∧ Formula.parse source = .ok f) ∨
      (m.formula = none ∧ m.field.isSome = true)

/-- The formula of the first metric refers to the second one. -/
def Links (d : DictionaryDefinition) (m n : MetricDefinition) : Prop :=
  m ∈ d.metrics ∧ n ∈ d.metrics ∧ ∃ source f, m.formula = some source ∧
    Formula.parse source = .ok f ∧ ∃ r ∈ f.references, Term.ofPhrase r = Term.ofPhrase n.name

/-- The metric is calculated from itself, directly or through other metrics. -/
def IsCircular (d : DictionaryDefinition) (m : MetricDefinition) : Prop :=
  Relation.TransGen d.Links m m

/-- Circles are what a definition is refused for. -/
structure CatchesCircles {α : Type} (d : DictionaryDefinition) (result : Except DictionaryError α) :
    Prop where
  /-- There is an error if a metric is calculated from itself, and only then. -/
  error_iff : (∃ name, result = .error (.cyclicFormula name)) ↔ ∃ m, d.IsCircular m
  /-- The error names such a metric. -/
  named : ∀ name, result = .error (.cyclicFormula name) →
    ∃ m ∈ d.metrics, m.name = name ∧ d.IsCircular m
  /-- Otherwise nothing is wrong with the definition. -/
  ok_iff : (∃ entries, result = .ok entries) ↔ ∀ m, ¬ d.IsCircular m

variable {d : DictionaryDefinition} {visits : List String} {metrics : List MetricEntry}

/-! ## Entries -/

theorem firstRepeated?_eq_none {seen : List String} {xs : List (String × Terms)}
    (hnodup : (xs.map (·.2.name)).Nodup) (hseen : ∀ x ∈ xs, x.2.name ∉ seen) :
    firstRepeated? seen xs = none := by
  induction xs generalizing seen with
  | nil => rfl
  | cons x xs ih =>
    obtain ⟨name, terms⟩ := x
    rw [List.map_cons, List.nodup_cons] at hnodup
    have hnew : seen.contains terms.name = false := by
      simpa using hseen (name, terms) List.mem_cons_self
    rw [firstRepeated?, hnew, if_neg Bool.false_ne_true]
    refine ih hnodup.2 fun y hy hmem => ?_
    rcases List.mem_cons.mp hmem with heq | hmem
    · exact hnodup.1 (heq ▸ List.mem_map_of_mem hy)
    · exact hseen y (List.mem_cons_of_mem _ hy) hmem

theorem mem_metricTerms {m : MetricDefinition} {terms : Terms} :
    (m, terms) ∈ d.metricTerms ↔ m ∈ d.metrics ∧ terms = .ofNames m.name m.synonyms := by
  simp only [metricTerms, List.mem_map, Prod.mk.injEq]
  constructor
  · rintro ⟨m, hm, rfl, rfl⟩
    exact ⟨hm, rfl⟩
  · rintro ⟨hm, rfl⟩
    exact ⟨m, hm, rfl, rfl⟩

/-- Every metric of a definition without other faults has an entry. -/
theorem IsWellFormed.exists_entries (h : d.IsWellFormed) :
    ∃ metrics, d.metricTerms.mapM (fun (m, t) => metricEntry d.metricTerms m t) = .ok metrics := by
  refine mapM_isOk ?_
  rintro ⟨m, terms⟩ hm
  unfold metricEntry
  rcases h.readable m (mem_metricTerms.mp hm).1 with ⟨source, f, hformula, hf⟩ | ⟨hformula, hfield⟩
  · exact ⟨_, by simp only [hformula, hf]; rfl⟩
  · obtain ⟨field, hfield⟩ := Option.isSome_iff_exists.mp hfield
    exact ⟨_, by simp only [hformula, hfield]; rfl⟩

/-- Metrics with one term are one metric. -/
theorem IsWellFormed.metric_eq (h : d.IsWellFormed) {m n : MetricDefinition} (hm : m ∈ d.metrics)
    (hn : n ∈ d.metrics) (hterm : Term.ofPhrase m.name = Term.ofPhrase n.name) : m = n :=
  List.inj_on_of_nodup_map h.metrics_differ hm hn hterm

theorem IsWellFormed.names_differ (h : d.IsWellFormed) : (d.metrics.map (·.name)).Nodup := by
  refine .of_map Term.ofPhrase ?_
  rw [List.map_map]
  exact h.metrics_differ

/-- A reference means the metric with its term. -/
theorem IsWellFormed.resolve_eq_iff (h : d.IsWellFormed) {r : String} {n : MetricDefinition}
    (hn : n ∈ d.metrics) :
    resolve d.metricTerms r = n.name ↔ Term.ofPhrase r = Term.ofPhrase n.name := by
  unfold resolve
  simp only
  split
  · next m terms hfind =>
    obtain ⟨hm, rfl⟩ := mem_metricTerms.mp (List.mem_of_find?_eq_some hfind)
    have hfound := List.find?_some hfind
    have hterm : Term.ofPhrase m.name = Term.ofPhrase r := of_decide_eq_true hfound
    rw [← hterm]
    exact ⟨congrArg Term.ofPhrase, fun heq => by rw [h.metric_eq hm hn heq]⟩
  · next hfind =>
    refine ⟨congrArg Term.ofPhrase, fun heq => ?_⟩
    have := List.find?_eq_none.mp hfind (n, _) (mem_metricTerms.mpr ⟨hn, rfl⟩)
    simp [Terms.ofNames, heq] at this

/-! ## The graph -/

/-- The graph of the formulas has the links as its edges. -/
theorem IsWellFormed.edge_iff (h : d.IsWellFormed)
    (hmetrics : d.metricTerms.mapM (fun (m, t) => metricEntry d.metricTerms m t) = .ok metrics)
    {a b : String} : (formulaGraph visits metrics).Edge a b ↔
      ∃ m n, d.Links m n ∧ m.name = a ∧ n.name = b := by
  have hnames := metricEntry_names hmetrics
  constructor
  · intro hedge
    unfold Cycle.Graph.Edge formulaGraph at hedge
    simp only at hedge
    split at hedge
    · next e hfind =>
      obtain ⟨⟨m, terms⟩, hm, he⟩ := mapM_mem hmetrics e (List.mem_of_find?_eq_some hfind)
      obtain ⟨rfl, -, hformula⟩ := metricEntry_spec he
      have ha : e.definition.name = a := by simpa using List.find?_some hfind
      obtain ⟨hreference, hb⟩ := List.mem_filter.mp hedge
      rcases hformula with ⟨hnone, -, -⟩ | ⟨source, f, hsource, hf, hrenamed⟩
      · rw [hnone] at hreference
        cases hreference
      · simp only [hrenamed, Option.map_some, Option.getD_some, Formula.references,
          List.mem_eraseDups] at hreference
        obtain ⟨r, hr, hresolve⟩ := Formula.mem_names_rename.mp hreference
        have hbin : b ∈ d.metrics.map (·.name) := by simpa [← hnames] using hb
        obtain ⟨n, hn, rfl⟩ := List.mem_map.mp hbin
        exact ⟨e.definition, n, ⟨(mem_metricTerms.mp hm).1, hn, source, f, hsource, hf, r,
          List.mem_eraseDups.mpr hr, (h.resolve_eq_iff hn).mp hresolve⟩, ha, rfl⟩
    · cases hedge
  · rintro ⟨m, n, ⟨hm, hn, source, f, hsource, hf, r, hr, hterm⟩, rfl, rfl⟩
    obtain ⟨e, hein, he⟩ := mapM_apply hmetrics (m, _) (mem_metricTerms.mpr ⟨hm, rfl⟩)
    obtain ⟨rfl, -, hformula⟩ := metricEntry_spec he
    have hfind : metrics.find? (·.definition.name = e.definition.name) = some e :=
      find?_key (hnames ▸ h.names_differ) hein
    rcases hformula with ⟨-, -, hnone⟩ | ⟨source', f', hsource', hf', hrenamed⟩
    · rw [hsource] at hnone
      cases hnone
    · rw [hsource] at hsource'
      cases hsource'
      rw [hf] at hf'
      cases hf'
      unfold Cycle.Graph.Edge formulaGraph
      simp only [hfind, hrenamed, Option.map_some, Option.getD_some]
      refine List.mem_filter.mpr ⟨List.mem_eraseDups.mpr (Formula.mem_names_rename.mpr ?_), ?_⟩
      · exact ⟨r, List.mem_eraseDups.mp hr, (h.resolve_eq_iff hn).mpr hterm⟩
      · rw [hnames, List.contains_eq_mem, decide_eq_true_eq]
        exact List.mem_map_of_mem hn

theorem IsWellFormed.isDrawn (h : d.IsWellFormed)
    (hmetrics : d.metricTerms.mapM (fun (m, t) => metricEntry d.metricTerms m t) = .ok metrics)
    (hvisits : visits.Perm (d.metrics.map (·.name))) :
    (formulaGraph visits metrics).IsDrawn where
  targets a b hedge := by
    obtain ⟨m, n, hlink, -, rfl⟩ := (h.edge_iff hmetrics).mp hedge
    show n.name ∈ metrics.map (·.definition.name)
    rw [metricEntry_names hmetrics]
    exact List.mem_map_of_mem hlink.2.1
  sources n := by
    show n ∈ visits ↔ n ∈ metrics.map (·.definition.name)
    rw [metricEntry_names hmetrics]
    exact hvisits.mem_iff

/-- A way through the graph is a way along links. -/
theorem IsWellFormed.transGen_iff (h : d.IsWellFormed)
    (hmetrics : d.metricTerms.mapM (fun (m, t) => metricEntry d.metricTerms m t) = .ok metrics)
    {a b : String} : Relation.TransGen (formulaGraph visits metrics).Edge a b ↔
      ∃ m n, Relation.TransGen d.Links m n ∧ m.name = a ∧ n.name = b := by
  constructor
  · intro hpath
    induction hpath with
    | single hedge =>
      obtain ⟨m, n, hlink, rfl, rfl⟩ := (h.edge_iff hmetrics).mp hedge
      exact ⟨m, n, .single hlink, rfl, rfl⟩
    | tail _ hedge ih =>
      obtain ⟨m, n, hpath, rfl, hn⟩ := ih
      obtain ⟨n', k, hlink, rfl, rfl⟩ := (h.edge_iff hmetrics).mp hedge
      obtain ⟨x, -, hlast⟩ := Relation.TransGen.tail'_iff.mp hpath
      obtain rfl := h.metric_eq hlast.2.1 hlink.1 (congrArg Term.ofPhrase hn)
      exact ⟨m, k, hpath.tail hlink, rfl, rfl⟩
  · rintro ⟨m, n, hpath, rfl, rfl⟩
    exact hpath.lift (·.name) fun x y hlink => (h.edge_iff hmetrics).mpr ⟨x, y, hlink, rfl, rfl⟩

theorem IsCircular.mem {m : MetricDefinition} (h : d.IsCircular m) : m ∈ d.metrics := by
  obtain ⟨x, -, hlast⟩ := Relation.TransGen.tail'_iff.mp h
  exact hlast.2.1

/-- The graph has a cycle at the name of a metric if the metric is calculated from itself. -/
theorem IsWellFormed.circular_iff (h : d.IsWellFormed)
    (hmetrics : d.metricTerms.mapM (fun (m, t) => metricEntry d.metricTerms m t) = .ok metrics)
    {a : String} : Relation.TransGen (formulaGraph visits metrics).Edge a a ↔
      ∃ m, d.IsCircular m ∧ m.name = a := by
  rw [h.transGen_iff hmetrics]
  constructor
  · rintro ⟨m, n, hpath, rfl, hn⟩
    obtain ⟨x, hfirst, -⟩ := Relation.TransGen.head'_iff.mp hpath
    obtain ⟨y, -, hlast⟩ := Relation.TransGen.tail'_iff.mp hpath
    obtain rfl := h.metric_eq hlast.2.1 hfirst.1 (congrArg Term.ofPhrase hn)
    exact ⟨n, hpath, rfl⟩
  · rintro ⟨m, hcircle, rfl⟩
    exact ⟨m, m, hcircle, rfl, rfl⟩

/-! ## Circles -/

/-- Apart from circles nothing is wrong with the definition. -/
theorem IsWellFormed.entriesVisiting_eq (h : d.IsWellFormed) (visits : List String) :
    ∃ metrics dimensions,
      d.metricTerms.mapM (fun (m, t) => metricEntry d.metricTerms m t) = .ok metrics ∧
        d.entriesVisiting visits = match Cycle.cyclic? (formulaGraph visits metrics) with
          | some name => .error (.cyclicFormula name)
          | none => .ok (metrics, dimensions) := by
  obtain ⟨metrics, hmetrics⟩ := h.exists_entries
  have hterms : firstRepeated? [] (d.metricTerms.map fun (m, t) => (m.name, t)) = none := by
    refine firstRepeated?_eq_none ?_ fun _ _ => List.not_mem_nil
    simpa [metricTerms, List.map_map, Function.comp_def, Terms.ofNames] using h.metrics_differ
  have hdimensions : firstRepeated? [] ((d.dimensions.map fun x =>
      (⟨x, .ofNames x.name x.synonyms⟩ : DimensionEntry)).map
        fun x => (x.definition.name, x.terms)) = none := by
    refine firstRepeated?_eq_none ?_ fun _ _ => List.not_mem_nil
    simpa [List.map_map, Function.comp_def, Terms.ofNames] using h.dimensions_differ
  refine ⟨metrics, d.dimensions.map fun x => ⟨x, .ofNames x.name x.synonyms⟩, hmetrics, ?_⟩
  unfold entriesVisiting
  simp only [hterms, hdimensions]
  show (d.metricTerms.mapM (fun (m, t) => metricEntry d.metricTerms m t) >>= _) = _
  rw [bind_of_ok hmetrics]
  cases Cycle.cyclic? (formulaGraph visits metrics) <;> rfl

theorem IsWellFormed.catchesCircles (h : d.IsWellFormed)
    (hvisits : visits.Perm (d.metrics.map (·.name))) :
    d.CatchesCircles (d.entriesVisiting visits) := by
  obtain ⟨metrics, dimensions, hmetrics, heq⟩ := h.entriesVisiting_eq visits
  have hdrawn := h.isDrawn hmetrics hvisits
  rw [heq]
  cases hcyclic : Cycle.cyclic? (formulaGraph visits metrics) with
  | some name =>
    obtain ⟨m, hcircle, rfl⟩ := (h.circular_iff hmetrics).mp (Cycle.cyclic?_some hdrawn hcyclic)
    refine ⟨⟨fun _ => ⟨m, hcircle⟩, fun _ => ⟨_, rfl⟩⟩, ?_, ?_⟩
    · rintro name ⟨⟩
      exact ⟨m, hcircle.mem, rfl, hcircle⟩
    · exact ⟨fun ⟨_, hok⟩ => (nomatch hok), fun hnone => absurd hcircle (hnone m)⟩
  | none =>
    have hnone : ∀ m, ¬ d.IsCircular m := fun m hcircle =>
      (Cycle.cyclic?_eq_none_iff hdrawn).mp hcyclic m.name
        ((h.circular_iff hmetrics).mpr ⟨m, hcircle, rfl⟩)
    refine ⟨⟨fun ⟨_, herror⟩ => (nomatch herror), fun ⟨m, hcircle⟩ => absurd hcircle (hnone m)⟩, ?_,
      ⟨fun _ => hnone, fun _ => ⟨_, rfl⟩⟩⟩
    exact nofun

end MetricLayer.DictionaryDefinition
