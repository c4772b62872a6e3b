import MetricLayer.Proofs.Basic
import MetricLayer.Proofs.Vocabulary.Cycle
import MetricLayer.Proofs.Vocabulary.Formula
import MetricLayer.Vocabulary.Dictionary

/-!
# What a dictionary promises

A `Dictionary` can only be built from a definition without faults. These are the promises that
follow for its entries.

Results:
1. `metric?_of_mem` and `dimension?_of_mem`: an entry is found under its own name.
2. `metric?_reference`: a reference of a formula names a metric exactly, or none at all.
3. `exists_rank`: formulas do not run in circles.
4. `formula_canonical`: formulas are as they were read.
-/

namespace MetricLayer

namespace DictionaryDefinition

theorem firstRepeated?_none {seen : List String} {xs : List (String × Terms)}
    (h : firstRepeated? seen xs = none) :
    (xs.map (·.2.name)).Nodup ∧ ∀ x ∈ xs, x.2.name ∉ seen := by
  induction xs generalizing seen with
  | nil => simp
  | cons x xs ih =>
    obtain ⟨name, terms⟩ := x
    unfold firstRepeated? at h
    split at h
    · cases h
    · next hseen =>
      obtain ⟨hnodup, hall⟩ := ih h
      refine ⟨?_, ?_⟩
      · rw [List.map_cons, List.nodup_cons]
        refine ⟨fun hmem => ?_, hnodup⟩
        obtain ⟨y, hy, heq⟩ := List.mem_map.mp hmem
        exact hall y hy (by simp [heq])
      · intro y hy
        rcases List.mem_cons.mp hy with rfl | hy
        · simpa using hseen
        · exact fun hin => hall y hy (List.mem_cons_of_mem _ hin)

/-- An entry has the definition and the terms that it was made from. -/
theorem metricEntry_spec {metrics : List (MetricDefinition × Terms)} {m : MetricDefinition}
    {terms : Terms} {e : MetricEntry} (h : metricEntry metrics m terms = .ok e) :
    e.definition = m ∧ e.terms = terms ∧
      ((e.formula = none ∧ m.field.isSome = true ∧ m.formula = none) ∨ ∃ source f,
        m.formula = some source ∧ Formula.parse source = .ok f ∧
          e.formula = some (f.rename (resolve metrics))) := by
  unfold metricEntry at h
  split at h
  · next source hsource =>
    split at h
    · next f hf =>
      cases h
      exact ⟨rfl, rfl, .inr ⟨source, f, hsource, hf, rfl⟩⟩
    · cases h
  · next hformula hfield =>
    cases h
    exact ⟨rfl, rfl, .inl ⟨rfl, by rw [hfield]; rfl, hformula⟩⟩
  · cases h

/-- Entries are in the order of their definitions. -/
theorem metricEntry_names {d : DictionaryDefinition} {metrics : List MetricEntry}
    (h : d.metricTerms.mapM (fun (m, t) => metricEntry d.metricTerms m t) = .ok metrics) :
    metrics.map (·.definition.name) = d.metrics.map (·.name) := by
  have hnames : d.metricTerms.map (·.1.name) = d.metrics.map (·.name) := by
    rw [metricTerms, List.map_map]
    rfl
  rw [← hnames]
  refine mapM_map (f := fun (m, t) => metricEntry d.metricTerms m t) ?_ h
  rintro ⟨m, terms⟩ e he
  exact congrArg MetricDefinition.name (metricEntry_spec he).1

/-- What the entries of a definition without faults are. -/
structure Faultless (d : DictionaryDefinition) (metrics : List MetricEntry)
    (dimensions : List DimensionEntry) : Prop where
  metrics_read : d.metricTerms.mapM (fun (m, t) => metricEntry d.metricTerms m t) = .ok metrics
  dimensions_eq : dimensions = d.dimensions.map fun x => ⟨x, .ofNames x.name x.synonyms⟩
  metrics_differ : (d.metricTerms.map (·.2.name)).Nodup
  dimensions_differ : (dimensions.map (·.terms.name)).Nodup
  acyclic : Cycle.cyclic? (formulaGraph (d.metrics.map (·.name)) metrics) = none

theorem entries_faultless {d : DictionaryDefinition} {metrics : List MetricEntry}
    {dimensions : List DimensionEntry} (h : d.entries = .ok (metrics, dimensions)) :
    d.Faultless metrics dimensions := by
  unfold entries entriesVisiting at h
  simp only at h
  split at h
  · cases h
  next hmetrics =>
  split at h
  · cases h
  next hdimensions =>
  obtain ⟨entries, hentries, h⟩ := bind_eq_ok h
  split at h
  · cases h
  next hcyclic =>
  cases h
  refine ⟨hentries, rfl, ?_, ?_, hcyclic⟩
  · simpa [List.map_map, Function.comp_def] using (firstRepeated?_none hmetrics).1
  · simpa [List.map_map, Function.comp_def] using (firstRepeated?_none hdimensions).1

end DictionaryDefinition

namespace Dictionary

open DictionaryDefinition (formulaGraph resolve metricEntry)

variable {d : Dictionary}

theorem faultless (d : Dictionary) : d.definition.Faultless d.metrics d.dimensions :=
  DictionaryDefinition.entries_faultless d.built

/-! ## Metrics -/

/-- An entry has the terms of its names, and a formula or a field. -/
theorem metric_spec {e : MetricEntry} (he : e ∈ d.metrics) :
    (e.definition, e.terms) ∈ d.definition.metricTerms ∧
      e.terms = .ofNames e.definition.name e.definition.synonyms ∧
      ((e.formula = none ∧ e.definition.field.isSome = true) ∨ ∃ source f,
        Formula.parse source = .ok f ∧
          e.formula = some (f.rename (resolve d.definition.metricTerms))) := by
  obtain ⟨⟨m, terms⟩, hmem, hentry⟩ := mapM_mem d.faultless.metrics_read e he
  obtain ⟨rfl, rfl, hformula⟩ := DictionaryDefinition.metricEntry_spec hentry
  refine ⟨hmem, ?_, ?_⟩
  · obtain ⟨m, -, hm⟩ := List.mem_map.mp hmem
    obtain ⟨rfl, hterms⟩ := Prod.mk.inj hm
    exact hterms.symm
  · rcases hformula with ⟨hnone, hfield, -⟩ | ⟨source, f, -, hparse, hf⟩
    · exact .inl ⟨hnone, hfield⟩
    · exact .inr ⟨source, f, hparse, hf⟩

theorem metrics_differ (d : Dictionary) : (d.metrics.map (·.terms.name)).Nodup := by
  have hmap : d.metrics.map (·.terms.name) = d.definition.metricTerms.map (·.2.name) := by
    refine mapM_map (f := fun (m, t) => metricEntry d.definition.metricTerms m t) ?_
      d.faultless.metrics_read
    rintro ⟨m, terms⟩ e he
    exact congrArg Terms.name (DictionaryDefinition.metricEntry_spec he).2.1
  exact hmap ▸ d.faultless.metrics_differ

theorem names_differ (d : Dictionary) : (d.metrics.map (·.definition.name)).Nodup := by
  refine .of_map Term.ofPhrase ?_
  have hterms : (d.metrics.map (·.definition.name)).map Term.ofPhrase =
      d.metrics.map (·.terms.name) := by
    rw [List.map_map]
    exact List.map_congr_left fun e he => by rw [(metric_spec he).2.1]; rfl
  exact hterms ▸ d.metrics_differ

theorem metric?_spec {name : String} {e : MetricEntry} (h : d.metric? name = some e) :
    e ∈ d.metrics ∧ e.terms.name = Term.ofPhrase name :=
  ⟨List.mem_of_find?_eq_some h, by simpa using List.find?_some h⟩

/-- An entry is found under its own name. -/
theorem metric?_of_mem {e : MetricEntry} (he : e ∈ d.metrics) :
    d.metric? e.definition.name = some e := by
  have hname : e.terms.name = Term.ofPhrase e.definition.name := by
    rw [(metric_spec he).2.1]
    rfl
  have hfind := find?_key d.metrics_differ he
  rw [hname] at hfind
  exact hfind

/-- Metrics of one name are one metric. -/
theorem metric_eq {e e' : MetricEntry} (he : e ∈ d.metrics) (he' : e' ∈ d.metrics)
    (hname : e.definition.name = e'.definition.name) : e = e' := by
  have h := metric?_of_mem he
  rw [hname, metric?_of_mem he'] at h
  exact (Option.some.inj h).symm

/-- A reference of a formula is the name of the metric that is found for it. -/
theorem metric?_reference {e e' : MetricEntry} {f : Formula} {name : String} (he : e ∈ d.metrics)
    (hf : e.formula = some f) (hname : name ∈ f.names) (h : d.metric? name = some e') :
    e'.definition.name = name := by
  obtain ⟨he', hterm⟩ := metric?_spec h
  obtain ⟨hmem', -, -⟩ := metric_spec he'
  rcases (metric_spec he).2.2 with ⟨hnone, -⟩ | ⟨source, g, -, hg⟩
  · rw [hnone] at hf
    cases hf
  rw [hg] at hf
  cases hf
  obtain ⟨reference, -, rfl⟩ := Formula.mem_names_rename.mp hname
  cases hfind : d.definition.metricTerms.find? (·.2.name = Term.ofPhrase reference) with
  | some found =>
    have hresolve : resolve d.definition.metricTerms reference = found.1.name := by
      simp only [resolve, hfind]
    rw [hresolve] at hterm ⊢
    -- both are the entry with the same term
    have hfound := List.mem_of_find?_eq_some hfind
    have hterms : found.2.name = Term.ofPhrase found.1.name := by
      obtain ⟨m, -, rfl⟩ := List.mem_map.mp hfound
      rfl
    have hsame := List.inj_on_of_nodup_map d.faultless.metrics_differ hmem' hfound
      (hterm.trans hterms.symm)
    rw [← hsame]
  | none =>
    have hresolve : resolve d.definition.metricTerms reference = reference := by
      simp only [resolve, hfind]
    rw [hresolve] at hterm
    have := List.find?_eq_none.mp hfind _ hmem'
    simp [hterm] at this

/-! ## Dimensions -/

/-- An entry is found under its own name. -/
theorem dimension?_of_mem {e : DimensionEntry} (he : e ∈ d.dimensions) :
    d.dimension? e.definition.name = some e := by
  have hname : e.terms.name = Term.ofPhrase e.definition.name := by
    rw [d.faultless.dimensions_eq] at he
    obtain ⟨x, -, rfl⟩ := List.mem_map.mp he
    rfl
  have hfind := find?_key d.faultless.dimensions_differ he
  rw [hname] at hfind
  exact hfind

/-- Dimensions of one name are one dimension. -/
theorem dimension_eq {e e' : DimensionEntry} (he : e ∈ d.dimensions) (he' : e' ∈ d.dimensions)
    (hname : e.definition.name = e'.definition.name) : e = e' := by
  have h := dimension?_of_mem he
  rw [hname, dimension?_of_mem he'] at h
  exact (Option.some.inj h).symm

/-- The entries are those of the definition. -/
theorem dimension_mem {e : DimensionEntry} (he : e ∈ d.dimensions) :
    e.definition ∈ d.definition.dimensions := by
  rw [d.faultless.dimensions_eq] at he
  obtain ⟨x, hx, rfl⟩ := List.mem_map.mp he
  exact hx

/-! ## Formulas -/

/-- A formula stands as it was read. -/
theorem formula_canonical {e : MetricEntry} {f : Formula} (he : e ∈ d.metrics)
    (hf : e.formula = some f) : f.Canonical := by
  rcases (metric_spec he).2.2 with ⟨hnone, -⟩ | ⟨source, g, hparse, hg⟩
  · rw [hnone] at hf
    cases hf
  · rw [hg] at hf
    cases hf
    exact (Formula.parse_canonical hparse).rename _

/-- Formulas do not run in circles: a reference to a metric brings the rank down. -/
theorem exists_rank (d : Dictionary) :
    ∃ rank : String → Nat, ∀ e ∈ d.metrics, ∀ f, e.formula = some f → ∀ name ∈ f.names,
      ∀ e' ∈ d.metrics, e'.definition.name = name → rank name < rank e.definition.name := by
  have hsources := DictionaryDefinition.metricEntry_names d.faultless.metrics_read
  obtain ⟨rank, hrank⟩ := Cycle.exists_rank (fun m hm => hsources ▸ hm) d.faultless.acyclic
  refine ⟨rank, ?_⟩
  rintro e he f hf name hname e' he' rfl
  have hnodes : ∀ x ∈ d.metrics, x.definition.name ∈ d.metrics.map (·.definition.name) :=
    fun x hx => List.mem_map_of_mem hx
  refine hrank _ (hnodes e he) _ (hnodes e' he') ?_
  have hfind : d.metrics.find? (·.definition.name = e.definition.name) = some e :=
    find?_key d.names_differ he
  simp only [formulaGraph, hfind, hf]
  simp [Formula.references, hname]
  exact ⟨e', he', rfl⟩

end Dictionary

end MetricLayer
