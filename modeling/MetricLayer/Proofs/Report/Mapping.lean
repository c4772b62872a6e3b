import MetricLayer.Proofs.Report.Draft
import MetricLayer.Translation.Metric

/-!
# What is known of a mapped report

`Report.Mapped` says what holds of every report that comes out of the mapping, whatever the request:
its metrics, dimensions and filters are those of the dictionary, with fields of the schema. Without
open conflicts, everything that a metric is calculated from is in the report, and so every metric
has an expression.

Results:
1. `map_mapped` and `map_closed`: what the mapping gives.
2. `Mapped.metricExpr_isOk`: every metric of a report without conflicts can be written.
-/

namespace MetricLayer

/-- The parts of a report are those of the dictionary and the schema. -/
structure Report.Mapped (ctx : Mapping.Context) (r : Report) : Prop where
  metrics : ∀ m ∈ r.metrics, ctx.IsMetric m
  names_differ : (r.metrics.map (·.name)).Nodup
  dimensions : ∀ x ∈ r.dimensions, ctx.IsDimension x
  dimensions_differ : (r.dimensions.map (·.name)).Nodup
  filters : ∀ f ∈ r.filters, ctx.IsFilter f

/-- Everything that a metric is calculated from is in the report. -/
def Report.Closed (r : Report) : Prop :=
  ∀ m ∈ r.metrics, ∀ f, m.formula = some f → ∀ name ∈ f.names, name ∈ r.metrics.map (·.name)

namespace Mapping

/-- What the mapping does not choose about a metric, its name tells. -/
theorem Context.IsMetric.of_name {ctx : Context} {m m' : ReportMetric} (hm : ctx.IsMetric m)
    (hm' : ctx.IsMetric m') (hname : m.name = m'.name) :
    m.formula = m'.formula ∧ m.type = m'.type ∧ m.field = m'.field := by
  obtain ⟨e, he, hen, hformula, htype, hfield, -⟩ := hm
  obtain ⟨e', he', hen', hformula', htype', hfield', -⟩ := hm'
  obtain rfl := Dictionary.metric_eq he he' (hen.trans (hname.trans hen'.symm))
  exact ⟨hformula.trans hformula'.symm, htype.trans htype'.symm, hfield.trans hfield'.symm⟩

theorem map_mapped (ctx : Context) (request : Request) : (ctx.map request).report.Mapped ctx := by
  obtain ⟨hstep, hfilters⟩ := finalDraft_spec ctx request
  rw [ctx.map_eq]
  constructor
  case metrics => exact fun m hm => hstep.sound.metrics m (List.mem_mergeSort.mp hm)
  case names_differ =>
    exact ((List.mergeSort_perm _ _).map _).nodup_iff.mpr hstep.sound.names_differ
  case dimensions => exact fun x hx => hstep.sound.dimensions x (List.mem_mergeSort.mp hx)
  case dimensions_differ =>
    exact ((List.mergeSort_perm _ _).map _).nodup_iff.mpr hstep.sound.dimensions_differ
  case filters =>
    intro f hf
    obtain ⟨x, hx, rfl⟩ := List.mem_map.mp (List.mem_mergeSort.mp hf)
    exact hfilters x hx

theorem isResolved_iff {ctx : Context} {request : Request} :
    (ctx.map request).isResolved = true ↔ (ctx.finalDraft request).conflicts = [] := by
  rw [ctx.map_eq]
  exact List.isEmpty_iff

/-- The names of the metrics of a report are those of its draft. -/
theorem mem_map_names {ctx : Context} {request : Request} {name : String} :
    name ∈ (ctx.map request).report.metrics.map (·.name) ↔ name ∈ (ctx.finalDraft request).names := by
  rw [ctx.map_eq]
  exact ((List.mergeSort_perm _ _).map _).mem_iff

theorem map_closed {ctx : Context} {request : Request} (h : (ctx.map request).isResolved = true) :
    (ctx.map request).report.Closed := by
  have hclosed := (finalDraft_spec ctx request).1.closed [] (by intro _ m hm; cases hm)
  intro m hm f hf name hname
  have hm : m ∈ (ctx.finalDraft request).metrics := by
    rw [ctx.map_eq] at hm
    exact List.mem_mergeSort.mp hm
  exact mem_map_names.mpr (hclosed (isResolved_iff.mp h) m hm (by simp) f hf name hname)

end Mapping

/-! ## Expressions of metrics -/

/-- A formula can be written if its references can. -/
theorem Formula.toExpr_isOk {ε : Type} {reference : String → Except ε Expr} {f : Formula}
    (h : ∀ name ∈ f.names, ∃ e, reference name = .ok e) : ∃ e, f.toExpr reference = .ok e := by
  induction f with
  | metric name => exact h name (by simp [names])
  | number x => exact ⟨_, rfl⟩
  | group inner ih =>
    obtain ⟨e, he⟩ := ih h
    exact ⟨.nested e, by simp only [toExpr, he]; rfl⟩
  | binary left op right ihl ihr =>
    obtain ⟨a, ha⟩ := ihl fun name hname => h name (List.mem_append_left right.names hname)
    obtain ⟨b, hb⟩ := ihr fun name hname => h name (List.mem_append_right left.names hname)
    exact ⟨op.expr a b, by simp only [toExpr, ha, hb]; rfl⟩

namespace Report.Mapped

open Mapping

variable {ctx : Context} {r : Report}

/-- A metric is found under its name. -/
theorem metric?_eq (h : r.Mapped ctx) {m : ReportMetric} (hm : m ∈ r.metrics) :
    r.metric? m.name = some m :=
  find?_key h.names_differ hm

/-- Formulas stand as they were read. -/
theorem formula_canonical (h : r.Mapped ctx) {m : ReportMetric} (hm : m ∈ r.metrics) {f : Formula}
    (hf : m.formula = some f) : f.Canonical := by
  obtain ⟨e, he, -, hformula, -⟩ := h.metrics m hm
  exact Dictionary.formula_canonical he (hformula ▸ hf)

/-- A metric without a formula has a field. -/
theorem exists_field (h : r.Mapped ctx) {m : ReportMetric} (hm : m ∈ r.metrics)
    (hf : m.formula = none) : ∃ f, m.field = some f := by
  obtain ⟨e, he, -, hformula, -, -, hfield⟩ := h.metrics m hm
  rcases (Dictionary.metric_spec he).2.2 with ⟨-, hsome⟩ | ⟨source, f, -, hsome⟩
  · exact Option.isSome_iff_exists.mp (hfield hsome)
  · rw [hformula, hsome] at hf
    cases hf

/-- A reference leads to a metric of the report, and references bring the rank down. -/
theorem exists_rank (h : r.Mapped ctx) (hclosed : r.Closed) :
    ∃ rank : String → Nat, ∀ m ∈ r.metrics, ∀ f, m.formula = some f → ∀ name ∈ f.names,
      ∃ n ∈ r.metrics, r.metric? name = some n ∧ n.name = name ∧ rank name < rank m.name := by
  obtain ⟨rank, hrank⟩ := Dictionary.exists_rank ctx.dictionary
  refine ⟨rank, fun m hm f hf name hname => ?_⟩
  obtain ⟨n, hn, hnname⟩ := List.mem_map.mp (hclosed m hm f hf name hname)
  refine ⟨n, hn, hnname ▸ h.metric?_eq hn, hnname, ?_⟩
  obtain ⟨e, he, hename, hformula, -⟩ := h.metrics m hm
  obtain ⟨e', he', hename', -⟩ := h.metrics n hn
  rw [← hename]
  exact hrank e he f (hformula ▸ hf) name hname e' he' (hename'.trans hnname)

/-- A chain of references has no metric twice, so its length is bounded by their number. -/
theorem metricExprWithin_isOk (h : r.Mapped ctx) {rank : String → Nat}
    (hrank : ∀ m ∈ r.metrics, ∀ f, m.formula = some f → ∀ name ∈ f.names,
      ∃ n ∈ r.metrics, r.metric? name = some n ∧ n.name = name ∧ rank name < rank m.name)
    (fuel : Nat) {m : ReportMetric} (hm : m ∈ r.metrics)
    (hfuel : (r.metrics.filter fun n => rank n.name ≤ rank m.name).length ≤ fuel) :
    ∃ e, r.metricExprWithin fuel m = .ok e := by
  induction fuel generalizing m with
  | zero =>
    have hmem : m ∈ r.metrics.filter fun n => rank n.name ≤ rank m.name := by simp [hm]
    exact absurd (List.length_pos_of_mem hmem) (by omega)
  | succ fuel ih =>
    unfold metricExprWithin
    split
    · next f hf =>
      refine Formula.toExpr_isOk fun name hname => ?_
      obtain ⟨n, hn, hfind, hnname, hlt⟩ := hrank m hm f hf name hname
      simp only [hfind]
      refine ih hn ?_
      rw [hnname]
      -- fewer metrics have at most the rank of the reference: the metric itself has not
      have hsub : (r.metrics.filter fun x => rank x.name ≤ rank name).Sublist
          (r.metrics.filter fun x => rank x.name ≤ rank m.name) := by
        refine List.monotone_filter_right _ fun x hx => ?_
        simp only [decide_eq_true_eq] at hx ⊢
        omega
      have hne : (r.metrics.filter fun x => rank x.name ≤ rank name).length ≠
          (r.metrics.filter fun x => rank x.name ≤ rank m.name).length := by
        intro heq
        have hmem : m ∈ r.metrics.filter fun x => rank x.name ≤ rank m.name := by simp [hm]
        rw [← hsub.eq_of_length heq] at hmem
        have := (List.mem_filter.mp hmem).2
        simp only [decide_eq_true_eq] at this
        omega
      have := hsub.length_le
      omega
    · exact ⟨_, rfl⟩
    · next hf hfield =>
      obtain ⟨f, hsome⟩ := h.exists_field hm hf
      rw [hsome] at hfield
      cases hfield

/-- Every metric of a report without open conflicts can be written. -/
theorem metricExpr_isOk (h : r.Mapped ctx) (hclosed : r.Closed) {m : ReportMetric}
    (hm : m ∈ r.metrics) : ∃ e, r.metricExpr m = .ok e := by
  obtain ⟨rank, hrank⟩ := h.exists_rank hclosed
  refine h.metricExprWithin_isOk hrank _ hm ?_
  exact Nat.le_succ_of_le (List.length_filter_le ..)

end Report.Mapped

end MetricLayer
