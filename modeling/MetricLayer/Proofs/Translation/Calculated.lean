import MetricLayer.Proofs.Report.Kept
import MetricLayer.Proofs.Translation.Metric

/-!
# What a calculated metric means

The expression of a metric is made of aggregates of columns, one for every plain metric that it is
calculated from. The dictionary says which aggregates these are, except that a metric stands in a
report only once. An aggregation that is named where a metric is asked for is therefore also the one
that it has in every formula of the report.

Results:
1. `Formula.toExpr_eq_iff`: a formula has one expression just if each reference has.
2. `Report.Mapped.metricExpr_eq_iff`: in two reports a metric has one expression just if every plain
   metric that it needs has one aggregation.
3. `Mapping.map_expressions_eq_iff`: which aggregations these are in the reports of two requests.
-/

namespace MetricLayer

/-! ## Formulas -/

theorem ArithOp.expr_inj {op : ArithOp} {a b a' b' : Expr} :
    op.expr a b = op.expr a' b' ↔ a = a' ∧ b = b' := by
  cases op <;> simp [ArithOp.expr]

namespace Formula

variable {ε : Type} {f : Formula} {reference reference' : String → Except ε Expr} {e e' : Expr}

/-- What has an expression has one for each of its references. -/
theorem toExpr_reference (h : f.toExpr reference = .ok e) :
    ∀ name ∈ f.names, ∃ x, reference name = .ok x := by
  induction f generalizing e with
  | metric name => exact List.forall_mem_singleton.mpr ⟨e, h⟩
  | number x => exact nofun
  | group inner ih =>
    obtain ⟨x, hx, -⟩ := bind_eq_ok h
    exact ih hx
  | binary left op right ihl ihr =>
    obtain ⟨a, ha, h⟩ := bind_eq_ok h
    obtain ⟨b, hb, -⟩ := bind_eq_ok h
    exact List.forall_mem_append.mpr ⟨ihl ha, ihr hb⟩

/-- A formula has one expression just if each of its references has. -/
theorem toExpr_eq_iff (h : f.toExpr reference = .ok e) (h' : f.toExpr reference' = .ok e') :
    e = e' ↔ ∀ name ∈ f.names, reference name = reference' name := by
  induction f generalizing e e' with
  | metric name =>
    have h : reference name = .ok e := h
    have h' : reference' name = .ok e' := h'
    simp [names, h, h']
  | number x =>
    cases h
    cases h'
    simp [names]
  | group inner ih =>
    obtain ⟨x, hx, h⟩ := bind_eq_ok h
    obtain ⟨x', hx', h'⟩ := bind_eq_ok h'
    cases h
    cases h'
    rw [Expr.nested.injEq]
    exact ih hx hx'
  | binary left op right ihl ihr =>
    obtain ⟨a, ha, h⟩ := bind_eq_ok h
    obtain ⟨b, hb, h⟩ := bind_eq_ok h
    obtain ⟨a', ha', h'⟩ := bind_eq_ok h'
    obtain ⟨b', hb', h'⟩ := bind_eq_ok h'
    cases h
    cases h'
    rw [ArithOp.expr_inj, ihl ha ha', ihr hb hb']
    exact List.forall_mem_append.symm

end Formula

/-! ## Metrics of two reports -/

namespace Mapping.Context

variable {ctx : Context}

/-- The metric is in the dictionary and is not calculated. -/
def IsPlain (ctx : Context) (name : String) : Prop :=
  ∃ e ∈ ctx.dictionary.metrics, e.definition.name = name ∧ e.formula = none

theorem HasFormula.not_plain {name : String} {f : Formula} (h : ctx.HasFormula name f) :
    ¬ctx.IsPlain name := by
  obtain ⟨e, he, rfl, hf⟩ := h
  rintro ⟨e', he', hname, hnone⟩
  rw [Dictionary.metric_eq he' he hname, hf] at hnone
  cases hnone

theorem HasFormula.unique {name : String} {f f' : Formula} (h : ctx.HasFormula name f)
    (h' : ctx.HasFormula name f') : f = f' := by
  obtain ⟨e, he, rfl, hf⟩ := h
  obtain ⟨e', he', hname, hf'⟩ := h'
  rw [Dictionary.metric_eq he' he hname, hf] at hf'
  exact Option.some.inj hf'

/-- What holds of the plain metrics that a calculated one needs holds of those that its references
need. -/
theorem HasFormula.forall_plain {name : String} {f : Formula} (h : ctx.HasFormula name f)
    {P : String → Prop} : (∀ x, ctx.Needs name x → ctx.IsPlain x → P x) ↔
      ∀ r ∈ f.names, ∀ x, ctx.Needs r x → ctx.IsPlain x → P x := by
  refine ⟨fun hall r hr x hneeds => hall x (.reference h hr hneeds), fun hall x hneeds hplain => ?_⟩
  cases hneeds with
  | self => exact (h.not_plain hplain).elim
  | reference hf hr hneeds =>
    rw [← h.unique hf] at hr
    exact hall _ hr x hneeds hplain

/-- A plain metric needs itself alone. -/
theorem IsPlain.forall_plain {name : String} (h : ctx.IsPlain name) {P : String → Prop} :
    (∀ x, ctx.Needs name x → ctx.IsPlain x → P x) ↔ P name := by
  refine ⟨fun hall => hall name (.self name) h, fun hname x hneeds _ => ?_⟩
  cases hneeds with
  | self => exact hname
  | reference hf => exact (hf.not_plain h).elim

/-- What a metric is does not depend on the settings and the day. -/
theorem IsMetric.of_eq {ctx' : Context} (hdictionary : ctx'.dictionary = ctx.dictionary)
    (hschema : ctx'.schema = ctx.schema) {m : ReportMetric} (h : ctx'.IsMetric m) :
    ctx.IsMetric m := by
  unfold IsMetric at h ⊢
  rwa [hdictionary, hschema] at h

theorem Needs.of_eq {ctx' : Context} (hdictionary : ctx'.dictionary = ctx.dictionary)
    {name other : String} (h : ctx.Needs name other) : ctx'.Needs name other := by
  induction h with
  | self name => exact .self name
  | reference hf hr _ ih =>
    obtain ⟨e, he, hname, hformula⟩ := hf
    exact .reference ⟨e, hdictionary ▸ he, hname, hformula⟩ hr ih

theorem IsMetric.hasFormula {m : ReportMetric} (h : ctx.IsMetric m) {f : Formula}
    (hf : m.formula = some f) : ctx.HasFormula m.name f := by
  obtain ⟨e, he, hname, hformula, -⟩ := h
  exact ⟨e, he, hname, hformula ▸ hf⟩

theorem IsMetric.isPlain {m : ReportMetric} (h : ctx.IsMetric m) (hf : m.formula = none) :
    ctx.IsPlain m.name := by
  obtain ⟨e, he, hname, hformula, -⟩ := h
  exact ⟨e, he, hname, hformula ▸ hf⟩

end Mapping.Context

namespace Report

/-- The aggregation of a metric of the report. -/
def aggregation? (r : Report) (name : String) : Option Aggregation :=
  (r.metric? name).map (·.aggregation)

open Mapping

variable {ctx ctx' : Context} {r r' : Report}

theorem Mapped.metricExprWithin_eq_iff (hdictionary : ctx'.dictionary = ctx.dictionary)
    (hschema : ctx'.schema = ctx.schema) (h : r.Mapped ctx) (h' : r'.Mapped ctx')
    {fuel fuel' : Nat} {m m' : ReportMetric} (hm : m ∈ r.metrics) (hm' : m' ∈ r'.metrics)
    (hname : m.name = m'.name) {e e' : Expr} (he : r.metricExprWithin fuel m = .ok e)
    (he' : r'.metricExprWithin fuel' m' = .ok e') :
    e = e' ↔ ∀ x, ctx.Needs m.name x → ctx.IsPlain x → r.aggregation? x = r'.aggregation? x := by
  induction fuel generalizing fuel' m m' e e' with
  | zero => cases he
  | succ fuel ih =>
    cases fuel' with
    | zero => cases he'
    | succ fuel' =>
      obtain ⟨hformula, -, hfield⟩ :=
        (h.metrics m hm).of_name ((h'.metrics m' hm').of_eq hdictionary hschema) hname
      unfold metricExprWithin at he he'
      rw [← hformula, ← hfield] at he'
      cases hf : m.formula with
      | some f =>
        simp only [hf] at he he'
        rw [((h.metrics m hm).hasFormula hf).forall_plain, Formula.toExpr_eq_iff he he']
        refine forall₂_congr fun name hmem => ?_
        -- the reference is a metric of both reports
        obtain ⟨x, hx⟩ := Formula.toExpr_reference he name hmem
        obtain ⟨x', hx'⟩ := Formula.toExpr_reference he' name hmem
        rw [hx, hx', Except.ok.injEq]
        split at hx
        case h_2 => cases hx
        case h_1 n hn =>
        split at hx'
        case h_2 => cases hx'
        case h_1 n' hn' =>
        obtain ⟨hfound, rfl⟩ := mem_of_metric? hn
        obtain ⟨hfound', hsame⟩ := mem_of_metric? hn'
        exact ih hfound hfound' hsame.symm hx hx'
      | none =>
        obtain ⟨c, hc⟩ := h.exists_field hm hf
        simp only [hf, hc] at he he'
        cases he
        cases he'
        rw [((h.metrics m hm).isPlain hf).forall_plain, aggregation?, aggregation?, h.metric?_eq hm,
          hname, h'.metric?_eq hm']
        simp

/-- In two reports a metric has one expression just if every plain metric that it needs has one
aggregation. -/
theorem Mapped.metricExpr_eq_iff (hdictionary : ctx'.dictionary = ctx.dictionary)
    (hschema : ctx'.schema = ctx.schema) (h : r.Mapped ctx) (h' : r'.Mapped ctx')
    {m m' : ReportMetric} (hm : m ∈ r.metrics) (hm' : m' ∈ r'.metrics) (hname : m.name = m'.name)
    {e e' : Expr} (he : r.metricExpr m = .ok e) (he' : r'.metricExpr m' = .ok e') :
    e = e' ↔ ∀ x, ctx.Needs m.name x → ctx.IsPlain x → r.aggregation? x = r'.aggregation? x :=
  Mapped.metricExprWithin_eq_iff hdictionary hschema h h' hm hm' hname he he'

/-- The translations of the report select the expression under the name of the metric. -/
def Projects (r : Report) (m : ReportMetric) (e : Expr) : Prop :=
  r.metricExpr m = .ok e ∧ ∀ (s : Schema) (settings : TranslationSettings) (t : Translation),
    r.translate s settings = .ok t → ⟨e, some m.name⟩ ∈ t.query.select

theorem projects {m : ReportMetric} (hm : m ∈ r.visibleMetrics) {e : Expr}
    (he : r.metricExpr m = .ok e) : r.Projects m e := by
  refine ⟨he, fun s settings t ht => ?_⟩
  obtain ⟨plan, ws, hquery, -⟩ := translate_queries ht
  obtain ⟨metrics, rows, groups, orderBy, hmetrics, -, -, hq⟩ := query_eq_ok hquery
  obtain ⟨item, hitem, hmade⟩ := mapM_apply hmetrics m hm
  rw [metricItem, he] at hmade
  cases hmade
  rw [hq]
  exact List.mem_append_right _ hitem

end Report

/-! ## The reports of two requests -/

namespace Mapping

variable {ctx ctx' : Context} {request request' : Request}

/-- The aggregation of a metric in the report of the request: the last one that is named for it, or
else that of its entry. -/
def Context.aggregation? (ctx : Context) (request : Request) (name : String) : Option Aggregation :=
  (ctx.namedFor request name).getLast?.or
    ((ctx.dictionary.metric? name).map (·.definition.aggregation))

/-- A metric of a report without conflicts, shown or hidden, has its aggregation from the mentions of
it and from the dictionary. -/
theorem map_aggregation (h : (ctx.map request).isResolved = true) {m : ReportMetric}
    (hm : m ∈ (ctx.map request).report.metrics) :
    ctx.aggregation? request m.name = some m.aggregation := by
  obtain ⟨e, he, hname, -⟩ := (map_mapped ctx request).metrics m hm
  rw [ctx.map_eq] at hm
  have hstanding := finalDraft_standing h he
  rw [hname, standing_of_mem (finalDraft_spec ctx request).1.sound (List.mem_mergeSort.mp hm),
    Option.some.injEq, Prod.mk.injEq] at hstanding
  rw [Context.aggregation?, ← hname, Dictionary.metric?_of_mem he, hname, hstanding.1]
  cases (ctx.namedFor request m.name).getLast? <;> rfl

/-- Whatever a metric of a report without conflicts needs is in the report as well. -/
theorem map_aggregation_needed (h : (ctx.map request).isResolved = true) {m : ReportMetric}
    (hm : m ∈ (ctx.map request).report.metrics) {name : String} (hneeds : ctx.Needs m.name name) :
    (ctx.map request).report.aggregation? name = ctx.aggregation? request name := by
  have hsound := (finalDraft_spec ctx request).1.sound
  have hmem : name ∈ (ctx.map request).report.metrics.map (·.name) := by
    rw [mem_map_names]
    refine hsound.needs_mem ?_ (isResolved_iff.mp h) hneeds
      (mem_map_names.mp (List.mem_map_of_mem hm))
    exact (finalDraft_spec ctx request).1.closed [] (by intro _ m hm; cases hm)
  obtain ⟨n, hn, rfl⟩ := List.mem_map.mp hmem
  rw [map_aggregation h hn, Report.aggregation?, (map_mapped ctx request).metric?_eq hn]
  rfl

/-- Two requests over one dictionary and schema that leave no conflict open select one expression for
a metric that both reports show if and only if every plain metric that it needs has one aggregation:
the last one that a request names for the plain metric itself, or else that of the dictionary. -/
theorem map_expressions_eq_iff (hdictionary : ctx'.dictionary = ctx.dictionary)
    (hschema : ctx'.schema = ctx.schema) (h : (ctx.map request).isResolved = true)
    (h' : (ctx'.map request').isResolved = true) {m m' : ReportMetric}
    (hm : m ∈ (ctx.map request).report.visibleMetrics)
    (hm' : m' ∈ (ctx'.map request').report.visibleMetrics) (hname : m.name = m'.name) :
    ∃ e e', (ctx.map request).report.Projects m e ∧ (ctx'.map request').report.Projects m' e' ∧
      (e = e' ↔ ∀ x, ctx.Needs m.name x → ctx.IsPlain x →
        ctx.aggregation? request x = ctx'.aggregation? request' x) := by
  have hmem := List.mem_of_mem_filter hm
  have hmem' := List.mem_of_mem_filter hm'
  have hmapped := map_mapped ctx request
  have hmapped' := map_mapped ctx' request'
  obtain ⟨e, he⟩ := hmapped.metricExpr_isOk (map_closed h) hmem
  obtain ⟨e', he'⟩ := hmapped'.metricExpr_isOk (map_closed h') hmem'
  refine ⟨e, e', Report.projects hm he, Report.projects hm' he', ?_⟩
  rw [Report.Mapped.metricExpr_eq_iff hdictionary hschema hmapped hmapped' hmem hmem' hname he he']
  refine forall₂_congr fun x hneeds => imp_congr_right fun _ => ?_
  rw [map_aggregation_needed h hmem hneeds,
    map_aggregation_needed h' hmem' (hname ▸ hneeds.of_eq hdictionary)]

end Mapping

namespace Wagers

open Mapping

/-- The turnover, and with it the greatest stake. -/
def turnover : Request := { metrics := [{ name := "turnover", pinned := some "Turnover" }] }

def turnoverAndStake : Request :=
  { metrics := [{ name := "turnover", pinned := some "Turnover" },
      { name := "stake", aggregation := some .max, pinned := some "Stake" }] }

/-- Beside the greatest stake, the turnover is another one. -/
theorem map_expressions_eq_iff_greatest :
    (context.map turnover).isResolved = true ∧ (context.map turnoverAndStake).isResolved = true ∧
      ∃ m ∈ (context.map turnover).report.visibleMetrics,
        ∃ m' ∈ (context.map turnoverAndStake).report.visibleMetrics, m.name = "Turnover" ∧
          m'.name = "Turnover" ∧ ∃ e e', (context.map turnover).report.Projects m e ∧
            (context.map turnoverAndStake).report.Projects m' e' ∧ e ≠ e' := by
  have h : (context.map turnover).isResolved = true := by decide +kernel
  have h' : (context.map turnoverAndStake).isResolved = true := by decide +kernel
  obtain ⟨m, hm, hmeaning, -⟩ := map_keeps_metric h (m := ⟨"turnover", none, 1, some "Turnover"⟩)
    List.mem_cons_self
  obtain ⟨m', hm', hmeaning', -⟩ := map_keeps_metric h'
    (m := ⟨"turnover", none, 1, some "Turnover"⟩) List.mem_cons_self
  have hname : m.name = "Turnover" := Option.some.inj (hmeaning.symm.trans (by decide +kernel))
  have hname' : m'.name = "Turnover" := Option.some.inj (hmeaning'.symm.trans (by decide +kernel))
  obtain ⟨e, e', he, he', hiff⟩ :=
    map_expressions_eq_iff rfl rfl h h' hm hm' (hname.trans hname'.symm)
  refine ⟨h, h', m, hm, m', hm', hname, hname', e, e', he, he', fun heq => ?_⟩
  obtain ⟨entry, hentry, hturnover, hformula⟩ : ∃ entry ∈ context.dictionary.metrics,
      entry.definition.name = "Turnover" ∧
        entry.formula = some (.binary (.metric "Stake") .add (.metric "Stake")) := by
    decide +kernel
  have hneeds : context.Needs m.name "Stake" :=
    .reference ⟨entry, hentry, hturnover.trans hname.symm, hformula⟩ List.mem_cons_self (.self _)
  have hplain : context.IsPlain "Stake" := by
    show ∃ e ∈ context.dictionary.metrics, e.definition.name = "Stake" ∧ e.formula = none
    decide +kernel
  have hsame := hiff.mp heq "Stake" hneeds hplain
  revert hsame
  decide +kernel

end Wagers

end MetricLayer
