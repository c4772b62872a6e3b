import MetricLayer.Proofs.Translation.Metric
import MetricLayer.Proofs.Translation.Resolved
import MetricLayer.Proofs.Vocabulary.Circles

/-!
# Expanding formulas

The expression of a metric is written out of those of the metrics that its formula refers to, and so on
down to the fields. That this comes to an end rests on the dictionary, which has no circles, while the
references are followed in the report. `Report.Expands` says what it means for a metric: no chain of
references is endless, so the fuel of `metricExprWithin` is never used up, and the expression satisfies
the recursion without it.

Results:
1. `Resolved.expands`: every metric of a report without open conflicts expands.
2. `circles_caught`: a definition is refused for circles and for nothing else, and with a dictionary
   all metrics expand.
-/

namespace MetricLayer

namespace Report

/-- The expression of the first metric is written out of that of the second. -/
def Calls (r : Report) (m n : ReportMetric) : Prop :=
  ∃ f name, m.formula = some f ∧ name ∈ f.names ∧ r.metric? name = some n

/-- One level of the recursion, given the expressions of the metrics that a formula refers to. -/
def expand (r : Report) (constituent : ReportMetric → Except TranslationError Expr)
    (m : ReportMetric) : Except TranslationError Expr :=
  match m.formula, m.field with
  | some formula, _ =>
    formula.toExpr fun name =>
      match r.metric? name with
      | some n => constituent n
      | none => .error (badMetric name "formula constituent was not mapped")
  | none, some field => .ok (.aggregate m.aggregation (.field field))
  | none, none => .error (badMetric m.name "metric has neither a field nor a formula")

theorem metricExprWithin_succ (r : Report) (fuel : Nat) :
    r.metricExprWithin (fuel + 1) = r.expand (r.metricExprWithin fuel) := rfl

/-- The recursion that writes the metric comes to an end with an expression. -/
structure Expands (r : Report) (m : ReportMetric) : Prop where
  /-- No chain of references from the metric is endless. -/
  terminates : Acc (fun n m => r.Calls m n) m
  /-- The expression satisfies the recursion, which has no fuel. -/
  unfolds : r.metricExpr m = r.expand r.metricExpr m
  /-- There is an expression, and more fuel changes nothing. -/
  settles : ∃ e, ∀ fuel, r.metrics.length < fuel → r.metricExprWithin fuel m = .ok e

open Mapping (Context)

variable {ctx : Context} {request : Request} {r : Report}

/-- A chain of references goes down in rank, so it ends. -/
theorem Mapped.calls_acc (h : r.Mapped ctx) (hclosed : r.Closed) {m : ReportMetric}
    (hm : m ∈ r.metrics) : Acc (fun n m => r.Calls m n) m := by
  obtain ⟨rank, hrank⟩ := h.exists_rank hclosed
  induction hn : rank m.name using Nat.strongRecOn generalizing m with
  | ind k ih =>
    subst hn
    refine ⟨m, fun n hcall => ?_⟩
    obtain ⟨f, name, hf, hname, hfind⟩ := hcall
    obtain ⟨n', hn', hfind', rfl, hlt⟩ := hrank m hm f hf name hname
    obtain rfl := Option.some.inj (hfind.symm.trans hfind')
    exact ih _ hlt hn' rfl

/-- Every metric of a report without open conflicts expands, and every metric that a filter looks
at. -/
theorem Resolved.expands (h : r.Mapped ctx) (hr : r.Resolved ctx request) {m : ReportMetric}
    (hm : m ∈ r.metrics ++ r.filteredMetrics) : r.Expands m := by
  have hclosed : r.Closed := fun n hn => hr.closed n (List.mem_append_left _ hn)
  obtain ⟨e, he⟩ : ∃ e, r.metricExpr m = .ok e := by
    rcases List.mem_append.mp hm with hm | hm
    · exact hr.exprs_isOk h m hm
    · obtain ⟨f, hf, htarget⟩ := mem_filteredMetrics.mp hm
      exact hr.filteredExpr_isOk h hf htarget
  have hmore : ∀ fuel, r.metrics.length < fuel → r.metricExprWithin fuel m = .ok e :=
    fun fuel hfuel => metricExprWithin_mono hfuel he
  constructor
  case terminates =>
    refine ⟨m, fun n hcall => ?_⟩
    obtain ⟨f, name, -, -, hfind⟩ := hcall
    exact h.calls_acc hclosed (mem_of_metric? hfind).1
  case unfolds =>
    calc r.metricExpr m = .ok e := he
      _ = r.metricExprWithin (r.metrics.length + 2) m := (hmore _ (by omega)).symm
      _ = r.expand r.metricExpr m := congrFun (r.metricExprWithin_succ _) m
  case settles => exact ⟨e, hmore⟩

end Report

theorem DictionaryDefinition.CatchesCircles.ofDefinition {d : DictionaryDefinition}
    (h : d.CatchesCircles d.entries) : d.CatchesCircles (Dictionary.ofDefinition d) := by
  have hsame : (∃ x, Dictionary.ofDefinition d = .ok x ∧ ∃ entries, d.entries = .ok entries) ∨
      ∃ e, Dictionary.ofDefinition d = .error e ∧ d.entries = .error e := by
    unfold Dictionary.ofDefinition
    split
    · next heq => exact .inl ⟨_, rfl, _, heq⟩
    · next heq => exact .inr ⟨_, rfl, heq⟩
  rcases hsame with ⟨x, hx, entries, hentries⟩ | ⟨e, he, hentries⟩
  · rw [hentries] at h
    rw [hx]
    exact ⟨by simpa using h.error_iff, nofun, by simpa using h.ok_iff⟩
  · rw [hentries] at h
    rw [he]
    exact ⟨by simpa using h.error_iff, by simpa using h.named, by simpa using h.ok_iff⟩

/-- A definition without other faults is refused if and only if a metric is calculated from itself, and
the error names such a metric, in whatever order the formulas are visited. With a dictionary, the
metrics of every report without open conflicts expand. -/
theorem circles_caught {d : DictionaryDefinition} (hd : d.IsWellFormed) {visits : List String}
    (hvisits : visits.Perm (d.metrics.map (·.name))) :
    d.CatchesCircles (Dictionary.ofDefinition d) ∧ d.CatchesCircles (d.entriesVisiting visits) ∧
      ∀ (ctx : Mapping.Context) (request : Request), (ctx.map request).isResolved = true →
        ∀ m ∈ (ctx.map request).report.metrics ++ (ctx.map request).report.filteredMetrics,
          (ctx.map request).report.Expands m :=
  ⟨(hd.catchesCircles (.refl _)).ofDefinition, hd.catchesCircles hvisits,
    fun ctx request hresolved _ hm =>
      (Mapping.map_resolved hresolved).expands (Mapping.map_mapped ctx request) hm⟩

namespace Wagers

/-- Two metrics that are calculated from each other, under other spellings of their names. -/
def roundabout : DictionaryDefinition :=
  { metrics := [{ name := "Net Stake", formula := some "[gross stakes] - [Fee]" },
      { name := "Gross Stake", formula := some "([NET STAKE] + [Fee]) * 2" },
      { name := "Fee", field := some ⟨"Bets", "Amount"⟩ }] }

theorem roundabout_isWellFormed : roundabout.IsWellFormed where
  metrics_differ := by decide +kernel
  dimensions_differ := by decide +kernel
  readable := by
    have hread : ∀ m ∈ roundabout.metrics,
        (m.formula.map fun source => (Formula.parse source).isOk).getD m.field.isSome = true := by
      decide +kernel
    intro m hm
    specialize hread m hm
    cases hformula : m.formula with
    | none =>
      rw [hformula] at hread
      exact .inr ⟨rfl, hread⟩
    | some source =>
      rw [hformula] at hread
      obtain ⟨f, hf⟩ := eq_ok_of_isOk hread
      exact .inl ⟨source, f, rfl, hf⟩

/-- The metrics are refused, whichever formula is visited first, while the turnover expands. -/
theorem circles_caught_roundabout :
    roundabout.IsWellFormed ∧
      ["Gross Stake", "Fee", "Net Stake"].Perm (roundabout.metrics.map (·.name)) ∧
      (context.map (request "Ch")).isResolved = true ∧
      roundabout.CatchesCircles (Dictionary.ofDefinition roundabout) ∧
      roundabout.CatchesCircles
        (roundabout.entriesVisiting ["Gross Stake", "Fee", "Net Stake"]) ∧
      roundabout.entriesVisiting ["Gross Stake", "Fee", "Net Stake"] =
        .error (.cyclicFormula "Gross Stake") ∧
      ∀ m ∈ (context.map (request "Ch")).report.metrics ++
          (context.map (request "Ch")).report.filteredMetrics,
        (context.map (request "Ch")).report.Expands m := by
  have hvisits : ["Gross Stake", "Fee", "Net Stake"].Perm (roundabout.metrics.map (·.name)) := by
    decide +kernel
  obtain ⟨hbuilt, hvisiting, hexpands⟩ := circles_caught roundabout_isWellFormed hvisits
  exact ⟨roundabout_isWellFormed, hvisits, request_isResolved, hbuilt, hvisiting, by decide +kernel,
    hexpands context (request "Ch") request_isResolved⟩

end Wagers

end MetricLayer
