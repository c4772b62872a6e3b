import MetricLayer.Proofs.Translation.Phrases
import MetricLayer.Proofs.Translation.QueryParts

/-!
# Reports that can be translated

The report of a request that leaves no conflict open can be written: every metric has an expression,
every filter has the values that its condition asks for, and what the report is sorted by is part of
it. So if there is no translation, then there is nothing to select, or no relationships connect the
tables. Both lie in what was asked for and in the schema, and not in how the request was mapped.

Results:
1. `Report.query_isOk`: the query of a resolved report, over any plan and any days.
2. `map_translates`: a request that leaves no conflict open gives a resolved report, which is
   translated unless it selects nothing or its tables are not connected.
-/

namespace MetricLayer

namespace ReportFilter

/-- A filter with as many values as its operator takes has a condition. -/
theorem Takes.condition_isOk {f : ReportFilter} (h : f.Takes) (target : Expr) :
    ∃ e, f.condition target = .ok e := by
  have hvalue : ∀ i, i < f.operator.minValues → ∃ v, f.valueAt i = .ok v :=
    fun i hi => ⟨_, f.valueAt_eq (Nat.lt_of_lt_of_le hi h.minValues_le)⟩
  have hplain : ∃ e, f.plainCondition target = .ok e := by
    unfold plainCondition
    cases hop : f.operator
    case isNull | isNotNull => exact ⟨_, rfl⟩
    case «in» | notIn =>
      have hne : f.values.isEmpty = false := by
        have := h.minValues_le
        simp only [hop, Operator.minValues] at this
        rw [List.isEmpty_eq_false_iff, ← List.length_pos_iff]
        exact this
      exact ⟨_, by simp only [hne]; rfl⟩
    case between =>
      obtain ⟨low, hlow⟩ := hvalue 0 (by rw [hop]; decide)
      obtain ⟨high, hhigh⟩ := hvalue 1 (by rw [hop]; decide)
      exact ⟨.between target (.value low) (.value high), by simp only [hlow, hhigh]; rfl⟩
    all_goals
      obtain ⟨v, hv⟩ := hvalue 0 (by rw [hop]; decide)
      exact ⟨_, by simp only [hv]; rfl⟩
  obtain ⟨e, he⟩ := hplain
  exact ⟨_, by rw [condition, he]; rfl⟩

end ReportFilter

namespace Report

open Mapping (Context)

variable {ctx : Context} {request : Request} {r : Report}

/-- The metric that a filter looks at can be written as well: it has the formula of the metric of
the report with its name. -/
theorem Resolved.filteredExpr_isOk (h : r.Mapped ctx) (hr : r.Resolved ctx request)
    {f : ReportFilter} (hf : f ∈ r.filters) {m : ReportMetric} (hm : f.target = .metric m) :
    ∃ e, r.metricExpr m = .ok e := by
  have htarget := (h.filters f hf).target
  rw [hm] at htarget
  obtain ⟨n, hn, hname⟩ := List.mem_map.mp (hr.filtered m (mem_filteredMetrics.mpr ⟨f, hf, hm⟩))
  have hclosed : r.Closed := fun m hm => hr.closed m (List.mem_append_left _ hm)
  obtain ⟨hformula, -, hfield⟩ := htarget.1.of_name (h.metrics n hn) hname.symm
  obtain ⟨e, he⟩ := h.metricExpr_isOk hclosed hn
  unfold metricExpr at he ⊢
  rw [metricExprWithin] at he ⊢
  rw [hformula, hfield]
  cases hn : n.formula with
  | some formula =>
    simp only [hn] at he ⊢
    exact ⟨e, he⟩
  | none =>
    cases hfield : n.field with
    | some field => exact ⟨_, rfl⟩
    | none => simp only [hn, hfield] at he; cases he

theorem Resolved.conditions_isOk (h : r.Mapped ctx) (hr : r.Resolved ctx request)
    {fs : List ReportFilter} (hfs : ∀ f ∈ fs, f ∈ r.filters) :
    ∃ parts, r.conditions fs = .ok parts := by
  induction fs with
  | nil => exact ⟨_, rfl⟩
  | cons f fs ih =>
    have hf := hfs f List.mem_cons_self
    obtain ⟨⟨rows, groups⟩, hrest⟩ := ih fun f' hf' => hfs f' (List.mem_cons_of_mem _ hf')
    have htakes : f.Takes := hr.takes f hf
    cases htarget : f.target with
    | column c =>
      obtain ⟨e, he⟩ := htakes.condition_isOk (.field c)
      refine ⟨(e :: rows, groups), ?_⟩
      rw [conditions, htarget]
      show (f.condition (.field c) >>= _) = _
      rw [bind_of_ok he, bind_of_ok hrest]
      rfl
    | metric m =>
      obtain ⟨target, hmetric⟩ := hr.filteredExpr_isOk h hf htarget
      obtain ⟨e, he⟩ := htakes.condition_isOk target
      refine ⟨(rows, e :: groups), ?_⟩
      rw [conditions, htarget]
      show (r.metricExpr m >>= _) = _
      rw [bind_of_ok hmetric, bind_of_ok he, bind_of_ok hrest]
      rfl

theorem Resolved.exprs_isOk (h : r.Mapped ctx) (hr : r.Resolved ctx request) :
    ∀ m ∈ r.metrics, ∃ e, r.metricExpr m = .ok e :=
  fun _ hm => h.metricExpr_isOk (fun n hn => hr.closed n (List.mem_append_left _ hn)) hm

/-- What the report is sorted by is found, so the order raises no warning. -/
theorem Resolved.order_isOk (h : r.Mapped ctx) (hr : r.Resolved ctx request) :
    ∃ items, r.order = .ok (items, []) := by
  have hexprs := hr.exprs_isOk h
  unfold order
  cases hsort : r.sort with
  | none =>
    suffices hdefault : ∃ items, r.defaultOrder = .ok items by
      obtain ⟨items, hitems⟩ := hdefault
      exact ⟨items, by rw [hitems]; rfl⟩
    unfold defaultOrder
    split
    · next m _ hvisible =>
      have hm : m ∈ r.visibleMetrics := hvisible ▸ List.mem_cons_self
      obtain ⟨e, he⟩ := hexprs m (visible_mem hm)
      exact ⟨_, by rw [he]; rfl⟩
    · exact ⟨_, rfl⟩
  | some sort =>
    suffices htarget : ∃ e, r.sortExpr? sort.target = .ok (some e) by
      obtain ⟨e, he⟩ := htarget
      exact ⟨[⟨e, sort.direction = .desc⟩], by simp only [he]; rfl⟩
    have hin := hr.sort sort hsort
    cases htarget : sort.target with
    | metric name =>
      rw [htarget] at hin
      obtain ⟨m, hm, rfl⟩ := List.mem_map.mp hin
      obtain ⟨e, he⟩ := hexprs m hm
      exact ⟨e, by simp only [sortExpr?, h.metric?_eq hm, he]; rfl⟩
    | dimension name =>
      rw [htarget] at hin
      obtain ⟨d, hd, rfl⟩ := List.mem_map.mp hin
      have hfind : r.dimension? d.name = some d := find?_key h.dimensions_differ hd
      exact ⟨d.expr, by simp only [sortExpr?, hfind]; rfl⟩

/-- The query of a resolved report, over any plan and any days. -/
theorem Resolved.query_isOk (h : r.Mapped ctx) (hr : r.Resolved ctx request) (s : Schema)
    (plan : JoinPlan) (time : Option (TimeColumn × DayRange)) (limit : Nat) :
    ∃ q, r.query s plan time limit = .ok (q, []) := by
  obtain ⟨metrics, hmetrics⟩ : ∃ items, r.visibleMetrics.mapM r.metricItem = .ok items := by
    refine mapM_isOk fun m hm => ?_
    obtain ⟨e, he⟩ := hr.exprs_isOk h m (visible_mem hm)
    exact ⟨⟨e, some m.name⟩, by rw [metricItem, he]; rfl⟩
  obtain ⟨⟨rows, groups⟩, hconditions⟩ := hr.conditions_isOk h fun f hf => hf
  obtain ⟨items, horder⟩ := hr.order_isOk h
  unfold query
  rw [hmetrics, hconditions, horder]
  exact ⟨_, rfl⟩

/-- The query of a report that is not empty can be written. -/
theorem statement_isOk {s : Schema} {plan : JoinPlan} {time : Option (TimeColumn × DayRange)}
    {limit : Nat} {q : Query} {ws : List TranslationWarning} (hempty : r.isEmpty = false)
    (h : r.query s plan time limit = .ok (q, ws)) (t : TranslationSettings) :
    ∃ st, statement t q = .ok st := by
  have hlists : q.exprs.any Expr.hasEmptyList = false := by
    rw [List.any_eq_false]
    intro e he
    rw [(query_writes h e he).listed]
    exact Bool.false_ne_true
  have hselect : q.select.isEmpty = false := by
    obtain ⟨metrics, rows, groups, orderBy, hmetrics, -, -, rfl⟩ := query_eq_ok h
    have hunits : metrics.map (fun _ => ()) = r.visibleMetrics.map (fun _ => ()) :=
      mapM_map (fun _ _ _ => rfl) hmetrics
    have hlength : metrics.length = r.visibleMetrics.length := by
      simpa using congrArg List.length hunits
    simp only [isEmpty, Bool.and_eq_false_iff, List.isEmpty_eq_false_iff] at hempty
    rw [List.isEmpty_eq_false_iff, ← List.length_pos_iff]
    simp only [List.length_append, List.length_map, hlength]
    rcases hempty with hmetrics | hdimensions
    · exact Nat.add_pos_right _ (List.length_pos_iff.mpr hmetrics)
    · exact Nat.add_pos_left (List.length_pos_iff.mpr hdimensions) _
  unfold statement Query.render
  rw [hselect, hlists]
  exact ⟨_, rfl⟩

theorem joinPlan_error {s : Schema} {rule : JoinRule} {needed : NeededColumns}
    {e : TranslationError} (h : s.joinPlan rule needed = .error e) :
    (∃ source target, e = .noJoinPath source target) ∨ e = .emptyProjection := by
  have hsteps : ∀ anchor joined targets e, s.stepsTo rule anchor joined targets = .error e →
      ∃ source target, e = .noJoinPath source target := by
    intro anchor joined targets
    induction targets generalizing joined with
    | nil => exact fun e he => by cases he
    | cons target targets ih =>
      intro e he
      unfold Schema.stepsTo at he
      split at he
      · exact ih _ e he
      · split at he
        · exact ⟨anchor, target, (Except.error.inj he).symm⟩
        · obtain ⟨e', he', heq⟩ := map_eq_error he
          exact heq ▸ ih _ e' he'
  unfold Schema.joinPlan at h
  split at h
  · exact .inr (Except.error.inj h).symm
  · obtain ⟨e', he', rfl⟩ := map_eq_error h
    exact .inl (hsteps _ _ _ e' he')

/-- A report that is not empty and whose queries are all there can be translated over its plan. -/
theorem Resolved.comparisonQueries_isOk (h : r.Mapped ctx) (hr : r.Resolved ctx request)
    (hempty : r.isEmpty = false) (s : Schema) (t : TranslationSettings) (plan : JoinPlan) :
    ∃ cs ws, r.comparisonQueries s t plan = .ok (cs, ws) ∧
      ∀ term, TranslationWarning.sortUnknown term ∉ ws := by
  unfold comparisonQueries
  split
  · next column days _ =>
    have hcs : ∃ cs, r.comparisons.mapM (r.comparisonQuery s t plan column days) = .ok cs := by
      refine mapM_isOk fun c _ => ?_
      obtain ⟨q, hq⟩ := hr.query_isOk h s plan (some (column, days.shift c)) (t.rowLimit r.limit)
      obtain ⟨st, hst⟩ := statement_isOk hempty hq t
      refine ⟨⟨c, days.shift c, q, st⟩, ?_⟩
      unfold comparisonQuery
      rw [bind_of_ok hq]
      show (statement t q >>= _) = _
      rw [bind_of_ok hst]
      rfl
    obtain ⟨cs, hcs⟩ := hcs
    exact ⟨cs, [], by rw [hcs]; rfl, nofun⟩
  · refine ⟨[], _, rfl, fun term hterm => ?_⟩
    obtain ⟨c, -, hc⟩ := List.mem_map.mp hterm
    cases hc

/-- A resolved report that selects something is translated if there is a plan for its tables. What
it is sorted by is found. -/
theorem Resolved.translate_isOk (h : r.Mapped ctx) (hr : r.Resolved ctx request) {s : Schema}
    {t : TranslationSettings} (hempty : (r.isEmpty || r.neededColumns.isEmpty) = false)
    {plan : JoinPlan} (hplan : s.joinPlan t.joinRule (r.queryColumns s) = .ok plan) :
    ∃ x, r.translate s t = .ok x ∧ ∀ term, .sortUnknown term ∉ x.warnings := by
  have hselects : r.isEmpty = false := (Bool.or_eq_false_iff.mp hempty).1
  obtain ⟨q, hq⟩ := hr.query_isOk h s plan (r.timeBound? s) (t.rowLimit r.limit)
  obtain ⟨st, hst⟩ := statement_isOk hselects hq t
  obtain ⟨cs, cws, hcs, hcws⟩ := hr.comparisonQueries_isOk h hselects s t plan
  refine ⟨_, translate_eq_ok.mpr ⟨hempty, plan, q, [], st, cs, cws, hplan, hq, hst, hcs, rfl⟩,
    fun term hterm => ?_⟩
  -- of the other warnings none is about the sort
  simp only [List.append_nil, List.mem_append] at hterm
  rcases hterm with (hterm | hterm) | hterm
  · split at hterm
    · cases List.mem_singleton.mp hterm
    · cases hterm
  · unfold TranslationSettings.limitWarning at hterm
    split at hterm
    · split at hterm
      · cases List.mem_singleton.mp hterm
      · cases hterm
    · cases hterm
  · exact hcws term hterm

/-- A resolved report is translated unless it selects nothing or its tables are not connected. -/
theorem Resolved.translate_cases (h : r.Mapped ctx) (hr : r.Resolved ctx request) (s : Schema)
    (t : TranslationSettings) :
    (∃ x, r.translate s t = .ok x ∧ ∀ term, .sortUnknown term ∉ x.warnings) ∨
      (∃ source target, r.translate s t = .error (.noJoinPath source target)) ∨
        r.translate s t = .error .emptyProjection := by
  by_cases hempty : (r.isEmpty || r.neededColumns.isEmpty) = true
  · exact .inr (.inr (if_pos hempty))
  · have hempty := Bool.not_eq_true _ ▸ hempty
    cases hplan : s.joinPlan t.joinRule (r.queryColumns s) with
    | error e =>
      have herror : r.translate s t = .error e := by
        unfold translate
        simp only [hempty, hplan]
        rfl
      obtain ⟨source, target, rfl⟩ | rfl := joinPlan_error hplan
      · exact .inr (.inl ⟨source, target, herror⟩)
      · exact .inr (.inr herror)
    | ok plan => exact .inl (hr.translate_isOk h hempty hplan)

end Report

namespace Mapping

/-- A request that leaves no conflict open gives a report that is closed, in order and spelled as the
schema declares it. The report is translated, unless it selects nothing or its tables are not
connected, and what it is sorted by is found. -/
theorem map_translates (ctx : Context) (request : Request) (settings : TranslationSettings)
    (h : (ctx.map request).isResolved = true) :
    (ctx.map request).report.Resolved ctx request ∧
      ((∃ t, (ctx.map request).report.translate ctx.schema settings = .ok t ∧
          ∀ term, .sortUnknown term ∉ t.warnings) ∨
        (∃ source target, (ctx.map request).report.translate ctx.schema settings =
          .error (.noJoinPath source target)) ∨
        (ctx.map request).report.translate ctx.schema settings = .error .emptyProjection) :=
  ⟨map_resolved h, (map_resolved h).translate_cases (map_mapped ctx request) ctx.schema settings⟩

end Mapping

/-! ## A model of wagers -/

namespace Wagers

/-- The wagers, with their days, amounts and games. -/
def bets : Table :=
  { name := "Bets"
    kind := .fact
    columns := [⟨"Placed", .date, true, false, false⟩, ⟨"Amount", .integer, true, false, false⟩,
      ⟨"GameId", .integer, true, false, true⟩] }

/-- The games. -/
def games : Table :=
  { name := "Games"
    columns := [⟨"Id", .integer, true, true, false⟩, ⟨"Title", .string, true, false, false⟩] }

/-- The schema, in which the game of a wager is related to a table of the name that is given. -/
def definition (target : String) : SchemaDefinition :=
  { tables := [bets, games], relationships := [⟨"Bets", "GameId", target, "Id", .manyToOne⟩] }

def schema : Schema := ⟨definition "Games", by decide +kernel⟩

/-- A sum of the amounts, a metric that is calculated from it, the days and the titles. -/
def vocabulary : DictionaryDefinition :=
  { metrics := [{ name := "Stake", field := some ⟨"bets", "amount"⟩, type := .integer },
      { name := "Turnover", formula := some "[Stake] + [Stake]", type := .integer }]
    dimensions := [{ name := "Day", field := ⟨"Bets", "Placed"⟩, isDate := true },
      { name := "Title", field := ⟨"Games", "Title"⟩ }] }

def dictionary : Dictionary where
  definition := vocabulary
  metrics := [⟨{ name := "Stake", field := some ⟨"bets", "amount"⟩, type := .integer },
      ⟨"stake", []⟩, none⟩,
    ⟨{ name := "Turnover", formula := some "[Stake] + [Stake]", type := .integer },
      ⟨"turnover", []⟩, some (.binary (.metric "Stake") .add (.metric "Stake"))⟩]
  dimensions := [⟨{ name := "Day", field := ⟨"Bets", "Placed"⟩, isDate := true }, ⟨"day", []⟩⟩,
    ⟨{ name := "Title", field := ⟨"Games", "Title"⟩ }, ⟨"title", []⟩⟩]
  built := by decide +kernel

def context : Mapping.Context := ⟨dictionary, schema, {}, Date.first⟩

/-- The turnover by title, for titles that begin with the letters. -/
def request (letters : String) : Request :=
  { metrics := [{ name := "turnover", pinned := some "Turnover" }]
    dimensions := [{ name := "title", pinned := some "Title" }]
    filters := [{
      field := "title"
      operator := "starts with"
      value := .one letters
      pinned := some "Title" }] }

theorem request_isResolved : (context.map (request "Ch")).isResolved = true := by decide +kernel

/-- The mapping of the request leaves no conflict open, so its report is resolved. -/
theorem map_translates_turnover :
    (context.map (request "Ch")).isResolved = true ∧
      (context.map (request "Ch")).report.Resolved context (request "Ch") ∧
      ((∃ t, (context.map (request "Ch")).report.translate schema {} = .ok t ∧
          ∀ term, .sortUnknown term ∉ t.warnings) ∨
        (∃ source target, (context.map (request "Ch")).report.translate schema {} =
          .error (.noJoinPath source target)) ∨
        (context.map (request "Ch")).report.translate schema {} = .error .emptyProjection) :=
  ⟨request_isResolved, Mapping.map_translates context (request "Ch") {} request_isResolved⟩

end Wagers

end MetricLayer
