import MetricLayer.Proofs.Translation.JoinPlan
import MetricLayer.Proofs.Translation.Resolved

/-!
# Names in scope

Names in a statement are quoted, so they mean a table or a column only in the very spelling of the
declaration. The fields of a report are brought into that spelling when a request is mapped. A
relationship is not: it is accepted in any letter case, and its names are written into the joins as
they stand. So the statements of a schema are well scoped exactly if the relationships that joins are
made along are spelled as declared.

Results:
1. `Report.translate_wellScoped`: with such relationships every query of a translation is well
   scoped.
2. `Schema.wellScoped_iff`: and with others some translation has a query that is not, although the
   tables of a query always have different names.
-/

namespace MetricLayer

/-! ## Queries in scope -/

/-- The fields are the ends of a relationship of the schema. -/
def Schema.Links (s : Schema) (a b : Field) : Prop :=
  ∃ r ∈ s.relationships, (a = ⟨r.fromTable, r.fromColumn⟩ ∧ b = ⟨r.toTable, r.toColumn⟩) ∨
    (a = ⟨r.toTable, r.toColumn⟩ ∧ b = ⟨r.fromTable, r.fromColumn⟩)

namespace Query

/-- Each join equates a declared column of an earlier table with one of its own table, along a
relationship. -/
def JoinsInScope (s : Schema) (earlier : List String) : List Join → Prop
  | [] => True
  | j :: js =>
    (∃ a b, j.on = [(a, b)] ∧ a.table ∈ earlier ∧ b.table = j.table.table ∧ s.Declares a ∧
      s.Declares b ∧ s.Links a b) ∧ JoinsInScope s (earlier ++ [j.table.table]) js

/-- Every name in the query means something where it stands. -/
structure WellScoped (s : Schema) (q : Query) : Prop where
  distinct : q.tables.Nodup
  joins : JoinsInScope s [q.source.table] q.joins
  fields : ∀ e ∈ q.exprs, ∀ f ∈ e.fields, f.table ∈ q.tables

theorem JoinsInScope.declares {s : Schema} {earlier : List String} {js : List Join}
    (h : JoinsInScope s earlier js) {j : Join} (hj : j ∈ js) :
    ∃ a b, j.on = [(a, b)] ∧ s.Declares a ∧ s.Declares b := by
  induction js generalizing earlier with
  | nil => cases hj
  | cons first rest ih =>
    obtain ⟨⟨a, b, hon, -, -, ha, hb, -⟩, hrest⟩ := h
    rcases List.mem_cons.mp hj with rfl | hj
    · exact ⟨a, b, hon, ha, hb⟩
    · exact ih hrest hj

end Query

/-- The queries of a translation: its own one and those of the comparisons. -/
def Translation.queries (t : Translation) : List Query := t.query :: t.comparisons.map (·.query)

namespace Schema

variable {s : Schema}

theorem IsStep.links {step : JoinStep} (h : s.IsStep step) :
    s.Links ⟨step.fromTable, step.fromColumn⟩ ⟨step.toTable, step.toColumn⟩ := by
  obtain ⟨r, hr, -, rfl | rfl⟩ := h
  · exact ⟨_, hr, .inl ⟨rfl, rfl⟩⟩
  · exact ⟨r, hr, .inr ⟨rfl, rfl⟩⟩

/-- Steps in scope become joins in scope. -/
theorem InScope.joins {earlier : List String} {steps : List JoinStep} (h : InScope earlier steps)
    (hsteps : ∀ step ∈ steps, s.IsStep step ∧ s.IsSpelled step) :
    Query.JoinsInScope s earlier (steps.map s.join) := by
  induction steps generalizing earlier with
  | nil => trivial
  | cons step steps ih =>
    obtain ⟨⟨hstep, hfrom, hto⟩, hrest⟩ := List.forall_mem_cons.mp hsteps
    exact ⟨⟨_, _, rfl, h.1, rfl, hfrom, hto, hstep.links⟩, ih h.2 hrest⟩

end Schema

namespace Report

variable {r : Report} {s : Schema} {settings : TranslationSettings}

theorem query_tables {plan : JoinPlan} {time : Option (TimeColumn × DayRange)} {limit : Nat}
    {q : Query} {ws : List TranslationWarning} (h : r.query s plan time limit = .ok (q, ws)) :
    q.tables = plan.tables ∧ q.source.table = plan.anchor ∧ q.joins = plan.steps.map s.join := by
  obtain ⟨metrics, rows, groups, orderBy, -, -, -, rfl⟩ := query_eq_ok h
  refine ⟨?_, rfl, rfl⟩
  simp only [Query.tables, JoinPlan.tables, List.map_map]
  rfl

/-- The queries of a translation are queries over one plan, bound to one time column. -/
theorem exists_plan {t : Translation} (h : r.translate s settings = .ok t) :
    ∃ plan, s.joinPlan settings.joinRule (r.queryColumns s) = .ok plan ∧
      ∀ q ∈ t.queries, ∃ time limit ws, r.query s plan time limit = .ok (q, ws) ∧
        ∀ c days, time = some (c, days) → ∃ days', r.timeBound? s = some (c, days') := by
  obtain ⟨-, plan, q, ws, st, cs, cws, hplan, hq, -, hcs, rfl⟩ := translate_eq_ok.mp h
  refine ⟨plan, hplan, List.forall_mem_cons.mpr
    ⟨⟨_, _, _, hq, fun c days htime => ⟨days, htime⟩⟩, fun q' hq' => ?_⟩⟩
  obtain ⟨c, hc, rfl⟩ := List.mem_map.mp hq'
  unfold comparisonQueries at hcs
  split at hcs
  · next column days htime =>
    obtain ⟨cs', hcs', heq⟩ := bind_eq_ok hcs
    cases heq
    obtain ⟨comparison, -, hc⟩ := mapM_mem hcs' c hc
    obtain ⟨⟨q'', ws'⟩, hquery, hc⟩ := bind_eq_ok hc
    obtain ⟨st', -, hc⟩ := bind_eq_ok hc
    cases hc
    refine ⟨_, _, _, hquery, fun c days' heq => ?_⟩
    cases heq
    exact ⟨days, htime⟩
  · cases hcs
    cases hc

/-- The tables of a query have different names. -/
theorem translate_distinct {t : Translation} (h : r.translate s settings = .ok t) :
    ∀ q ∈ t.queries, q.tables.Nodup := by
  obtain ⟨plan, hplan, hqueries⟩ := exists_plan h
  intro q hq
  obtain ⟨time, limit, ws, hquery, -⟩ := hqueries q hq
  rw [(query_tables hquery).1]
  exact Schema.joinPlan_nodup hplan

/-- Where the relationships that joins are made along are spelled as declared, the queries of a
translation are well scoped. -/
theorem translate_wellScoped (hspelled : ∀ rel, s.JoinsAlong rel → s.IsSpelled rel)
    (hdeclared : ∀ f ∈ r.fields, s.Declares f) {t : Translation}
    (h : r.translate s settings = .ok t) : ∀ q ∈ t.queries, q.WellScoped s := by
  have hdistinct := translate_distinct h
  obtain ⟨plan, hplan, hqueries⟩ := exists_plan h
  have htables := queryColumns_areTables hdeclared
  obtain ⟨hscope, hreached⟩ := Schema.joinPlan_scope hspelled htables hplan
  intro q hq
  obtain ⟨time, limit, ws, hquery, htime⟩ := hqueries q hq
  obtain ⟨hnames, hsource, hjoins⟩ := query_tables hquery
  constructor
  case distinct => exact hdistinct q hq
  case joins =>
    rw [hsource, hjoins]
    refine hscope.joins fun step hstep => ?_
    have hstep := Schema.joinPlan_isStep htables hplan step hstep
    refine ⟨hstep, ?_⟩
    obtain ⟨rel, -, halong, rfl | rfl⟩ := hstep
    · exact hspelled _ halong
    · exact Schema.isSpelled_reverse.mpr (hspelled _ halong)
  case fields =>
    intro e he f hf
    rw [hnames]
    refine hreached _ (mem_queryColumns.mpr ?_)
    rcases (query_writes hquery e he).fields_subset f hf with hf | ⟨c, days, hc, rfl⟩
    · exact .inl ⟨f, hf, rfl⟩
    · obtain ⟨days', htime⟩ := htime c days hc
      exact .inr ⟨c, days', htime, rfl⟩

end Report

/-! ## A request over two tables

The rows of one field are counted by another one. Of every schema in which both fields are declared,
this is a request without open conflicts, and it needs the tables of both. -/

namespace TwoTables

open Mapping (Context Draft)

/-- The number of rows of a field. -/
def count (f : Field) : MetricDefinition :=
  { name := "Count", field := some f, aggregation := .count }

/-- The values of a field. -/
def key (g : Field) : DimensionDefinition := { name := "Key", field := g }

theorem ofPhrase_count : Term.ofPhrase "Count" = "count" := by decide +kernel

theorem ofPhrase_key : Term.ofPhrase "Key" = "key" := by decide +kernel

def dictionary (f g : Field) : Dictionary where
  definition := { metrics := [count f], dimensions := [key g] }
  metrics := [⟨count f, ⟨"count", []⟩, none⟩]
  dimensions := [⟨key g, ⟨"key", []⟩⟩]
  built := by
    simp only [DictionaryDefinition.entries, DictionaryDefinition.entriesVisiting,
      DictionaryDefinition.metricTerms, count, key, List.map_cons, List.map_nil, Terms.ofNames,
      ofPhrase_count, ofPhrase_key]
    rfl

def context (s : Schema) (f g : Field) : Context := ⟨dictionary f g, s, {}, Date.first⟩

def request : Request :=
  { metrics := [{ name := "Count", pinned := some "Count" }]
    dimensions := [{ name := "Key", pinned := some "Key" }] }

/-- The metric and the dimension of the report, with the fields as the schema declares them. -/
def metric (f : Field) : ReportMetric :=
  ⟨"Count", "Count", some f, .count, .decimal, none, false⟩

def dimension (g : Field) : ReportDimension := ⟨"Key", "Key", g, none, false⟩

def report (f g : Field) : Report :=
  { metrics := [metric f]
    dimensions := [dimension g]
    sort := some ⟨"Count", .metric "Count", .desc⟩ }

variable {s : Schema} {f g f' g' : Field}

theorem metric?_count (s : Schema) (f g : Field) :
    (context s f g).dictionary.metric? "Count" = some ⟨count f, ⟨"count", []⟩, none⟩ := by
  simp [Dictionary.metric?, context, dictionary, ofPhrase_count]

theorem dimension?_key (s : Schema) (f g : Field) :
    (context s f g).dictionary.dimension? "Key" = some ⟨key g, ⟨"key", []⟩⟩ := by
  simp [Dictionary.dimension?, context, dictionary, ofPhrase_key]

theorem metricsDraft_eq (hf : s.canonical? f = some f') :
    (context s f g).metricsDraft request = { metrics := [metric f'] } := by
  show (context s f g).addMetricMention {} { name := "Count", pinned := some "Count" } = _
  have hresolve : (context s f g).resolve .metric .metric "Count" 1 (some "Count") =
      .ok "Count" := by
    simp only [Context.resolve, Context.exactName?, metric?_count, Option.map_some, count]
  unfold Context.addMetricMention
  rw [hresolve]
  show (context s f g).addMetric (1 + 1) "Count" "Count" none false {} = _
  have hcanonical : (context s f g).schema.canonical? f = some f' := hf
  unfold Context.addMetric
  simp only [metric?_count, count, Draft.metric?, List.find?_nil, Option.isSome_none,
    Option.bind_some, hcanonical]
  rfl

theorem dimensionsDraft_eq (hf : s.canonical? f = some f') (hg : s.canonical? g = some g') :
    (context s f g).dimensionsDraft request =
      { metrics := [metric f'], dimensions := [dimension g'] } := by
  have hmentions : request.dimensions = [{ name := "Key", pinned := some "Key" }] := rfl
  have hresolve : (context s f g).resolve .dimension .dimension "Key" 1 (some "Key") =
      .ok "Key" := by
    simp only [Context.resolve, Context.exactName?, dimension?_key, Option.map_some, key]
  unfold Context.dimensionsDraft
  rw [hmentions, List.foldl_cons, List.foldl_nil, metricsDraft_eq hf]
  unfold Context.addDimensionMention
  rw [hresolve]
  show (context s f g).includeDimension "Key" "Key" _ = _
  have hcanonical : (context s f g).schema.canonical? g = some g' := hg
  unfold Context.includeDimension
  simp only [dimension?_key, key, List.any_nil, hcanonical]
  rfl

/-- The request leaves no conflict open. -/
theorem map_eq (hf : s.canonical? f = some f') (hg : s.canonical? g = some g') :
    (context s f g).map request = ⟨report f' g', [], []⟩ := by
  have hfilters : (context s f g).filtersDraft request =
      ((context s f g).dimensionsDraft request, []) := rfl
  have hcompared : (context s f g).comparedDraft request =
      (context s f g).dimensionsDraft request := by
    unfold Context.comparedDraft
    rw [hfilters]
    simp [Mapping.filterConflicts, Mapping.targetKeys]
  have hsorted : (context s f g).sortedDraft request =
      ((context s f g).dimensionsDraft request, some ⟨"Count", .metric "Count", .desc⟩) := by
    have hsort : request.sortBy = none := rfl
    unfold Context.sortedDraft Context.firstShown
    simp only [hsort, hcompared, metricsDraft_eq hf]
    rfl
  have hfinal : (context s f g).finalDraft request = (context s f g).dimensionsDraft request := by
    unfold Context.finalDraft
    rw [hsorted]
    rfl
  rw [Context.map_eq, hfinal, hsorted, hfilters, dimensionsDraft_eq hf hg]
  simp only [List.mergeSort_singleton, List.map_nil, List.mergeSort_nil]
  rfl

/-- The tables that the query needs are those of the two fields. -/
theorem mem_needed {x : String} :
    x ∈ ((report f g).queryColumns s).tables ↔ x = f.table ∨ x = g.table := by
  rw [Report.mem_queryColumns]
  have htime : (report f g).timeBound? s = none := rfl
  have hfields : (report f g).fields = [f, g] := rfl
  rw [htime, hfields]
  simp [eq_comm]

/-- If the tables of the fields are connected, then the request is translated over them. -/
theorem exists_translation (hf : s.canonical? f = some f') (hg : s.canonical? g = some g')
    {e : Edge} (he : s.FirstEdge e f'.table g'.table) :
    ∃ t plan, ((context s f g).map request).report.translate s {} = .ok t ∧
      s.joinPlan (({} : TranslationSettings).joinRule) ((report f' g').queryColumns s) = .ok plan ∧
      ∀ step ∈ plan.steps, step = e.stepFrom plan.anchor := by
  have hmap := map_eq hf hg
  have hmapped := Mapping.map_mapped (context s f g) request
  have hresolved : ((context s f g).map request).report.Resolved (context s f g) request := by
    refine Mapping.map_resolved ?_
    rw [hmap]
    rfl
  rw [hmap] at hmapped hresolved ⊢
  have htables : s.AreTables [f'.table, g'.table] := by
    obtain ⟨t, ht, hname, -⟩ := Schema.canonical?_declares hf
    obtain ⟨u, hu, hname', -⟩ := Schema.canonical?_declares hg
    exact List.forall_mem_cons.mpr ⟨⟨t, ht, hname⟩, List.forall_mem_singleton.mpr ⟨u, hu, hname'⟩⟩
  have hdepth : 0 < ({} : TranslationSettings).joinRule.maxDepth := by decide
  obtain ⟨plan, hplan, -, hsteps⟩ :=
    Schema.exists_plan_of_edge he htables hdepth fun n => mem_needed
  have hempty : (report f' g').neededColumns.isEmpty = false := by
    have hmem : f'.table ∈ (report f' g').neededColumns.tables :=
      NeededColumns.mem_tables_ofFields.mpr ⟨f', List.mem_cons_self, rfl⟩
    refine List.isEmpty_eq_false_iff.mpr fun hnil => ?_
    rw [hnil] at hmem
    cases hmem
  obtain ⟨t, ht, -⟩ := hresolved.translate_isOk hmapped hempty hplan
  exact ⟨t, plan, ht, hplan, hsteps⟩

end TwoTables

/-! ## The condition on relationships -/

namespace Schema

variable {s : Schema}

/-- The translation is that of a request without open conflicts. -/
def IsTranslation (s : Schema) (t : Translation) : Prop :=
  ∃ (ctx : Mapping.Context) (request : Request) (settings : TranslationSettings),
    ctx.schema = s ∧ (ctx.map request).isResolved = true ∧
      (ctx.map request).report.translate s settings = .ok t

/-- The tables of a relationship have the columns that it names. -/
theorem canonical?_ends {r : Relationship} (hr : r ∈ s.relationships) {t u : Table}
    (ht : s.table? r.fromTable = some t) (hu : s.table? r.toTable = some u) :
    (∃ f, s.canonical? ⟨r.fromTable, r.fromColumn⟩ = some f ∧ f.table = t.name) ∧
      ∃ g, s.canonical? ⟨r.toTable, r.toColumn⟩ = some g ∧ g.table = u.name := by
  have hend : ∀ {table column : String} {t : Table}, s.table? table = some t →
      s.definition.endFault? r table column = none →
      ∃ f, s.canonical? ⟨table, column⟩ = some f ∧ f.table = t.name := by
    intro table column t ht hnone
    unfold SchemaDefinition.endFault? at hnone
    have ht' : s.definition.table? table = some t := ht
    simp only [ht'] at hnone
    split at hnone
    · cases hnone
    · next hcolumn =>
      obtain ⟨c, hc⟩ := Option.isSome_iff_exists.mp
        (by simpa [Option.isSome_iff_ne_none] using hcolumn)
      refine ⟨⟨t.name, c.name⟩, ?_, rfl⟩
      simp only [canonical?, ht, Option.bind_some, hc, Option.map_some]
  have hfault := s.faultless.2 r hr
  simp only [SchemaDefinition.relationshipFault?, Option.or_eq_none_iff] at hfault
  exact ⟨hend ht hfault.1, hend hu hfault.2⟩

/-- The tables of a query always have different names. All queries are well scoped exactly if the
relationships that joins are made along are spelled as declared. -/
theorem wellScoped_iff (s : Schema) :
    (∀ t, s.IsTranslation t → ∀ q ∈ t.queries, q.tables.Nodup) ∧
      ((∀ t, s.IsTranslation t → ∀ q ∈ t.queries, q.WellScoped s) ↔
        ∀ r, s.JoinsAlong r → s.IsSpelled r) := by
  refine ⟨?_, fun hall rel => ?_, fun hspelled => ?_⟩
  · rintro t ⟨ctx, request, settings, rfl, -, ht⟩
    exact Report.translate_distinct ht
  · rintro ⟨e, a, b, he, rfl⟩
    obtain ⟨hindex, t, u, ht, hu, hsource, htarget⟩ := mem_edges.mp he.mem
    obtain ⟨⟨f, hf, hft⟩, g, hg, hgt⟩ := canonical?_ends (List.mem_of_getElem? hindex) ht hu
    have he : s.FirstEdge e f.table g.table := by
      rw [hft, hgt, hsource, htarget]
      obtain ⟨rfl, rfl⟩ | ⟨rfl, rfl⟩ := (Edge.leads_iff he.differ).mp he.leads
      · exact he
      · exact he.symm
    obtain ⟨x, plan, hx, hplan, hsteps⟩ := TwoTables.exists_translation hf hg he
    have hmap := TwoTables.map_eq hf hg
    have hscoped : x.query.WellScoped s := by
      refine hall x ⟨_, _, {}, rfl, ?_, hx⟩ x.query List.mem_cons_self
      rw [hmap]
      rfl
    rw [hmap] at hx
    obtain ⟨plan', hplan', hqueries⟩ := Report.exists_plan hx
    obtain rfl := Except.ok.inj (hplan.symm.trans hplan')
    obtain ⟨time, limit, ws, hquery, -⟩ := hqueries x.query List.mem_cons_self
    obtain ⟨hnames, -, hjoins⟩ := Report.query_tables hquery
    -- both tables are part of the query, so there is a step
    have hboth : f.table ∈ x.query.tables ∧ g.table ∈ x.query.tables := by
      obtain ⟨metrics, rows, groups, orderBy, hmetrics, -, -, hq⟩ := Report.query_eq_ok hquery
      cases hmetrics
      refine ⟨hscoped.fields (.aggregate .count (.field f)) ?_ f (List.mem_singleton_self _),
        hscoped.fields (.field g) ?_ g (List.mem_singleton_self _)⟩
      · rw [hq]
        simp [Query.exprs, TwoTables.report, TwoTables.metric, TwoTables.dimension]
      · rw [hq]
        simp [Query.exprs, TwoTables.report, TwoTables.metric, TwoTables.dimension,
          ReportDimension.expr]
    obtain ⟨step, hstep⟩ : ∃ step, step ∈ plan.steps := by
      by_contra hnone
      have hnil : plan.steps = [] := List.eq_nil_iff_forall_not_mem.mpr (not_exists.mp hnone)
      rw [hnames, JoinPlan.tables, hnil, List.map_nil, List.mem_singleton, List.mem_singleton]
        at hboth
      exact he.differ (hboth.1.trans hboth.2.symm)
    have hjoin : s.join step ∈ x.query.joins := hjoins ▸ List.mem_map_of_mem hstep
    obtain ⟨c, d, hon, hc, hd⟩ := hscoped.joins.declares hjoin
    cases hon
    have hspelled : s.IsSpelled step := ⟨hc, hd⟩
    rw [hsteps step hstep] at hspelled
    exact isSpelled_stepFrom.mp hspelled
  · rintro t ⟨ctx, request, settings, rfl, -, ht⟩
    exact Report.translate_wellScoped hspelled (Mapping.map_declared ctx request) ht

end Schema

namespace Wagers

/-- The schema that writes the name of a table in another letter case. -/
def misspelled : Schema := ⟨definition "games", by decide +kernel⟩

/-- The relationship as it is written, in either schema. -/
theorem mem_relationships {r : Relationship} {target : String} {s : Schema}
    (hs : s.definition = definition target) :
    r ∈ s.relationships ↔ r = ⟨"Bets", "GameId", target, "Id", .manyToOne⟩ := by
  unfold Schema.relationships
  rw [hs]
  exact List.mem_singleton

/-- With the name as it is declared every query is well scoped, and with the other one some query
is not. -/
theorem wellScoped_iff_spelling :
    (∀ t, schema.IsTranslation t → ∀ q ∈ t.queries, q.WellScoped schema) ∧
      ¬ ∀ t, misspelled.IsTranslation t → ∀ q ∈ t.queries, q.WellScoped misspelled := by
  refine ⟨(Schema.wellScoped_iff schema).2.mpr fun r halong => ?_, fun hall => ?_⟩
  · obtain ⟨e, a, b, he, rfl⟩ := halong
    have hmem := List.mem_of_getElem? (Schema.mem_edges.mp he.mem).1
    rw [(mem_relationships rfl).mp hmem]
    exact ⟨⟨bets, by decide, rfl, ⟨"GameId", .integer, true, false, true⟩, by decide, rfl⟩,
      ⟨games, by decide, rfl, ⟨"Id", .integer, true, true, false⟩, by decide, rfl⟩⟩
  · have hspelled := (Schema.wellScoped_iff misspelled).2.mp hall
      ⟨"Bets", "GameId", "games", "Id", .manyToOne⟩
    have hedges : misspelled.edges =
        [⟨0, "Bets", "Games", ⟨"Bets", "GameId", "games", "Id", .manyToOne⟩⟩] := by decide +kernel
    obtain ⟨-, t, ht, hname, -⟩ := hspelled ⟨_, "Bets", "Games", {
      mem := hedges ▸ List.mem_singleton_self _
      leads := ⟨by decide, by decide⟩
      differ := by decide
      first := fun e he _ => by
        rw [hedges] at he
        rw [List.mem_singleton.mp he] }, rfl⟩
    -- no table has the name in this spelling
    have hnames : "games" ∉ misspelled.tables.map (·.name) := by decide +kernel
    exact hnames (List.mem_map.mpr ⟨t, ht, hname⟩)

end Wagers

end MetricLayer
