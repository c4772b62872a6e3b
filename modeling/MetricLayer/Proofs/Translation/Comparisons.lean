import MetricLayer.Proofs.Sql.Tokens
import MetricLayer.Proofs.Translation.Optimized

/-!
# Comparisons

A comparison asks for the same report over other days. Days are values and stand before all others,
so its query is written in the words of the report's own query, and the parameters agree but for the
first two, which are the bounds of the days. A view takes the place of the tables in all queries or
in none, and leaves their values alone, so the queries stay in step when they are improved.

Without a column that the days apply to there are no comparisons, but a warning for each of them.

Results:
1. `Query.OverDays.statement_eq`: two queries that differ in their days are written alike.
2. `Translation.InStep.optimizeChecked`: improving a translation keeps its queries in step.
3. `Translation.comparisons_inStep`: the comparisons of a translation and of every improved one.
-/

namespace MetricLayer

/-! ## Statements over days -/

/-- The statement with the bounds of the days as its first two parameters. -/
def Statement.withDays (st : Statement) (type : DataType) (days : DayRange) : Statement :=
  { st with parameters :=
      ⟨"p1", .dayStart type days.start⟩ :: ⟨"p2", .dayEnd type days.stop⟩ :: st.parameters.drop 2 }

/-- The row limit stands in the text, where the dialect has it. -/
def Statement.CarriesLimit (st : Statement) (d : Dialect) (n : Nat) : Prop :=
  ∃ rest, st.sql =
    if d.usesTop then "SELECT TOP " ++ toString n ++ " " ++ rest
    else rest ++ "\nLIMIT " ++ toString n

/-- The values of the query are the bounds of the days and then the rest. -/
def Query.OverDays (d : Dialect) (type : DataType) (days : DayRange) (rest : List Literal)
    (q : Query) : Prop :=
  q.exprs.flatMap (Expr.values d) =
    .dayStart type days.start :: .dayEnd type days.stop :: rest

namespace Query

variable {d : Dialect} {type : DataType} {days days' : DayRange} {rest : List Literal}
  {q q' : Query} {st st' : Statement}

theorem OverDays.parameters (h : q.OverDays d type days rest) (hst : q.render d = .ok st) :
    st.parameters = ⟨"p1", .dayStart type days.start⟩ :: ⟨"p2", .dayEnd type days.stop⟩ ::
      parametersFrom 3 rest := by
  rw [parameters_eq hst, h]
  rfl

/-- Queries in the same words over different days have the same statement but for the days. -/
theorem OverDays.statement_eq (h : q.OverDays d type days rest)
    (h' : q'.OverDays d type days' rest) (hwords : q'.mapValues .blank = q.mapValues .blank)
    (hst : q.render d = .ok st) (hst' : q'.render d = .ok st') : st' = st.withDays type days' := by
  have hsql : st'.sql = st.sql := by
    rw [sql_mapValues .blank hst, sql_mapValues .blank hst', hwords]
  have hparameters : st'.parameters = (st.withDays type days').parameters := by
    rw [h'.parameters hst', Statement.withDays, h.parameters hst]
    rfl
  obtain ⟨sql', parameters'⟩ := st'
  cases hsql
  cases hparameters
  rfl

theorem OverDays.moved (h : q.OverDays d type days rest) (v : View) :
    (q.moved v).OverDays d type days rest :=
  (moved_values d).trans h

theorem words_moved (h : q'.mapValues .blank = q.mapValues .blank) (v : View) :
    (q'.moved v).mapValues .blank = (q.moved v).mapValues .blank := by
  rw [moved_mapValues, moved_mapValues, h]

/-- The limit of a query is written. -/
theorem carriesLimit {n : Nat} (h : q.limit = some n) (hst : q.render d = .ok st) :
    st.CarriesLimit d n := by
  rw [eq_ofPieces hst, Statement.ofPieces, Statement.CarriesLimit]
  cases htop : d.usesTop with
  | true =>
    obtain ⟨tail, hpieces⟩ : ∃ tail, q.pieces d =
        [.word "SELECT ", .word ("TOP " ++ toString n ++ " ")] ++ tail := by
      simp only [pieces, htop, if_true, h, limitPieces, List.cons_append, List.nil_append,
        List.append_assoc]
      exact ⟨_, rfl⟩
    refine ⟨String.join (Piece.texts d 1 tail), ?_⟩
    rw [hpieces, Token.texts_append, String.join_append, ← String.toList_inj]
    simp [Piece.texts, Piece.text, Piece.values]
  | false =>
    obtain ⟨front, hpieces⟩ : ∃ front, q.pieces d =
        front ++ [.word ("\nLIMIT " ++ toString n ++ "")] := by
      simp only [pieces, htop, Bool.false_eq_true, if_false, h, limitPieces]
      exact ⟨_, rfl⟩
    refine ⟨String.join (Piece.texts d 1 front), ?_⟩
    rw [hpieces, Token.texts_append, String.join_append, ← String.toList_inj]
    simp [Piece.texts, Piece.text]

end Query

/-! ## Translated reports -/

namespace Report

variable {r : Report} {s : Schema} {settings : TranslationSettings} {plan : JoinPlan}
  {column : TimeColumn} {days days' : DayRange} {limit : Nat} {q q' : Query}
  {ws ws' : List TranslationWarning}

theorem query_overDays {rows groups : List Expr}
    (hconditions : r.conditions r.filters = .ok (rows, groups))
    (hq : r.query s plan (some (column, days)) limit = .ok (q, ws)) (d : Dialect) :
    q.OverDays d column.type days ((rows ++ groups).flatMap (Expr.values d)) := by
  rw [Query.OverDays, query_conditionValues hconditions hq, List.flatMap_append]
  rfl

theorem query_words (hq : r.query s plan (some (column, days)) limit = .ok (q, ws))
    (hq' : r.query s plan (some (column, days')) limit = .ok (q', ws')) :
    q'.mapValues .blank = q.mapValues .blank := by
  have hcolumn : (some (column, days')).map (·.1) = (some (column, days)).map (·.1) := rfl
  exact query_blank (.refl r) hcolumn hq hq'

end Report

namespace Translation

variable {r : Report} {s : Schema} {settings : TranslationSettings} {t t' : Translation}
  {type : DataType} {days : DayRange} {rest : List Literal} {n : Nat}

/-- The query of the translation is over the days, and that of each comparison is the same over its
own days. -/
structure InStep (t : Translation) (type : DataType) (days : DayRange) (rest : List Literal) :
    Prop where
  query : t.query.OverDays t.dialect type days rest
  comparisons : ∀ c ∈ t.comparisons, c.range = days.shift c.comparison ∧
    c.query.OverDays t.dialect type c.range rest ∧
    c.query.mapValues .blank = t.query.mapValues .blank

/-- What a report over days is translated to is in step. -/
theorem translate_inStep {column : TimeColumn} (ht : r.translate s settings = .ok t)
    (hbound : r.timeBound? s = some (column, days)) :
    (∃ rest, t.InStep column.type days rest) ∧
      t.comparisons.map (·.comparison) = r.comparisons := by
  obtain ⟨-, plan, q, ws, st, cs, cws, -, hq, -, hcs, rfl⟩ := Report.translate_eq_ok.mp ht
  obtain ⟨-, rows, groups, -, -, hconditions, -, -⟩ := Report.query_eq_ok hq
  rw [hbound] at hq
  unfold Report.comparisonQueries at hcs
  rw [hbound] at hcs
  obtain ⟨cs', hcs', hcs⟩ := bind_eq_ok hcs
  cases hcs
  refine ⟨⟨_, Report.query_overDays hconditions hq _, fun c hc => ?_⟩, ?_⟩
  · obtain ⟨comparison, -, hcomparison⟩ := mapM_mem hcs' c hc
    obtain ⟨⟨q', ws'⟩, hq', hcomparison⟩ := bind_eq_ok hcomparison
    obtain ⟨st', -, hcomparison⟩ := bind_eq_ok hcomparison
    cases hcomparison
    exact ⟨rfl, Report.query_overDays hconditions hq' _, Report.query_words hq hq'⟩
  · have hkind : ∀ (comparison : Comparison) (c : ComparisonQuery),
        r.comparisonQuery s settings plan column days comparison = .ok c →
          c.comparison = comparison := by
      intro comparison c hc
      obtain ⟨⟨q', ws'⟩, -, hc⟩ := bind_eq_ok hc
      obtain ⟨st', -, hc⟩ := bind_eq_ok hc
      cases hc
      rfl
    exact (mapM_map (g := id) hkind hcs').trans (List.map_id _)

theorem OverView.dialect_eq {v : View} (h : t.OverView v t') : t'.dialect = t.dialect := by
  rw [h.rest]

/-- Over a view the queries stay in step. -/
theorem InStep.overView (h : t.InStep type days rest) {v : View} (hv : t.OverView v t') :
    t'.InStep type days rest := by
  constructor
  case query =>
    rw [hv.dialect_eq, hv.query.query]
    exact h.query.moved v
  case comparisons =>
    intro c' hc'
    obtain ⟨c, hc, hreads, hrest⟩ := exists_of_mem_forall₂ hv.comparisons c' hc'
    obtain ⟨hrange, hover, hwords⟩ := h.comparisons c hc
    have hrange' : c'.range = c.range := by rw [hrest]
    have hkind' : c'.comparison = c.comparison := by rw [hrest]
    rw [hv.dialect_eq, hrange', hkind', hreads.query, hv.query.query]
    exact ⟨hrange, hover.moved v, Query.words_moved hwords v⟩

theorem OverView.comparisons_map {v : View} (h : t.OverView v t') :
    t'.comparisons.map (·.comparison) = t.comparisons.map (·.comparison) :=
  map_eq_of_forall₂ (h.comparisons.imp fun _ _ hc => by rw [hc.2])

/-- The statements of queries in step differ in the days only. -/
theorem InStep.statement_eq (h : t.InStep type days rest) (hwritten : t.Written) :
    t.statement = t.statement.withDays type days :=
  h.query.statement_eq h.query rfl hwritten.statement hwritten.statement

theorem InStep.comparison_eq (h : t.InStep type days rest) (hwritten : t.Written)
    {c : ComparisonQuery} (hc : c ∈ t.comparisons) :
    c.range = days.shift c.comparison ∧ c.statement = t.statement.withDays type c.range := by
  obtain ⟨hrange, hover, hwords⟩ := h.comparisons c hc
  exact ⟨hrange,
    h.query.statement_eq hover hwords hwritten.statement (hwritten.comparisons c hc)⟩

theorem InStep.comparisons_eq (h : t.InStep type days rest) (hwritten : t.Written) :
    t.comparisons.map (fun c => (c.comparison, c.range, c.statement)) =
      (t.comparisons.map (·.comparison)).map fun c =>
        (c, days.shift c, t.statement.withDays type (days.shift c)) := by
  rw [List.map_map]
  refine List.map_congr_left fun c hc => ?_
  obtain ⟨hrange, hstatement⟩ := h.comparison_eq hwritten hc
  rw [hstatement, hrange]
  rfl

/-! ## Limits -/

theorem translate_limits (ht : r.translate s settings = .ok t) :
    ∀ q ∈ t.queries, q.limit = some (settings.rowLimit r.limit) := by
  obtain ⟨plan, ws, hquery, -, -, hcomparisons⟩ := Report.translate_queries ht
  have hlimit : ∀ {time q ws}, r.query s plan time (settings.rowLimit r.limit) = .ok (q, ws) →
      q.limit = some (settings.rowLimit r.limit) := by
    intro time q ws hq
    obtain ⟨-, -, -, -, -, -, -, rfl⟩ := Report.query_eq_ok hq
    rfl
  refine List.forall_mem_cons.mpr ⟨hlimit hquery, List.forall_mem_map.mpr fun c hc => ?_⟩
  obtain ⟨-, time, ws', hq, -⟩ := hcomparisons c hc
  exact hlimit hq

theorem OverView.limits {v : View} (h : t.OverView v t')
    (hlimits : ∀ q ∈ t.queries, q.limit = some n) : ∀ q ∈ t'.queries, q.limit = some n := by
  rw [h.queries]
  exact List.forall_mem_map.mpr hlimits

theorem Written.carriesLimit (h : t.Written) (hlimits : ∀ q ∈ t.queries, q.limit = some n) :
    ∀ st ∈ t.statement :: t.comparisons.map (·.statement), st.CarriesLimit t.dialect n := by
  refine List.forall_mem_cons.mpr ⟨?_, List.forall_mem_map.mpr fun c hc => ?_⟩
  · exact Query.carriesLimit (hlimits _ List.mem_cons_self) h.statement
  · exact Query.carriesLimit (hlimits _ (List.mem_cons_of_mem _ (List.mem_map_of_mem hc)))
      (h.comparisons c hc)

/-! ## Skipped comparisons -/

end Translation

/-- The comparison that a warning says is skipped. -/
def TranslationWarning.skipped? : TranslationWarning → Option Comparison
  | .comparisonSkipped c => some c
  | _ => none

theorem Report.order_skipped {r : Report} {os : List OrderItem} {ws : List TranslationWarning}
    (h : r.order = .ok (os, ws)) : ws.filterMap (·.skipped?) = [] := by
  unfold order at h
  split at h
  · obtain ⟨os', -, h⟩ := bind_eq_ok h
    cases h
    rfl
  · obtain ⟨e?, -, h⟩ := bind_eq_ok h
    split at h
    · cases h
      rfl
    · obtain ⟨os', -, h⟩ := bind_eq_ok h
      cases h
      rfl

namespace Translation

variable {r : Report} {s : Schema} {settings : TranslationSettings} {t t' : Translation}
  {days : DayRange} {n : Nat}

/-- Only without a time column comparisons are skipped, and then there are none. -/
theorem translate_skipped (ht : r.translate s settings = .ok t) :
    t.warnings.filterMap (·.skipped?) =
        (if (r.timeBound? s).isSome then [] else r.comparisons) ∧
      (r.timeBound? s = none → t.comparisons = []) := by
  obtain ⟨-, plan, q, ws, st, cs, cws, -, hq, -, hcs, rfl⟩ := Report.translate_eq_ok.mp ht
  obtain ⟨_, _, _, _, -, -, horder, -⟩ := Report.query_eq_ok hq
  have hdate : (if r.timeRange.isSome && (r.timeBound? s).isNone then
      [TranslationWarning.noDateColumn] else []).filterMap (·.skipped?) = [] := by
    split <;> rfl
  have hlimit : (settings.limitWarning r.limit).filterMap (·.skipped?) = [] := by
    unfold TranslationSettings.limitWarning
    split
    · split <;> rfl
    · rfl
  have hskipped : cws.filterMap (·.skipped?) =
      (if (r.timeBound? s).isSome then [] else r.comparisons) ∧
        (r.timeBound? s = none → cs = []) := by
    unfold Report.comparisonQueries at hcs
    split at hcs
    case h_1 column days htime =>
      obtain ⟨cs', -, hcs⟩ := bind_eq_ok hcs
      cases hcs
      rw [htime]
      exact ⟨rfl, nofun⟩
    case h_2 htime =>
      cases hcs
      rw [htime, List.filterMap_map]
      exact ⟨List.filterMap_some, fun _ => rfl⟩
  simp only [List.filterMap_append, hdate, hlimit, Report.order_skipped horder, List.nil_append]
  exact hskipped

/-! ## Comparisons of a translation -/

/-- The comparisons of the report, as far as a translation can make them: each is the same statement
over its own days, or all of them are skipped; and every statement carries the limit. -/
structure Compares (t : Translation) (r : Report) (days : DayRange) (column? : Option TimeColumn)
    (n : Nat) : Prop where
  applied : ∀ column, column? = some column →
    t.statement = t.statement.withDays column.type days ∧
      t.comparisons.map (fun c => (c.comparison, c.range, c.statement)) =
        r.comparisons.map (fun c =>
          (c, days.shift c, t.statement.withDays column.type (days.shift c))) ∧
      t.warnings.filterMap (·.skipped?) = []
  skipped : column? = none →
    t.comparisons = [] ∧ t.warnings.filterMap (·.skipped?) = r.comparisons
  limits : ∀ st ∈ t.statement :: t.comparisons.map (·.statement), st.CarriesLimit t.dialect n

/-- What is kept of the comparisons when a translation is improved. -/
structure Comparing (t : Translation) (r : Report) (s : Schema) (days : DayRange) (n : Nat) :
    Prop where
  written : t.Written
  inStep : ∀ column, r.timeBound? s = some (column, days) →
    (∃ rest, t.InStep column.type days rest) ∧
      t.comparisons.map (·.comparison) = r.comparisons
  none : r.timeBound? s = none → t.comparisons = []
  skipped : t.warnings.filterMap (·.skipped?) =
    if (r.timeBound? s).isSome then [] else r.comparisons
  limits : ∀ q ∈ t.queries, q.limit = some n

theorem translate_comparing (ht : r.translate s settings = .ok t) (days : DayRange) :
    t.Comparing r s days (settings.rowLimit r.limit) := by
  obtain ⟨hskipped, hnone⟩ := translate_skipped ht
  exact ⟨translate_written ht, fun _ hbound => translate_inStep ht hbound, hnone, hskipped,
    translate_limits ht⟩

theorem OverView.written {v : View} (h : t.OverView v t') : t'.Written := by
  refine ⟨h.dialect_eq ▸ h.query.statement, fun c' hc' => ?_⟩
  obtain ⟨c, -, hreads, -⟩ := exists_of_mem_forall₂ h.comparisons c' hc'
  exact h.dialect_eq ▸ hreads.statement

theorem Comparing.overView (h : t.Comparing r s days n) {v : View} (hv : t.OverView v t') :
    t'.Comparing r s days n := by
  constructor
  case written => exact hv.written
  case inStep =>
    intro column hbound
    obtain ⟨⟨rest, hstep⟩, hkinds⟩ := h.inStep column hbound
    exact ⟨⟨rest, hstep.overView hv⟩, hv.comparisons_map.trans hkinds⟩
  case none =>
    intro hbound
    have hcomparisons := hv.comparisons
    rw [h.none hbound] at hcomparisons
    exact List.forall₂_nil_left_iff.mp hcomparisons
  case skipped =>
    have hwarnings : t'.warnings = t.warnings := by rw [hv.rest]
    rw [hwarnings]
    exact h.skipped
  case limits => exact hv.limits h.limits

/-- Index hints and warnings about views leave the comparisons alone. -/
theorem Comparing.noted (h : t.Comparing r s days n) {added : List TranslationWarning}
    (hadded : ∀ w ∈ added, ∃ view reason, w = .viewSkipped view reason) (hints : List String) :
    ({ t with warnings := t.warnings ++ added, indexHints := hints } : Translation).Comparing
      r s days n := by
  have hnone : added.filterMap (·.skipped?) = [] := by
    refine List.filterMap_eq_nil_iff.mpr fun w hw => ?_
    obtain ⟨view, reason, rfl⟩ := hadded w hw
    rfl
  constructor
  case written => exact ⟨h.written.statement, h.written.comparisons⟩
  case inStep =>
    intro column hbound
    obtain ⟨⟨rest, hstep⟩, hkinds⟩ := h.inStep column hbound
    exact ⟨⟨rest, hstep.query, hstep.comparisons⟩, hkinds⟩
  case none => exact h.none
  case skipped =>
    rw [List.filterMap_append, hnone, List.append_nil]
    exact h.skipped
  case limits => exact h.limits

theorem Comparing.optimizeChecked (h : t.Comparing r s days n) (htables : t.OverTables)
    (check : StatementCheck) (s' : Schema) (o : OptimizerSettings) :
    (t.optimizeChecked check s' o).Comparing r s days n := by
  obtain ⟨v, -, hv⟩ | ⟨added, hints, -, hadded, heq⟩ := optimizeChecked_cases htables check s' o
  · exact h.overView hv
  · rw [heq]
    refine h.noted (fun w hw => ?_) hints
    obtain ⟨v, reason, -, rfl⟩ := hadded w hw
    exact ⟨_, _, rfl⟩

theorem Comparing.compares (h : t.Comparing r s days n) (hdays : r.timeRange = some days) :
    t.Compares r days (s.timeColumn? r r.neededColumns) n := by
  have hbound : r.timeBound? s = (s.timeColumn? r r.neededColumns).map (·, days) := by
    rw [Report.timeBound?, hdays]
    rfl
  have hskipped := h.skipped
  constructor
  case applied =>
    intro column hcolumn
    rw [hcolumn] at hbound
    rw [hbound] at hskipped
    obtain ⟨⟨rest, hstep⟩, hkinds⟩ := h.inStep column hbound
    have hcomparisons := hstep.comparisons_eq h.written
    rw [hkinds] at hcomparisons
    exact ⟨hstep.statement_eq h.written, hcomparisons, hskipped⟩
  case skipped =>
    intro hcolumn
    rw [hcolumn] at hbound
    rw [hbound] at hskipped
    exact ⟨h.none hbound, hskipped⟩
  case limits => exact h.written.carriesLimit h.limits

/-- The comparisons of a report over some days. If the days apply to a column, every comparison of
the report has its own statement, in their order: that of the report with the bounds of the shifted
days in the place of those of the days, which are its first two parameters. Without such a column
there are none, and one warning for each. All these statements carry the requested row limit, or the
cap if it is smaller or none is requested. This holds of the translation and of every improved one,
with a view or without one. -/
theorem comparisons_inStep (s : Schema) (settings : TranslationSettings) (r : Report)
    (days : DayRange) (hdays : r.timeRange = some days) (t : Translation)
    (ht : r.translate s settings = .ok t) :
    t.Compares r days (s.timeColumn? r r.neededColumns)
        (min (r.limit.getD settings.rowCap) settings.rowCap) ∧
      ∀ (check : StatementCheck) (s' : Schema) (o : OptimizerSettings),
        (t.optimizeChecked check s' o).Compares r days (s.timeColumn? r r.neededColumns)
          (min (r.limit.getD settings.rowCap) settings.rowCap) := by
  have hcomparing := translate_comparing ht days
  have ht' : r.translate s settings = .ok { t with warnings := t.warnings } := ht
  have htables := translate_overTables ht'
  exact ⟨hcomparing.compares hdays, fun check s' o =>
    (hcomparing.optimizeChecked htables check s' o).compares hdays⟩

end Translation

namespace Sales

/-- The sales with the type of their days. -/
def datedSchema (type : DataType) : Schema where
  definition :=
    { tables := [{ name := "Sales"
                   columns := [{ name := "Day", type }, { name := "Amount" }] }]
      views := [view] }
  sound := by cases type <;> decide +kernel

/-- The years of the weeks that are compared. -/
def yearOf (recent : Bool) : Int := if recent then 2024 else 2023

theorem yearOf_mem (recent : Bool) : minYear ≤ yearOf recent ∧ yearOf recent ≤ maxYear := by
  cases recent <;> decide

theorem january_mem : 1 ≤ 1 ∧ 1 ≤ 12 := by decide

theorem first_mem (year : Int) : 1 ≤ 1 ∧ 1 ≤ daysInMonth year 1 := by simp [daysInMonth]

theorem seventh_mem (year : Int) : 1 ≤ 7 ∧ 7 ≤ daysInMonth year 1 := by simp [daysInMonth]

/-- The first seven days of 2024, or those of the year before. -/
def firstWeek (recent : Bool) : DayRange :=
  ⟨⟨yearOf recent, 1, 1, yearOf_mem recent, january_mem, first_mem (yearOf recent)⟩,
    ⟨yearOf recent, 1, 7, yearOf_mem recent, january_mem, seventh_mem (yearOf recent)⟩⟩

/-- The sums of the days of a week, with a comparison. -/
def comparedReport (c : Comparison) : Report :=
  { report .sum with
    dimensions := [⟨"Day", "Day", ⟨"Sales", "Day"⟩, none, true⟩]
    timeRange := some (firstWeek true)
    comparisons := [c] }

/-- The view takes the place of the table for both years. -/
theorem comparisons_inStep_daily : ∃ t,
    (comparedReport .yearOverYear).translate (datedSchema .date) {} = .ok t ∧
    (t.optimizeChecked (fun _ _ => none) (datedSchema .date) {}).usedView = some "DailySales" ∧
    (t.optimizeChecked (fun _ _ => none) (datedSchema .date) {}).comparisons.map
        (fun c => (c.comparison, c.range, c.statement)) =
      [(.yearOverYear, firstWeek false,
        (t.optimizeChecked (fun _ _ => none) (datedSchema .date) {}).statement.withDays .date
          (firstWeek false))] := by
  have hview : ((comparedReport .yearOverYear).translate (datedSchema .date) {}).map (fun t =>
      (t.optimizeChecked (fun _ _ => none) (datedSchema .date) {}).usedView) =
        .ok (some "DailySales") := by decide +kernel
  obtain ⟨t, ht, hused⟩ := map_eq_ok hview
  obtain ⟨-, hoptimized⟩ := Translation.comparisons_inStep (datedSchema .date) {}
    (comparedReport .yearOverYear) (firstWeek true) rfl t ht
  have hcolumn : (datedSchema .date).timeColumn? (comparedReport .yearOverYear)
      (comparedReport .yearOverYear).neededColumns = some ⟨⟨"Sales", "Day"⟩, .date⟩ := by
    decide +kernel
  obtain ⟨-, hcomparisons, -⟩ :=
    (hoptimized (fun _ _ => none) (datedSchema .date) {}).applied _ hcolumn
  refine ⟨t, ht, hused, hcomparisons.trans ?_⟩
  have hshift : (firstWeek true).shift .yearOverYear = firstWeek false := by decide +kernel
  rw [comparedReport, List.map_singleton, hshift]

end Sales

end MetricLayer
