import MetricLayer.Proofs.Translation.ViewNeeds

/-!
# Answers of translations over views

The view that takes the place of the tables of a translation is chosen by what its columns show and
by what it is grouped by. It keeps the answers if it suits the query, and as far as the answers tell
what a query reads, it keeps them on every database only then.

Results:
1. `Translation.withView_answers`: when a view keeps the answers of a translation.
-/

namespace MetricLayer

variable {α : Type} [LinearOrder α] {fns : Functions α} {db : Database α}

/-! ## Variants of a query -/

namespace Query.IsVariant

variable {q q' : Query} {v : View} {s : Schema}

theorem flatMap_exprs {β : Type} {part : Expr → List β} (h : q.IsVariant q')
    (hfilters : q'.filters.map part = q.filters.map part) :
    q'.exprs.flatMap part = q.exprs.flatMap part := by
  have hflat : q'.filters.flatMap part = q.filters.flatMap part := by
    rw [List.flatMap_def, hfilters, ← List.flatMap_def]
  rw [h.eq]
  simp only [exprs, List.flatMap_append, hflat]

theorem measures_eq (h : q.IsVariant q') : Query.measures q' = Query.measures q :=
  h.flatMap_exprs h.measures

theorem isGrouping_eq (h : q.IsVariant q') : q'.isGrouping = q.isGrouping := by
  have haggregations : Query.aggregations q' = Query.aggregations q :=
    h.flatMap_exprs h.aggregations
  rw [isGrouping, isGrouping, haggregations, h.eq]

theorem suits (h : q.IsVariant q') (hsuits : v.Suits s q) : v.Suits s q' := by
  have htables : q'.tables = q.tables := by rw [h.eq]; rfl
  have hpairs : q'.joinPairs = q.joinPairs := by rw [h.eq]; rfl
  constructor
  case toMatches => exact ⟨htables ▸ hsuits.tables, hpairs ▸ hsuits.links⟩
  case measures => rw [h.measures_eq]; exact hsuits.measures
  case grouping => rw [h.isGrouping_eq]; exact hsuits.grouping

theorem serves (h : q.IsVariant q') (hserves : v.serves q = true) : v.serves q' = true := by
  have htables : q'.tables = q.tables := by rw [h.eq]; rfl
  have hgroups : q'.groupFields = q.groupFields := by rw [h.eq]; rfl
  have hfilters : q'.filterFields = q.filterFields := by
    rw [filterFields, List.flatMap_def, h.fields, ← List.flatMap_def]
    rfl
  have hfields : q'.referencedFields = q.referencedFields :=
    congrArg List.eraseDups (h.flatMap_exprs h.fields)
  have haggregations : Query.aggregations q' = Query.aggregations q :=
    h.flatMap_exprs h.aggregations
  rw [View.serves, View.coversTables, View.coversFields, View.coversGroups] at hserves ⊢
  rwa [htables, hfields, haggregations, hgroups, hfilters]

end Query.IsVariant

/-! ## Translations -/

/-- A query that can be written has a statement over a view that serves it. -/
theorem Query.exists_statementOnView {q : Query} {v : View} {d : Dialect}
    (hserves : v.serves q = true) (h : ∃ st, q.render d = .ok st) :
    ∃ st, q.statementOnView d v = .ok (q.moved v, st) := by
  obtain ⟨hselect, hlists⟩ := exists_render.mp h
  have hsource : ∃ st, ({ q with source := v.tableRef, joins := [] } : Query).render d = .ok st :=
    exists_render.mpr ⟨hselect, hlists⟩
  obtain ⟨st, hst⟩ := (exists_render_mapFields v.fieldFor).mpr hsource
  have hmoved : (q.moved v).render d = .ok st := hst
  refine ⟨st, ?_⟩
  rw [statementOnView, onView_eq hserves]
  simp only [bind, Except.bind, hmoved, Except.mapError]
  rfl

namespace Report

variable {settings : TranslationSettings} {q : Query} {st : Statement}

theorem render_of_statement (h : statement settings q = .ok st) :
    q.render settings.dialect = .ok st :=
  mapError_eq_ok h

end Report

theorem Schema.serves_of_viewFor? {s : Schema} {q : Query} {v : View} (h : s.viewFor? q = some v) :
    v.serves q = true := by
  unfold viewFor? at h
  have hserves := List.find?_some h
  exact hserves

namespace Translation

variable {r : Report} {s : Schema} {settings : TranslationSettings} {t : Translation} {v : View}

/-- The translations have the same answers, and so have their comparisons. -/
def SameAnswers (fns : Functions α) (db : Database α) (t t' : Translation) : Prop :=
  (∀ answer, t'.query.AnswersOn fns db answer ↔ t.query.AnswersOn fns db answer) ∧
    List.Forall₂ (fun c c' => ∀ answer,
      c'.query.AnswersOn fns db answer ↔ c.query.AnswersOn fns db answer)
      t.comparisons t'.comparisons

/-- On every database in which the view holds what it declares, the translations have the same
answers. -/
def SameOn (v : View) (s : Schema) (t t' : Translation) : Prop :=
  ∀ (α : Type) [LinearOrder α] (fns : Functions α) (db : Database α), v.HoldsIn s db →
    t.SameAnswers fns db t'

/-- A comparison moves to a view with its query. -/
theorem onView_of_statement {c : ComparisonQuery} {dialect : Dialect} {q : Query} {st : Statement}
    (h : c.query.statementOnView dialect v = .ok (q, st)) :
    c.onView dialect v = .ok { c with query := q, statement := st } := by
  rw [ComparisonQuery.onView, h]
  rfl

/-- A translation moves to a view with its query and its comparisons. -/
theorem onView_of_parts {q : Query} {st : Statement} {cs : List ComparisonQuery}
    (hquery : t.query.statementOnView t.dialect v = .ok (q, st))
    (hcomparisons : t.comparisons.mapM (·.onView t.dialect v) = .ok cs) :
    t.onView v = .ok { t with
      query := q
      statement := st
      comparisons := cs
      usedView := some v.name
      explanation := .readView v.name t.query.tables :: t.explanation.filter (!·.isSource) } := by
  rw [onView, hquery]
  show (t.comparisons.mapM (·.onView t.dialect v) >>= _) = _
  rw [hcomparisons]
  rfl

/-- A translation moves to a view that serves it. -/
theorem exists_onView (ht : r.translate s settings = .ok t) (hserves : v.serves t.query = true) :
    ∃ t', t.onView v = .ok t' ∧ t'.usedView = some v.name ∧ t'.query = t.query.moved v ∧
      List.Forall₂ (fun c c' => c'.query = c.query.moved v) t.comparisons t'.comparisons := by
  obtain ⟨plan, ws, -, hstatement, hdialect, hcomparisons⟩ := Report.translate_queries ht
  have hmoved : ∀ q st, v.serves q = true → Report.statement settings q = .ok st →
      ∃ st', q.statementOnView t.dialect v = .ok (q.moved v, st') := fun q st hq hst =>
    Query.exists_statementOnView hq ⟨st, hdialect ▸ Report.render_of_statement hst⟩
  obtain ⟨cs, hcs, hsame⟩ : ∃ cs, t.comparisons.mapM (·.onView t.dialect v) = .ok cs ∧
      List.Forall₂ (fun c c' => c'.query = c.query.moved v) t.comparisons cs := by
    refine exists_mapM fun c hc => ?_
    obtain ⟨hvariant, _, _, _, hst⟩ := hcomparisons c hc
    obtain ⟨st', hst'⟩ := hmoved c.query c.statement (hvariant.serves hserves) hst
    exact ⟨_, onView_of_statement hst', rfl⟩
  obtain ⟨st, hst⟩ := hmoved t.query t.statement hserves hstatement
  exact ⟨_, onView_of_parts hst hcs, rfl, rfl, hsame⟩

/-- A view that serves the query of a translation keeps its answers on every database if it suits
the query. As far as the answers tell what the query reads, it only keeps them then. -/
theorem withView_answers (ht : r.translate s settings = .ok t)
    (hv : s.viewFor? t.query = some v) :
    (t.withView s).usedView = some v.name ∧
      (v.Suits s t.query → SameOn v s t (t.withView s)) ∧
      (v.IsNamed s t.query → t.query.IsJoined s → t.query.IsOpen →
        SameOn v s t (t.withView s) → v.Suits s t.query) := by
  have hserves := Schema.serves_of_viewFor? hv
  obtain ⟨t', ht', hused, hquery, hothers⟩ := exists_onView ht hserves
  have hview : t.withView s = t' := by
    simp only [withView, hv, ht']
  rw [hview]
  refine ⟨hused, fun hsuits α _ fns db hholds => ?_, fun hnamed hjoined hopen h => ?_⟩
  case refine_1 =>
    obtain ⟨plan, ws, hreport, -, -, hcomparisons⟩ := Report.translate_queries ht
    refine ⟨fun answer => ?_, ?_⟩
    · rw [hquery]
      exact Query.onView_answers (Report.query_isReport hreport) (Report.query_measures hreport)
        hserves hsuits hholds answer
    · have hmem : ∀ c ∈ t.comparisons, ∀ answer,
          (c.query.moved v).AnswersOn fns db answer ↔ c.query.AnswersOn fns db answer := by
        intro c hc
        obtain ⟨hvariant, _, _, hreport', -⟩ := hcomparisons c hc
        exact Query.onView_answers (Report.query_isReport hreport') (Report.query_measures hreport')
          (hvariant.serves hserves) (hvariant.suits hsuits) hholds
      generalize t.comparisons = cs at hothers hmem ⊢
      generalize t'.comparisons = cs' at hothers ⊢
      induction hothers with
      | nil => exact .nil
      | cons hc _ ih =>
        refine .cons ?_ (ih fun c' hc' => hmem c' (List.mem_cons_of_mem _ hc'))
        rw [hc]
        exact hmem _ List.mem_cons_self
  case refine_2 =>
    refine View.suits_of_preserves hserves hnamed hjoined hopen fun α _ fns db hholds answer => ?_
    rw [← hquery]
    exact (h α fns db hholds).1 answer

end Translation

namespace Sales

/-- Sales with their days and amounts. -/
def table : Table := { name := "Sales", columns := [{ name := "Day" }, { name := "Amount" }] }

/-- The amounts of each day. -/
def view : View :=
  { name := "DailySales"
    materialized := true
    sourceTables := ["Sales"]
    groupBy := [⟨"Sales", "Day"⟩]
    columns := [⟨"Day", some ⟨"Sales", "Day"⟩⟩, ⟨"Total", some ⟨"Sales", "Amount"⟩⟩] }

def schema : Schema where
  definition := { tables := [table], views := [view] }
  sound := by decide +kernel

/-- The report of an aggregate of the amounts of each day. -/
def report (a : Aggregation) : Report :=
  { metrics := [⟨"Sales", "Sales", some ⟨"Sales", "Amount"⟩, a, .decimal, none, false⟩]
    dimensions := [⟨"Day", "Day", ⟨"Sales", "Day"⟩, none, false⟩] }

/-- Its query. -/
def query (a : Aggregation) : Query :=
  { select := [⟨.field ⟨"Sales", "Day"⟩, some "Day"⟩,
      ⟨.aggregate a (.field ⟨"Sales", "Amount"⟩), some "Sales"⟩]
    source := ⟨"Sales", none⟩
    groupBy := [.field ⟨"Sales", "Day"⟩]
    orderBy := [⟨.aggregate a (.field ⟨"Sales", "Amount"⟩), true⟩]
    limit := some 10000 }

theorem exists_translation (a : Aggregation) :
    ∃ t, (report a).translate schema {} = .ok t ∧ t.query = query a := by
  have hquery : ((report a).translate schema {}).map (·.query) = .ok (query a) := by
    cases a <;> rfl
  exact map_eq_ok hquery

theorem query_measures (a : Aggregation) : (query a).measures =
    [(a, .field ⟨"Sales", "Amount"⟩), (a, .field ⟨"Sales", "Amount"⟩)] := rfl

theorem mem_query_measures {a : Aggregation} {m : Aggregation × Expr} (h : m ∈ (query a).measures) :
    m = (a, .field ⟨"Sales", "Amount"⟩) := by
  simpa [query_measures] using h

theorem query_isJoined (a : Aggregation) : (query a).IsJoined schema where
  declared := by
    have htable : schema.table? "Sales" = some table := by decide +kernel
    exact List.forall_mem_singleton.mpr ⟨table, htable, rfl⟩
  distinct := List.nodup_singleton _
  within := nofun
  proper := nofun
  measures m hm := by
    rw [mem_query_measures hm]
    exact ⟨_, rfl, List.mem_singleton_self _⟩

theorem query_isOpen (a : Aggregation) : (query a).IsOpen where
  limit n hn := by
    cases hn
    decide
  measures m hm := by
    rw [mem_query_measures hm]
    exact List.mem_singleton_self _
  grouping _ := .inl (List.cons_ne_nil _ _)

theorem view_isNamed (a : Aggregation) : view.IsNamed schema (query a) where
  columns := by decide +kernel
  sources := by decide +kernel
  tables := by cases a <;> decide +kernel

theorem view_suits : view.Suits schema (query .sum) where
  tables := by decide +kernel
  links _ _ := Iff.rfl
  measures _ a c hm := by
    cases mem_query_measures hm
    decide +kernel
  grouping _ := rfl

/-- The sums of the days can be read from the view, the least amounts cannot, and the view takes the
place of the table for both. -/
theorem withView_answers_daily :
    (∃ t, (report .sum).translate schema {} = .ok t ∧ schema.viewFor? t.query = some view ∧
      Translation.SameOn view schema t (t.withView schema)) ∧
    ∃ t, (report .min).translate schema {} = .ok t ∧ schema.viewFor? t.query = some view ∧
      ¬ Translation.SameOn view schema t (t.withView schema) := by
  have hview : schema.viewFor? (query .sum) = some view ∧
      schema.viewFor? (query .min) = some view := by decide +kernel
  obtain ⟨t, ht, hquery⟩ := exists_translation .sum
  obtain ⟨t', ht', hquery'⟩ := exists_translation .min
  have hv : schema.viewFor? t.query = some view := hquery ▸ hview.1
  have hv' : schema.viewFor? t'.query = some view := hquery' ▸ hview.2
  refine ⟨⟨t, ht, hv, ?_⟩, t', ht', hv', fun hsame => ?_⟩
  · exact (Translation.withView_answers ht hv).2.1 (hquery ▸ view_suits)
  · have hsuits := (Translation.withView_answers ht' hv').2.2 (hquery' ▸ view_isNamed .min)
      (hquery' ▸ query_isJoined .min) (hquery' ▸ query_isOpen .min) hsame
    -- the view has the sums of the amounts
    have hsum := hsuits.measures rfl .min ⟨"Sales", "Amount"⟩
      (hquery' ▸ query_measures .min ▸ List.mem_cons_self)
    exact absurd (hsum.mpr (by decide +kernel)) (by decide)

end Sales

end MetricLayer
