import MetricLayer.Proofs.Translation.OptimizedAnswers
import MetricLayer.Proofs.Translation.Values

/-!
# Improved translations

A translation is put over a view as a whole or not at all. A view that serves its query shows every
field that the comparisons refer to as well, since these differ in the values of conditions only. So
the one way to fail is that the check does not read the statement over the view, and then the
translation stays as it is but for a warning.

The tables of a query over a view are that view alone. No view is made from another one, so the
search for a view finds nothing there, and a second improvement has nothing to add.

Results:
1. `Translation.exists_overView`: a view that serves the query takes the place of all tables.
2. `Schema.viewFor?_moved`: a query over a view is served by no view.
3. `Translation.optimizeChecked_allOrNothing`: what an improvement leaves alone, and when a second
   one changes nothing.
-/

namespace MetricLayer

/-! ## Queries over a view -/

/-- The second query with its statement is the first one over the view: every field is replaced by
the column of the view that shows it, and nothing but the source differs besides. -/
structure ReadsView (v : View) (d : Dialect) (q q' : Query) (st st' : Statement) : Prop where
  query : q' = q.moved v
  columns : ∀ f ∈ q.referencedFields, ∃ c, v.columnFor? f = some c ∧ v.fieldFor f = ⟨v.name, c.name⟩
  statement : q'.render d = .ok st'
  parameters : st'.parameters = st.parameters

/-- A query that is written reads a view that serves it. -/
theorem Query.exists_readsView {q : Query} {v : View} {d : Dialect} {st : Statement}
    (hserves : v.serves q = true) (h : q.render d = .ok st) :
    ∃ st', q.statementOnView d v = .ok (q.moved v, st') ∧ ReadsView v d q (q.moved v) st st' := by
  obtain ⟨st', hst'⟩ := exists_statementOnView hserves ⟨st, h⟩
  have hwritten := Translation.statementOnView_written hst'
  refine ⟨st', hst', rfl, fun f hf => View.exists_columnFor? hserves hf, hwritten, ?_⟩
  rw [parameters_eq hwritten, moved_values, parameters_eq h]

/-! ## Translations over a view -/

namespace Translation

variable {t t' : Translation} {v : View}

/-- The translation reads tables: its statements are written, and the comparisons are the same query
over other days. -/
structure OverTables (t : Translation) : Prop where
  written : t.Written
  variants : ∀ c ∈ t.comparisons, t.query.IsVariant c.query
  usedView : t.usedView = none

/-- The second translation is the first one over the view, with all its comparisons. -/
structure OverView (t : Translation) (v : View) (t' : Translation) : Prop where
  query : ReadsView v t.dialect t.query t'.query t.statement t'.statement
  comparisons : List.Forall₂ (fun c c' =>
    ReadsView v t.dialect c.query c'.query c.statement c'.statement ∧
      c' = { c with query := c'.query, statement := c'.statement }) t.comparisons t'.comparisons
  rest : t' = { t with
    query := t'.query
    statement := t'.statement
    comparisons := t'.comparisons
    usedView := some v.name
    explanation := .readView v.name t.query.tables :: t.explanation.filter (!·.isSource) }

/-- All queries are put over the view. -/
theorem OverView.queries (h : t.OverView v t') : t'.queries = t.queries.map (·.moved v) := by
  have hcomparisons : t'.comparisons.map (·.query) = t.comparisons.map (·.query.moved v) :=
    map_eq_of_forall₂ (h.comparisons.imp fun _ _ hc => hc.1.query)
  rw [Translation.queries, Translation.queries, h.query.query, hcomparisons, List.map_cons,
    List.map_map]
  rfl

/-- What a report is translated to reads tables, whatever warnings it carries. -/
theorem translate_overTables {r : Report} {s : Schema} {settings : TranslationSettings}
    {ws : List TranslationWarning} (h : r.translate s settings = .ok { t with warnings := ws }) :
    t.OverTables := by
  have hwritten := translate_written h
  obtain ⟨plan, ws', -, -, -, hcomparisons⟩ := Report.translate_queries h
  obtain ⟨-, plan, q, ws', st, cs, cws, -, -, -, -, heq⟩ := Report.translate_eq_ok.mp h
  refine ⟨⟨hwritten.statement, hwritten.comparisons⟩, fun c hc => (hcomparisons c hc).1, ?_⟩
  exact congrArg (·.usedView) heq

/-- A view that serves the query of a translation takes the place of all tables. -/
theorem exists_overView (h : t.OverTables) (hserves : v.serves t.query = true) :
    ∃ st t', t.query.statementOnView t.dialect v = .ok (t.query.moved v, st) ∧
      t.onView v = .ok t' ∧ t.OverView v t' := by
  obtain ⟨st, hst, hquery⟩ := Query.exists_readsView hserves h.written.statement
  obtain ⟨cs, hcs, hcomparisons⟩ : ∃ cs, t.comparisons.mapM (·.onView t.dialect v) = .ok cs ∧
      List.Forall₂ (fun c c' =>
        ReadsView v t.dialect c.query c'.query c.statement c'.statement ∧
          c' = { c with query := c'.query, statement := c'.statement }) t.comparisons cs := by
    refine exists_mapM fun c hc => ?_
    obtain ⟨st', hst', hreads⟩ :=
      Query.exists_readsView ((h.variants c hc).serves hserves) (h.written.comparisons c hc)
    exact ⟨_, onView_of_statement hst', hreads, rfl⟩
  exact ⟨st, _, hst, onView_of_parts hst hcs, hquery, hcomparisons, rfl⟩

end Translation

/-! ## Views of views -/

namespace Schema

variable {s : Schema} {v : View}

/-- A view is made from tables. -/
theorem exists_sourceTable (hv : v ∈ s.views) {source : String} (h : source ∈ v.sourceTables) :
    ∃ t, s.table? source = some t := by
  have hsound := s.sound
  simp only [SchemaDefinition.fault?, Option.or_eq_none_iff, List.findSome?_eq_none_iff] at hsound
  have hview := hsound.2.2 v hv
  unfold SchemaDefinition.viewFault? at hview
  split at hview
  · cases hview
  · next hnone =>
    have hknown : ¬s.definition.table? source = none := by
      simpa using List.find?_eq_none.mp hnone source h
    exact Option.ne_none_iff_exists'.mp hknown

/-- Views and tables have different names. -/
theorem view_differs (hv : v ∈ s.views) {t : Table} (ht : t ∈ s.tables) :
    ¬sameName t.name v.name = true := by
  intro hsame
  have hnodup := (SchemaDefinition.firstRepeated?_eq_none s.faultless.1).1
  rw [List.map_append] at hnodup
  refine (List.nodup_append.mp hnodup).2.2 _ ?_ _ ?_ (sameName_iff.mp hsame)
  · exact List.mem_map_of_mem (List.mem_map_of_mem ht)
  · exact List.mem_map_of_mem (List.mem_map_of_mem hv)

theorem mem_views_of_viewFor? {q : Query} (h : s.viewFor? q = some v) : v ∈ s.views := by
  unfold viewFor? at h
  have hmem := List.mem_mergeSort.mp (List.mem_of_find?_eq_some h)
  exact (List.mem_filter.mp hmem).1

/-- A query over a view is served by no view. -/
theorem viewFor?_moved (hv : v ∈ s.views) (q : Query) : s.viewFor? (q.moved v) = none := by
  unfold viewFor?
  refine List.find?_eq_none.mpr fun w hw hserves => ?_
  have hmem : w ∈ s.views := (List.mem_filter.mp (List.mem_mergeSort.mp hw)).1
  simp only [View.serves, Bool.and_eq_true, View.coversTables, List.all_eq_true,
    List.any_eq_true] at hserves
  obtain ⟨source, hsource, hsame⟩ := hserves.1.1 v.name List.mem_cons_self
  obtain ⟨t, ht⟩ := exists_sourceTable hmem hsource
  obtain ⟨htable, hname⟩ := table?_spec ht
  exact view_differs hv htable (sameName_trans hname hsame)

end Schema

/-! ## Improvements -/

namespace Translation

variable {t : Translation} {s : Schema} {o : OptimizerSettings} {check : StatementCheck}

/-- Where every statement is read, the check makes no difference. -/
theorem optimizeChecked_none (t : Translation) (s : Schema) (o : OptimizerSettings) :
    t.optimizeChecked (fun _ _ => none) s o = t.optimize s o := by
  have hview : ∀ v, t.onViewChecked (fun _ _ => none) v = t.onView v := by
    intro v
    unfold onViewChecked onView
    cases t.query.statementOnView t.dialect v <;> rfl
  unfold optimizeChecked optimize withViewChecked withView
  simp only [hview]

/-- The index hints that the settings ask for. -/
def withHints (t : Translation) (s : Schema) (o : OptimizerSettings) : Translation :=
  if o.indexHints && t.usedView.isNone then { t with indexHints := s.indexHints t.query } else t

theorem withHints_eq (t : Translation) (s : Schema) (o : OptimizerSettings) :
    ∃ hints, t.withHints s o = { t with indexHints := hints } := by
  unfold withHints
  split
  · exact ⟨_, rfl⟩
  · exact ⟨t.indexHints, rfl⟩

theorem withHints_withHints (t : Translation) (s : Schema) (o : OptimizerSettings) :
    (t.withHints s o).withHints s o = t.withHints s o := by
  unfold withHints
  cases h : o.indexHints && t.usedView.isNone <;> simp [h]

theorem withHints_of_usedView {name : String} (h : t.usedView = some name) :
    t.withHints s o = t := by
  simp [withHints, h]

theorem optimizeChecked_eq (t : Translation) (check : StatementCheck) (s : Schema)
    (o : OptimizerSettings) : t.optimizeChecked check s o =
      if o.enabled then
        (if o.materializedViews then t.withViewChecked check s else t).withHints s o
      else t := rfl

section

variable {v : View} {q : Query} {st : Statement}

theorem onViewChecked_of_read (hst : t.query.statementOnView t.dialect v = .ok (q, st))
    (hread : check t.dialect st.sql = none) : t.onViewChecked check v = t.onView v := by
  rw [onViewChecked, bind_of_ok hst]
  simp only [hread]

theorem onViewChecked_of_unread (hst : t.query.statementOnView t.dialect v = .ok (q, st))
    {reason : String} (hread : check t.dialect st.sql = some reason) :
    t.onViewChecked check v = .error (.unread reason) := by
  rw [onViewChecked, bind_of_ok hst]
  simp only [hread]
  rfl

end

/-- A translation finds no view, or is put over one as a whole, or carries one more warning. -/
theorem withViewChecked_cases (h : t.OverTables) (check : StatementCheck) (s : Schema) :
    (s.viewFor? t.query = none ∧ t.withViewChecked check s = t) ∨
      (∃ v, s.viewFor? t.query = some v ∧ t.OverView v (t.withViewChecked check s)) ∨
      ∃ v reason, s.viewFor? t.query = some v ∧ t.withViewChecked check s =
        { t with warnings := t.warnings ++ [.viewSkipped v.name (.unread reason)] } := by
  unfold withViewChecked
  cases hv : s.viewFor? t.query with
  | none => exact .inl ⟨rfl, rfl⟩
  | some v =>
    obtain ⟨st, t', hst, ht', hover⟩ := exists_overView h (Schema.serves_of_viewFor? hv)
    cases hread : check t.dialect st.sql with
    | none =>
      simp only [onViewChecked_of_read hst hread, ht']
      exact .inr (.inl ⟨v, rfl, hover⟩)
    | some reason =>
      simp only [onViewChecked_of_unread hst hread]
      exact .inr (.inr ⟨v, reason, rfl, rfl⟩)

/-- Over a view there is nothing to improve. -/
theorem optimizeChecked_overView {t' : Translation} {v : View} (hv : v ∈ s.views)
    (h : t.OverView v t') : t'.optimizeChecked check s o = t' := by
  have hused : t'.usedView = some v.name := by rw [h.rest]
  have hview : t'.withViewChecked check s = t' := by
    rw [withViewChecked, h.query.query, Schema.viewFor?_moved hv]
  rw [optimizeChecked_eq, hview, ite_self, withHints_of_usedView hused, ite_self]

/-- The hints do not make a view fit. -/
theorem withViewChecked_withHints (hv : s.viewFor? t.query = none) :
    (t.withHints s o).withViewChecked check s = t.withHints s o := by
  obtain ⟨hints, hhints⟩ := t.withHints_eq s o
  rw [hhints, withViewChecked, hv]

/-- The result of an improvement: the translation over a view, or as it was but for index hints and
at most one warning. -/
theorem optimizeChecked_cases (h : t.OverTables) (check : StatementCheck) (s : Schema)
    (o : OptimizerSettings) :
    (∃ v, s.viewFor? t.query = some v ∧ t.OverView v (t.optimizeChecked check s o)) ∨
      ∃ added hints, added.length ≤ 1 ∧
        (∀ w ∈ added, ∃ v reason, s.viewFor? t.query = some v ∧
          w = .viewSkipped v.name (.unread reason)) ∧
        t.optimizeChecked check s o =
          { t with warnings := t.warnings ++ added, indexHints := hints } := by
  have hhints : ∃ added hints, added.length ≤ 1 ∧
      (∀ w ∈ added, ∃ v reason, s.viewFor? t.query = some v ∧
        w = .viewSkipped v.name (.unread reason)) ∧
      t.withHints s o = { t with warnings := t.warnings ++ added, indexHints := hints } := by
    obtain ⟨hints, heq⟩ := t.withHints_eq s o
    exact ⟨[], hints, Nat.zero_le 1, List.forall_mem_nil _, by rw [heq, List.append_nil]⟩
  rw [optimizeChecked_eq]
  cases o.enabled with
  | false => exact .inr ⟨[], t.indexHints, Nat.zero_le 1, List.forall_mem_nil _, by simp⟩
  | true =>
    cases o.materializedViews with
    | false => exact .inr hhints
    | true =>
      simp only [if_true]
      obtain ⟨-, heq⟩ | ⟨v, hv, hover⟩ | ⟨v, reason, hv, heq⟩ := withViewChecked_cases h check s
      · rw [heq]
        exact .inr hhints
      · have hused : (t.withViewChecked check s).usedView = some v.name := by rw [hover.rest]
        rw [withHints_of_usedView hused]
        exact .inl ⟨v, hv, hover⟩
      · obtain ⟨hints, hhints⟩ := withHints_eq (t.withViewChecked check s) s o
        refine .inr ⟨[.viewSkipped v.name (.unread reason)], hints, le_rfl, ?_, ?_⟩
        · exact List.forall_mem_singleton.mpr ⟨v, reason, hv, rfl⟩
        · rw [hhints, heq]

/-- A second improvement changes nothing if the first one did not warn. -/
theorem optimizeChecked_twice (h : t.OverTables)
    (hwarnings : (t.optimizeChecked check s o).warnings = t.warnings) :
    (t.optimizeChecked check s o).optimizeChecked check s o = t.optimizeChecked check s o := by
  cases henabled : o.enabled with
  | false => simp [optimizeChecked_eq, henabled]
  | true =>
    cases hviews : o.materializedViews with
    | false => simp [optimizeChecked_eq, henabled, hviews, withHints_withHints]
    | true =>
      have heq : ∀ x : Translation,
          x.optimizeChecked check s o = (x.withViewChecked check s).withHints s o := by
        intro x
        simp only [optimizeChecked_eq, henabled, hviews, if_true]
      obtain ⟨hnone, hsame⟩ | ⟨v, hv, hover⟩ | ⟨v, reason, hv, hskipped⟩ :=
        withViewChecked_cases h check s
      · rw [heq t, hsame, heq, withViewChecked_withHints hnone, withHints_withHints]
      · have hused : (t.withViewChecked check s).usedView = some v.name := by rw [hover.rest]
        rw [heq t, withHints_of_usedView hused]
        exact optimizeChecked_overView (Schema.mem_views_of_viewFor? hv) hover
      · -- the first improvement did warn
        obtain ⟨hints, hhints⟩ := withHints_eq (t.withViewChecked check s) s o
        rw [heq t, hhints, hskipped] at hwarnings
        simp at hwarnings

/-- Improving a translation is all or nothing, whatever a check of statements says. Either it names
a view, and then its query and all comparisons are what they were, over that view in place of the
tables; or it is what it was, with index hints and at most one warning, which says that a statement
over a view cannot be read. All queries can be put over a view that is found, and without a warning
a second improvement changes nothing. -/
theorem optimizeChecked_allOrNothing {r : Report} {s : Schema} {settings : TranslationSettings}
    {t : Translation} {ws : List TranslationWarning}
    (ht : r.translate s settings = .ok { t with warnings := ws }) (check : StatementCheck)
    (s' : Schema) (o : OptimizerSettings) :
    ((∃ v, s'.viewFor? t.query = some v ∧ t.OverView v (t.optimizeChecked check s' o)) ∨
      ((t.optimizeChecked check s' o).usedView = none ∧ ∃ added hints, added.length ≤ 1 ∧
        (∀ w ∈ added, ∃ v reason, s'.viewFor? t.query = some v ∧
          w = .viewSkipped v.name (.unread reason)) ∧
        t.optimizeChecked check s' o =
          { t with warnings := t.warnings ++ added, indexHints := hints })) ∧
      (∀ v, s'.viewFor? t.query = some v → ∃ moved, t.onView v = .ok moved) ∧
      ((t.optimizeChecked check s' o).warnings = t.warnings →
        (t.optimizeChecked check s' o).optimizeChecked check s' o =
          t.optimizeChecked check s' o) := by
  have htables := translate_overTables ht
  refine ⟨?_, fun v hv => ?_, optimizeChecked_twice htables⟩
  · refine (optimizeChecked_cases htables check s' o).imp_right fun hkept => ⟨?_, hkept⟩
    obtain ⟨added, hints, -, -, heq⟩ := hkept
    rw [heq]
    exact htables.usedView
  · obtain ⟨-, moved, -, hmoved, -⟩ := exists_overView htables (Schema.serves_of_viewFor? hv)
    exact ⟨moved, hmoved⟩

end Translation

namespace Sales

/-- The sums of the days are read from the view, and improving them again changes nothing. -/
theorem optimizeChecked_allOrNothing_daily : ∃ t, (report .sum).translate schema {} = .ok t ∧
    t.OverView view (t.optimizeChecked (fun _ _ => none) schema {}) ∧
      (t.optimizeChecked (fun _ _ => none) schema {}).optimizeChecked (fun _ _ => none) schema {} =
        t.optimizeChecked (fun _ _ => none) schema {} := by
  have hviews : ((report .sum).translate schema {}).map (fun t =>
      (schema.viewFor? t.query, (t.optimizeChecked (fun _ _ => none) schema {}).usedView)) =
        .ok (some view, some view.name) := by decide +kernel
  obtain ⟨t, ht, hboth⟩ := map_eq_ok hviews
  obtain ⟨hview, hused⟩ := Prod.mk.inj hboth
  have ht' : (report .sum).translate schema {} = .ok { t with warnings := t.warnings } := ht
  obtain ⟨hcases, -, htwice⟩ :=
    Translation.optimizeChecked_allOrNothing ht' (fun _ _ => none) schema {}
  obtain ⟨v, hv, hover⟩ | ⟨hnone, -⟩ := hcases
  · obtain rfl : view = v := Option.some.inj (hview.symm.trans hv)
    exact ⟨t, ht, hover, htwice (by rw [hover.rest])⟩
  · rw [hused] at hnone
    cases hnone

end Sales

end MetricLayer
