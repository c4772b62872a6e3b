import MetricLayer.Proofs.Sql.Database
import MetricLayer.Proofs.Sql.Regrouping
import MetricLayer.Proofs.Sql.Renaming
import MetricLayer.Proofs.Translation.QueryShape
import MetricLayer.Translation.View

/-!
# What views store

A view is defined over the inner join of its source tables along the declared relationships. Without
grouping fields it has one row for each row of the join. With them it has one row for each group, and
a column that is not grouped by shows the sum over the group.

Such a row can stand for its group in a query if the query joins the same tables along the same
columns, and takes sums of the columns that the view has summed up and nothing but least and greatest
values of those that it is grouped by. Then the query has the same answers over the view.

Results:
1. `View.Suits.condenses`: the rows of the view stand for the groups as far as the query is concerned.
2. `Query.onView_answers`: the answers of a query over a view.
-/

namespace MetricLayer

variable {α : Type} [LinearOrder α]

/-! ## Groups of rows -/

theorem groups_flatten_perm {key : Env α → List (Value α)} {ks : List (List (Value α))}
    (hks : ks.Nodup) {rows : List (Env α)} (hrows : ∀ row ∈ rows, key row ∈ ks) :
    (ks.map fun k => rows.filter (key · = k)).flatten.Perm rows := by
  induction ks generalizing rows with
  | nil =>
    cases rows with
    | nil => exact List.Perm.refl _
    | cons row rows => exact absurd (hrows row List.mem_cons_self) (List.not_mem_nil)
  | cons k ks ih =>
    obtain ⟨hk, hks⟩ := List.nodup_cons.mp hks
    have hmem : ∀ row ∈ rows.filter fun row => !decide (key row = k), key row ∈ ks := by
      intro row hrow
      obtain ⟨hrow, hne⟩ := List.mem_filter.mp hrow
      exact (List.mem_cons.mp (hrows row hrow)).resolve_left (by simpa using hne)
    have hothers := ih hks hmem
    have hsame : (ks.map fun k' => (rows.filter fun row => !decide (key row = k)).filter
        (key · = k')) = ks.map fun k' => rows.filter (key · = k') := by
      refine List.map_congr_left fun k' hk' => ?_
      rw [List.filter_filter]
      refine List.filter_congr fun row _ => ?_
      by_cases heq : key row = k'
      · have hne : k' ≠ k := fun heq' => hk (heq' ▸ hk')
        simp [heq, hne]
      · simp [heq]
    rw [hsame] at hothers
    rw [List.map_cons, List.flatten_cons]
    exact (hothers.append_left _).trans (List.filter_append_perm _ rows)

theorem groupRows_flatten_perm (key : Env α → List (Value α)) (rows : List (Env α)) :
    (groupRows key rows).flatten.Perm rows :=
  groups_flatten_perm (List.nodup_dedup _) fun _ hrow =>
    List.mem_dedup.mpr (List.mem_map_of_mem hrow)

theorem ne_nil_of_mem_groupRows {key : Env α → List (Value α)} {rows group : List (Env α)}
    (h : group ∈ groupRows key rows) : group ≠ [] := by
  obtain ⟨k, hk, rfl⟩ := List.mem_map.mp h
  obtain ⟨row, hrow, rfl⟩ := List.mem_map.mp (List.mem_dedup.mp hk)
  exact List.ne_nil_of_mem (List.mem_filter.mpr ⟨hrow, by simp⟩)

theorem key_eq_of_mem_groupRows {key : Env α → List (Value α)} {rows group : List (Env α)}
    (h : group ∈ groupRows key rows) {row row' : Env α} (hrow : row ∈ group) (hrow' : row' ∈ group) :
    key row = key row' := by
  obtain ⟨k, -, rfl⟩ := List.mem_map.mp h
  exact (of_decide_eq_true (List.mem_filter.mp hrow).2).trans
    (of_decide_eq_true (List.mem_filter.mp hrow').2).symm

theorem groupRows_replicate (key : Env α → List (Value α)) (n : ℕ) (row : Env α) :
    groupRows key (List.replicate (n + 1) row) = [List.replicate (n + 1) row] := by
  rw [groupRows, List.map_replicate, List.replicate_dedup (Nat.succ_ne_zero n), List.map_singleton,
    List.filter_eq_self.mpr]
  intro row' hrow'
  rw [List.eq_of_mem_replicate hrow']
  exact decide_eq_true rfl

namespace View

/-! ## The rows of a view -/

/-- The source tables as a database knows them, each once. -/
def tableKeys (v : View) (s : Schema) : List String :=
  ((v.sourceTables.filterMap s.table?).map fun t => Text.lowerAscii t.name).dedup

/-- The columns that a relationship between two tables of the view joins. A relationship of a table
with itself joins nothing to it. -/
def link? (v : View) (s : Schema) (r : Relationship) : Option (Field × Field) := do
  let t ← s.table? r.fromTable
  let u ← s.table? r.toTable
  if Text.lowerAscii t.name ∈ v.tableKeys s ∧ Text.lowerAscii u.name ∈ v.tableKeys s ∧
      Text.lowerAscii t.name ≠ Text.lowerAscii u.name then
    some (⟨t.name, r.fromColumn⟩, ⟨u.name, r.toColumn⟩)
  else none

/-- The columns along which the tables of the view are joined. -/
def links (v : View) (s : Schema) : List (Field × Field) := s.relationships.filterMap (v.link? s)

/-- The joined rows of the source tables. -/
def joinedRows (v : View) (s : Schema) (db : Database α) : List (Env α) :=
  db.join (v.tableKeys s) (v.links s)

/-- The values of a row that the view is grouped by. -/
def key (v : View) (row : Env α) : List (Value α) := v.groupBy.map row

/-- The groups of rows that the rows of the view stand for. -/
def parts (v : View) (rows : List (Env α)) : List (List (Env α)) :=
  if v.isAggregated then groupRows v.key rows else rows.map ([·])

/-- What the view shows of a field for a group of rows: its sum, unless the view is grouped by it. -/
def shown (v : View) (f : Field) (part : List (Env α)) : Value α :=
  if v.isAggregated && !v.groupsBy f then Aggregation.sum.combine (part.map (· f))
  else part.head?.bind (· f)

/-- The columns of the row show the group. -/
def Stores (v : View) (row : String → Value α) (part : List (Env α)) : Prop :=
  ∀ c ∈ v.columns, ∀ f, c.source = some f → row (Text.lowerAscii c.name) = v.shown f part

/-- The view holds what it declares. -/
def HoldsIn (v : View) (s : Schema) (db : Database α) : Prop :=
  ∃ parts, parts.Perm (v.parts (v.joinedRows s db)) ∧
    List.Forall₂ v.Stores (db (Text.lowerAscii v.name)) parts

/-! ## Queries that the view suits -/

/-- The query joins the tables of the view along the same columns. -/
structure Matches (v : View) (s : Schema) (q : Query) : Prop where
  tables : (q.tables.map Text.lowerAscii).Perm (v.tableKeys s)
  links : SameLinks q.joinPairs (v.links s)

/-- The view has what the query asks for: the rows of the same join and, if they are grouped, sums of
the columns that the query takes sums of and no sums of others. -/
structure Suits (v : View) (s : Schema) (q : Query) : Prop extends v.Matches s q where
  measures : v.isAggregated = true → ∀ a c, (a, .field c) ∈ q.measures →
    (a = .sum ↔ v.groupsBy c = false)
  grouping : v.isAggregated = true → q.isGrouping = true

theorem tableKeys_map_lowerAscii (v : View) (s : Schema) :
    (v.tableKeys s).map Text.lowerAscii = v.tableKeys s := by
  refine (List.map_congr_left fun t ht => ?_).trans (List.map_id _)
  obtain ⟨t', -, rfl⟩ := List.mem_map.mp (List.mem_dedup.mp ht)
  exact lowerAscii_lowerAscii _

theorem Matches.sourceRows_perm {v : View} {s : Schema} {q : Query} (h : v.Matches s q)
    (db : Database α) : (q.sourceRows db).Perm (v.joinedRows s db) := by
  refine Database.join_perm ((v.tableKeys_map_lowerAscii s).symm ▸ h.tables) ?_ h.links
  exact h.tables.nodup_iff.mpr (List.nodup_dedup _)

theorem groupsBy_congr {v : View} {f g : Field} (h : f.lowered = g.lowered) :
    v.groupsBy f = v.groupsBy g := by
  refine congrArg v.groupBy.any (funext fun x => ?_)
  rw [Bool.eq_iff_iff, Field.sameIgnoringAsciiCase_iff, Field.sameIgnoringAsciiCase_iff, h]

theorem shown_congr {v : View} {f g : Field} (h : f.lowered = g.lowered) {part : List (Env α)}
    (hpart : ∀ row ∈ part, row.Lowered) : v.shown f part = v.shown g part := by
  have hvalues : part.map (· f) = part.map (· g) :=
    List.map_congr_left fun row hrow => (hpart row hrow).eq h
  have hhead : part.head?.bind (· f) = part.head?.bind (· g) := by
    cases part with
    | nil => rfl
    | cons row rows => exact (hpart row List.mem_cons_self).eq h
  rw [shown, shown, groupsBy_congr h, hvalues, hhead]

theorem parts_flatten_perm (v : View) (rows : List (Env α)) : (v.parts rows).flatten.Perm rows := by
  unfold parts
  split
  · exact groupRows_flatten_perm v.key rows
  · rw [← List.flatMap_def, List.flatMap_singleton']

theorem parts_nil (v : View) : v.parts ([] : List (Env α)) = [] := by
  unfold parts
  split <;> rfl

theorem ne_nil_of_mem_parts {v : View} {rows part : List (Env α)} (h : part ∈ v.parts rows) :
    part ≠ [] := by
  unfold parts at h
  split at h
  · exact ne_nil_of_mem_groupRows h
  · obtain ⟨row, -, rfl⟩ := List.mem_map.mp h
    exact List.cons_ne_nil _ _

theorem mem_of_mem_parts {v : View} {rows part : List (Env α)} (h : part ∈ v.parts rows)
    {row : Env α} (hrow : row ∈ part) : row ∈ rows :=
  (v.parts_flatten_perm rows).subset (List.mem_flatten.mpr ⟨part, h, hrow⟩)

/-- The rows of a group agree on what the view is grouped by. -/
theorem eq_of_mem_parts {v : View} {rows part : List (Env α)} (hrows : ∀ row ∈ rows, row.Lowered)
    (h : part ∈ v.parts rows) {f : Field} (hf : v.isAggregated = true → v.groupsBy f = true)
    {row row' : Env α} (hrow : row ∈ part) (hrow' : row' ∈ part) : row f = row' f := by
  have hlowered := hrows row (mem_of_mem_parts h hrow)
  have hlowered' := hrows row' (mem_of_mem_parts h hrow')
  unfold parts at h
  split at h
  · next haggregated =>
    obtain ⟨g, hg, hsame⟩ := List.any_eq_true.mp (hf haggregated)
    have hkey := List.map_inj_left.mp (key_eq_of_mem_groupRows h hrow hrow') g hg
    have hfield := (Field.sameIgnoringAsciiCase_iff.mp hsame).symm
    rw [hlowered.eq hfield, hlowered'.eq hfield, hkey]
  · obtain ⟨x, -, rfl⟩ := List.mem_map.mp h
    rw [List.mem_singleton.mp hrow, List.mem_singleton.mp hrow']

/-- A column that is not summed up shows the value of every row. -/
theorem shown_eq {v : View} {rows part : List (Env α)} (hrows : ∀ row ∈ rows, row.Lowered)
    (h : part ∈ v.parts rows) {f : Field} (hf : v.isAggregated = true → v.groupsBy f = true)
    {row : Env α} (hrow : row ∈ part) : v.shown f part = row f := by
  obtain ⟨first, rest, rfl⟩ := List.exists_cons_of_ne_nil (ne_nil_of_mem_parts h)
  have hplain : ¬ (v.isAggregated && !v.groupsBy f) = true := by
    rw [Bool.and_eq_true, Bool.not_eq_true']
    exact fun hsum => by simp [hf hsum.1] at hsum
  rw [shown, if_neg hplain]
  exact eq_of_mem_parts hrows h hf List.mem_cons_self hrow

/-! ## Aggregates over the rows of a view -/

variable {v : View} {rows : List (Env α)} {ps : List (List (Env α))} {c : Field}

/-- Sums over the sums of a view. -/
theorem combine_summed (haggregated : v.isAggregated = true) (hc : v.groupsBy c = false)
    (ps : List (List (Env α))) : Aggregation.sum.combine (ps.map (v.shown c)) =
      Aggregation.sum.combine (ps.flatten.map (· c)) := by
  have hshown : v.shown c = fun p : List (Env α) => Aggregation.sum.combine (p.map (· c)) := by
    funext p
    rw [shown, haggregated, hc]
    rfl
  have hparts := Aggregation.combine_parts (ps.map fun p => p.map (· c))
  rw [List.map_map] at hparts
  rw [List.map_flatten, ← hparts, hshown]
  rfl

/-- The least and the greatest of what a view is grouped by. -/
theorem combine_grouped {a : Aggregation} (ha : a = .min ∨ a = .max)
    (hrows : ∀ row ∈ rows, row.Lowered) (hc : v.isAggregated = true → v.groupsBy c = true)
    (hps : ps ⊆ v.parts rows) :
    a.combine (ps.map (v.shown c)) = a.combine (ps.flatten.map (· c)) := by
  refine Aggregation.combine_same ha fun x => ?_
  simp only [List.mem_map, List.mem_flatten]
  constructor
  · rintro ⟨p, hp, rfl⟩
    obtain ⟨row, hrow⟩ := List.exists_mem_of_ne_nil p (ne_nil_of_mem_parts (hps hp))
    exact ⟨row, ⟨p, hp, hrow⟩, (shown_eq hrows (hps hp) hc hrow).symm⟩
  · rintro ⟨row, ⟨p, hp, hrow⟩, rfl⟩
    exact ⟨p, hp, shown_eq hrows (hps hp) hc hrow⟩

/-- Aggregates over the rows of a view without groups. -/
theorem combine_plain (a : Aggregation) (haggregated : v.isAggregated = false)
    (hps : ps ⊆ v.parts rows) :
    a.combine (ps.map (v.shown c)) = a.combine (ps.flatten.map (· c)) := by
  have hsingle : ∀ p ∈ ps, p.map (· c) = [v.shown c p] := by
    intro p hp
    have hmem := hps hp
    rw [parts, haggregated] at hmem
    obtain ⟨row, -, rfl⟩ := List.mem_map.mp hmem
    rw [shown, haggregated]
    rfl
  rw [List.map_flatten, List.map_congr_left hsingle, ← List.flatMap_def, List.map_eq_flatMap]

namespace Suits

variable {fns : Functions α} {s : Schema} {q : Query}

/-- What is grouped on the side of the query is grouped by the view. -/
theorem groupsBy_of_serves (hserves : v.serves q = true) {f : Field}
    (hf : f ∈ q.filterFields ++ q.groupFields) : v.isAggregated = true → v.groupsBy f = true := by
  intro haggregated
  simp only [serves, haggregated, Bool.not_true, Bool.false_or, Bool.and_eq_true, coversGroups,
    List.all_eq_true] at hserves
  exact hserves.2.2 f (List.mem_append.mpr (List.mem_append.mp hf).symm)

theorem reaggregable_of_serves (hserves : v.serves q = true) (haggregated : v.isAggregated = true)
    {m : Aggregation × Expr} (hm : m ∈ q.measures) : m.1.isReaggregable = true := by
  simp only [serves, haggregated, Bool.not_true, Bool.false_or, Bool.and_eq_true, coversGroups,
    List.all_eq_true] at hserves
  obtain ⟨e, he, hm⟩ := List.mem_flatMap.mp hm
  exact hserves.2.1 _ (List.mem_flatMap.mpr ⟨e, he, e.measures_subset (List.mem_map_of_mem hm)⟩)

/-- The aggregate over the rows of the view is that over all rows. -/
theorem combine_shown (h : v.Suits s q) (hserves : v.serves q = true)
    (hrows : ∀ row ∈ rows, row.Lowered) {a : Aggregation} (hm : (a, .field c) ∈ q.measures)
    (hps : ps ⊆ v.parts rows) : a.combine (ps.map (v.shown c)) = a.combine (ps.flatten.map (· c)) := by
  cases haggregated : v.isAggregated with
  | false => exact combine_plain a haggregated hps
  | true =>
    have hreaggregable := reaggregable_of_serves hserves haggregated hm
    have hsum := h.measures haggregated a c hm
    cases hc : v.groupsBy c with
    | false =>
      obtain rfl := hsum.mpr hc
      exact combine_summed haggregated hc ps
    | true =>
      refine combine_grouped ?_ hrows (fun _ => hc) hps
      cases a <;> simp_all [Aggregation.isReaggregable]

/-- The rows of the view stand for the groups as far as the query is concerned. -/
theorem condenses (h : v.Suits s q) (hserves : v.serves q = true)
    (hfields : ∀ m ∈ q.measures, ∃ c, m.2 = .field c) (hrows : ∀ row ∈ rows, row.Lowered) :
    q.Condenses fns (v.parts rows) fun p f => v.shown f p where
  nonempty p hp := ne_nil_of_mem_parts hp
  fields f hf p hp row hrow := shown_eq hrows hp (groupsBy_of_serves hserves hf) hrow
  measures := by
    rintro ⟨a, e⟩ hm ps hps
    obtain ⟨c, rfl⟩ := hfields _ hm
    exact h.combine_shown hserves hrows hm hps
  grouping := by
    by_cases haggregated : v.isAggregated = true
    · exact .inl (h.grouping haggregated)
    · refine .inr fun p hp => ?_
      rw [parts, if_neg haggregated] at hp
      obtain ⟨row, -, rfl⟩ := List.mem_map.mp hp
      rfl

end Suits

end View

/-! ## Answers from views -/

variable {fns : Functions α}

namespace View

variable {v : View} {q : Query}

/-- The field of the view that shows the field, where there is one. -/
def fieldFor (v : View) (f : Field) : Field := (v.fieldFor? f).getD f

/-- A view that serves a query has a column for every field of it. -/
theorem exists_columnFor? (h : v.serves q = true) {f : Field} (hf : f ∈ q.referencedFields) :
    ∃ c, v.columnFor? f = some c ∧ v.fieldFor f = ⟨v.name, c.name⟩ := by
  simp only [serves, Bool.and_eq_true, coversFields, List.all_eq_true] at h
  obtain ⟨c, hc⟩ := Option.isSome_iff_exists.mp (h.1.2 f hf)
  exact ⟨c, hc, by rw [fieldFor, fieldFor?, hc, Option.map_some, Option.getD_some]⟩

theorem fieldFor?_of_serves (h : v.serves q = true) {e : Expr} (he : e ∈ q.exprs) {f : Field}
    (hf : f ∈ e.fields) : v.fieldFor? f = some (v.fieldFor f) := by
  obtain ⟨c, hc, hfield⟩ :=
    exists_columnFor? h (List.mem_eraseDups.mpr (List.mem_flatMap.mpr ⟨e, he, hf⟩))
  rw [fieldFor?, hc, hfield, Option.map_some]

/-- A stored row shows the field under its name in the view. -/
theorem Stores.fieldFor (hserves : v.serves q = true) {row : String → Value α} {part : List (Env α)}
    (h : v.Stores row part) (hpart : ∀ row ∈ part, row.Lowered) {e : Expr} (he : e ∈ q.exprs)
    {f : Field} (hf : f ∈ e.fields) :
    Env.extend v.name (fun _ => none) row (v.fieldFor f) = v.shown f part := by
  obtain ⟨c, hc, hfield⟩ := Option.map_eq_some_iff.mp (fieldFor?_of_serves hserves he hf)
  unfold columnFor? at hc
  have hsource := List.find?_some hc
  obtain ⟨g, hg, hsame⟩ := (Option.any_eq_true _ _).mp hsource
  rw [← hfield, ← shown_congr (Field.sameIgnoringAsciiCase_iff.mp hsame) hpart,
    ← h c (List.mem_of_find?_eq_some hc) g hg]
  exact if_pos rfl

end View

namespace Query

variable {v : View} {s : Schema} {q : Query} {db : Database α}

/-- The query over the view, where there is one. -/
def moved (q : Query) (v : View) : Query :=
  ({ q with source := v.tableRef, joins := [] } : Query).mapFields v.fieldFor

/-- A query that a view serves can be moved to it. -/
theorem onView_eq (h : v.serves q = true) : q.onView v = .ok (q.moved v) := by
  have hrewrite : ({ q with source := v.tableRef, joins := [] } : Query).rewrite v.fieldFor? =
      (q.moved v, none) :=
    rewrite_eq rfl fun e he f hf => View.fieldFor?_of_serves h he hf
  rw [onView, hrewrite]

/-- The rows of a view show the groups that they stand for. -/
theorem results_moved (hserves : v.serves q = true) {parts : List (List (Env α))}
    (hparts : ∀ p ∈ parts, ∀ row ∈ p, row.Lowered)
    (h : List.Forall₂ v.Stores (db (Text.lowerAscii v.name)) parts) :
    (q.moved v).results fns ((q.moved v).sourceRows db) =
      q.results fns (parts.map fun p f => v.shown f p) := by
  have hrows : (q.moved v).sourceRows db =
      (db (Text.lowerAscii v.name)).map (Env.extend v.name fun _ => none) := by
    have hproduct : db.product [v.name] =
        (db (Text.lowerAscii v.name)).map (Env.extend v.name fun _ => none) :=
      List.flatMap_singleton _ _
    exact (List.filter_eq_self.mpr fun _ _ => rfl).trans hproduct
  have hrenamed : ∀ rows : List (Env α), (q.moved v).results fns rows =
      ({ q with source := v.tableRef, joins := [] } : Query).results fns
        (rows.map fun row f => row (v.fieldFor f)) :=
    fun _ => results_mapFields fun _ _ _ _ _ _ => rfl
  rw [hrows, hrenamed, List.map_map]
  refine results_congr ?_
  generalize db (Text.lowerAscii v.name) = stored at h
  induction h with
  | nil => exact .nil
  | cons hrow _ ih =>
    refine .cons (fun e he f hf => ?_) (ih fun p hp => hparts p (List.mem_cons_of_mem _ hp))
    exact hrow.fieldFor hserves (hparts _ List.mem_cons_self) he hf

/-- A query that a view serves and suits has the same answers over the view. -/
theorem onView_answers (hq : q.IsReport) (hfields : ∀ m ∈ q.measures, ∃ c, m.2 = .field c)
    (hserves : v.serves q = true) (hsuits : v.Suits s q) (hholds : v.HoldsIn s db)
    (answer : List (List (Value α))) :
    (q.moved v).AnswersOn fns db answer ↔ q.AnswersOn fns db answer := by
  obtain ⟨parts, hparts, hstores⟩ := hholds
  have hlowered : ∀ row ∈ v.joinedRows s db, row.Lowered := fun _ hrow => Database.join_lowered hrow
  have hcondenses : q.Condenses fns (v.parts (v.joinedRows s db)) fun p f => v.shown f p :=
    hsuits.condenses hserves hfields hlowered
  have hparts' : ∀ p ∈ parts, ∀ row ∈ p, row.Lowered := fun p hp row hrow =>
    hlowered row (View.mem_of_mem_parts (hparts.mem_iff.mp hp) hrow)
  have horder : (q.moved v).orderBy.map (·.descending) = q.orderBy.map (·.descending) := by
    simp only [moved, mapFields, List.map_map, Function.comp_def]
  refine answers_of_perm horder rfl ?_ answer
  rw [results_moved hserves hparts' hstores]
  refine (results_perm hq (hparts.map fun p f => v.shown f p)).trans ?_
  refine hcondenses.results_perm hq ?_
  exact (hsuits.sourceRows_perm db).trans (v.parts_flatten_perm _).symm

end Query

end MetricLayer
