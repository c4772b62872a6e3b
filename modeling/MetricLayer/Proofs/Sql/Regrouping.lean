import MetricLayer.Proofs.Sql.Answers

/-!
# Rows that stand for several rows

When rows are put together in parts and each part is replaced by one row, a query still has the same
results if the parts are fine enough: the fields of conditions and groupings have one value in a
part, and the aggregates come out the same.

Results:
1. `Query.Condenses.results_perm`: the results over the rows that replace the parts.
2. `Query.results_perm`: the order of the rows does not matter.
-/

namespace MetricLayer

variable {α : Type} [LinearOrder α] {fns : Functions α}

/-! ## The parts of expressions -/

mutual

theorem Expr.outerFields_subset : ∀ e : Expr, e.outerFields ⊆ e.fields
  | .field _ => List.Subset.refl _
  | .value _ | .number _ | .aggregate _ _ => List.nil_subset _
  | .binary a _ b => append_subset_append a.outerFields_subset b.outerFields_subset
  | .not e | .isNull e _ | .datePart _ e | .nullIfZero e | .nested e => e.outerFields_subset
  | .between e low high => append_subset_append
      (append_subset_append e.outerFields_subset low.outerFields_subset)
      high.outerFields_subset
  | .inList e items _ =>
    append_subset_append e.outerFields_subset (outerFieldsOfList_subset items)
  | .like e p => append_subset_append e.outerFields_subset p.outerFields_subset

theorem Expr.outerFieldsOfList_subset : ∀ es : List Expr,
    Expr.outerFieldsOfList es ⊆ Expr.fieldsOfList es
  | [] => List.nil_subset _
  | e :: es => append_subset_append e.outerFields_subset (outerFieldsOfList_subset es)

end

mutual

theorem Expr.measures_subset : ∀ e : Expr, e.measures.map (·.1) ⊆ e.aggregations
  | .field _ | .value _ | .number _ => List.nil_subset _
  | .aggregate a e => by simp [Expr.measures, Expr.aggregations]
  | .binary a _ b => by
    simpa [Expr.measures, Expr.aggregations] using
      append_subset_append a.measures_subset b.measures_subset
  | .not e | .isNull e _ | .datePart _ e | .nullIfZero e | .nested e => e.measures_subset
  | .between e low high => by
    simpa [Expr.measures, Expr.aggregations] using append_subset_append
      (append_subset_append e.measures_subset low.measures_subset) high.measures_subset
  | .inList e items _ => by
    simpa [Expr.measures, Expr.aggregations] using append_subset_append e.measures_subset
      (measuresOfList_subset items)
  | .like e p => by
    simpa [Expr.measures, Expr.aggregations] using
      append_subset_append e.measures_subset p.measures_subset

theorem Expr.measuresOfList_subset : ∀ es : List Expr,
    (Expr.measuresOfList es).map (·.1) ⊆ Expr.aggregationsOfList es
  | [] => List.nil_subset _
  | e :: es => by
    simpa [Expr.measuresOfList, Expr.aggregationsOfList] using append_subset_append e.measures_subset
      (measuresOfList_subset es)

end

namespace Query

/-- The expressions stand as in the query of a report: conditions on rows and groupings have no
aggregates, conditions on groups have no fields outside of them, and what is selected or ordered by
is grouped by or has none either. -/
structure IsReport (q : Query) : Prop where
  filters : ∀ e ∈ q.filters, e.measures = []
  groupBy : ∀ e ∈ q.groupBy, e.measures = []
  select : ∀ s ∈ q.select, s.expr ∈ q.groupBy ∨ s.expr.outerFields = []
  having : ∀ e ∈ q.having, e.outerFields = []
  orderBy : ∀ o ∈ q.orderBy, o.expr ∈ q.groupBy ∨ o.expr.outerFields = []

theorem measures_of_mem {q : Query} {e : Expr} (h : e ∈ q.exprs) : e.measures ⊆ q.measures :=
  fun _ hm => List.mem_flatMap.mpr ⟨e, h, hm⟩

theorem measures_eq_nil {q : Query} (h : q.aggregations = []) : q.measures = [] := by
  rw [List.eq_nil_iff_forall_not_mem]
  intro m hm
  obtain ⟨e, he, hm⟩ := List.mem_flatMap.mp hm
  have hmem : m.1 ∈ q.aggregations :=
    List.mem_flatMap.mpr ⟨e, he, e.measures_subset (List.mem_map_of_mem hm)⟩
  rw [h] at hmem
  cases hmem

/-! ## Results of groups -/

/-- Two groups have the same result if they agree on the grouping and on the aggregates. -/
theorem result?_congr {q : Query} (hq : q.IsReport) {g g' : List (Env α)}
    (hkey : ∀ e ∈ q.groupBy, e.eval fns g = e.eval fns g')
    (hmeasures : ∀ m ∈ q.measures, m.1.combine (g.map fun row => m.2.eval fns [row]) =
      m.1.combine (g'.map fun row => m.2.eval fns [row])) :
    q.result? fns g = q.result? fns g' := by
  have hclosed : ∀ e ∈ q.exprs, e.outerFields = [] → e.eval fns g = e.eval fns g' := by
    intro e he hfields
    refine e.eval_congr ⟨?_, fun m hm => hmeasures m (measures_of_mem he hm)⟩
    rw [hfields]
    nofun
  have hhaving : (q.having.all fun e => fns.holds (e.eval fns g)) =
      q.having.all fun e => fns.holds (e.eval fns g') := by
    refine all_congr fun e he => ?_
    rw [hclosed e (by simp [exprs, he]) (hq.having e he)]
  have horder : q.orderBy.map (·.expr.eval fns g) = q.orderBy.map (·.expr.eval fns g') := by
    refine List.map_congr_left fun o ho => ?_
    rcases hq.orderBy o ho with h | h
    · exact hkey _ h
    · refine hclosed _ ?_ h
      simp only [exprs, List.mem_append, List.mem_map]
      exact .inr ⟨o, ho, rfl⟩
  have hselect : q.select.map (·.expr.eval fns g) = q.select.map (·.expr.eval fns g') := by
    refine List.map_congr_left fun s hs => ?_
    rcases hq.select s hs with h | h
    · exact hkey _ h
    · refine hclosed _ ?_ h
      simp only [exprs, List.mem_append, List.mem_map]
      exact .inl (.inl (.inl (.inl ⟨s, hs, rfl⟩)))
  rw [result?, result?, hhaving, horder, hselect]

/-- What is grouped by has one value in two groups whose rows all have one key. -/
theorem eval_groupBy {q : Query} (hq : q.IsReport) {g g' : List (Env α)} {k : List (Value α)}
    (hg : g ≠ []) (hg' : g' ≠ []) (hkey : ∀ row ∈ g, q.key fns row = k)
    (hkey' : ∀ row ∈ g', q.key fns row = k) {e : Expr} (he : e ∈ q.groupBy) :
    e.eval fns g = e.eval fns g' := by
  have hfirst : ∀ (row : Env α) rows, e.eval fns (row :: rows) = e.eval fns [row] := by
    intro row rows
    refine e.eval_congr ⟨fun f _ => rfl, ?_⟩
    rw [hq.groupBy e he]
    nofun
  obtain ⟨row, rows, rfl⟩ := List.exists_cons_of_ne_nil hg
  obtain ⟨row', rows', rfl⟩ := List.exists_cons_of_ne_nil hg'
  rw [hfirst row, hfirst row']
  have hsame : q.key fns row = q.key fns row' :=
    (hkey row List.mem_cons_self).trans (hkey' row' List.mem_cons_self).symm
  exact List.map_inj_left.mp hsame e he

/-! ## Parts -/

/-- One row can stand for each part as far as the query is concerned. -/
structure Condenses (fns : Functions α) (q : Query) (parts : List (List (Env α)))
    (image : List (Env α) → Env α) : Prop where
  nonempty : ∀ p ∈ parts, p ≠ []
  fields : ∀ f ∈ q.filterFields ++ q.groupFields, ∀ p ∈ parts, ∀ row ∈ p, image p f = row f
  measures : ∀ m ∈ q.measures, ∀ ps, ps ⊆ parts →
    m.1.combine (ps.map fun p => m.2.eval fns [image p]) =
      m.1.combine (ps.flatten.map fun row => m.2.eval fns [row])
  grouping : q.isGrouping = true ∨ ∀ p ∈ parts, p.length = 1

namespace Condenses

variable {q : Query} {parts : List (List (Env α))} {image : List (Env α) → Env α}

theorem mono (h : Condenses fns q parts image) {ps : List (List (Env α))} (hps : ps ⊆ parts) :
    Condenses fns q ps image where
  nonempty p hp := h.nonempty p (hps hp)
  fields f hf p hp := h.fields f hf p (hps hp)
  measures m hm ps' hps' := h.measures m hm ps' (List.Subset.trans hps' hps)
  grouping := h.grouping.imp_right fun hone p hp => hone p (hps hp)

/-- Expressions without aggregates over fields that have one value in a part. -/
theorem eval_image (h : Condenses fns q parts image) {e : Expr} (hmeasures : e.measures = [])
    (hfields : e.fields ⊆ q.filterFields ++ q.groupFields) {p : List (Env α)} (hp : p ∈ parts)
    {row : Env α} (hrow : row ∈ p) : e.eval fns [row] = e.eval fns [image p] := by
  refine e.eval_congr ⟨fun f hf => ?_, ?_⟩
  · exact (h.fields f (hfields (e.outerFields_subset hf)) p hp row hrow).symm
  · rw [hmeasures]
    nofun

theorem key_image (h : Condenses fns q parts image) (hq : q.IsReport) {p : List (Env α)}
    (hp : p ∈ parts) {row : Env α} (hrow : row ∈ p) : q.key fns row = q.key fns (image p) := by
  refine List.map_congr_left fun e he => h.eval_image (hq.groupBy e he) (fun f hf => ?_) hp hrow
  exact List.mem_append_right _ (List.mem_flatMap.mpr ⟨e, he, hf⟩)

theorem holds_image (h : Condenses fns q parts image) (hq : q.IsReport) {p : List (Env α)}
    (hp : p ∈ parts) {row : Env α} (hrow : row ∈ p) :
    (q.filters.all fun e => fns.holds (e.eval fns [row])) =
      q.filters.all fun e => fns.holds (e.eval fns [image p]) := by
  refine all_congr fun e he => ?_
  rw [h.eval_image (hq.filters e he) (fun f hf => ?_) hp hrow]
  exact List.mem_append_left _ (List.mem_flatMap.mpr ⟨e, he, hf⟩)

theorem kept_image (h : Condenses fns q parts image) (hq : q.IsReport) {rows : List (Env α)}
    (hrows : rows.Perm parts.flatten) :
    ∃ ps, ps ⊆ parts ∧ q.kept fns (parts.map image) = ps.map image ∧
      (q.kept fns rows).Perm ps.flatten := by
  refine ⟨parts.filter fun p => q.filters.all fun e => fns.holds (e.eval fns [image p]),
    List.filter_sublist.subset, ?_, ?_⟩
  · rw [kept, List.filter_map]
    rfl
  · refine (hrows.filter _).trans ?_
    rw [filter_flatten_of_const fun p hp row hrow => h.holds_image hq hp hrow]

/-- The results of one group on each side. -/
theorem result?_image (h : Condenses fns q parts image) (hq : q.IsReport) {rows : List (Env α)}
    (hrows : rows.Perm parts.flatten)
    (hkey : ∀ e ∈ q.groupBy, e.eval fns (parts.map image) = e.eval fns rows) :
    q.result? fns (parts.map image) = q.result? fns rows := by
  refine result?_congr hq hkey fun m hm => ?_
  rw [List.map_map]
  exact (h.measures m hm parts (List.Subset.refl _)).trans (m.1.combine_perm (hrows.map _).symm)

/-- Without groups there is one result for each row, and it is always the same. -/
theorem filterMap_singles (h : Condenses fns q parts image) (hq : q.IsReport) {rows : List (Env α)}
    (hrows : rows.Perm parts.flatten) (hgrouping : q.isGrouping = false) :
    ((parts.map image).map ([·])).filterMap (q.result? fns) =
      (rows.map ([·])).filterMap (q.result? fns) := by
  obtain ⟨hby, hmeasures⟩ : q.groupBy = [] ∧ q.measures = [] := by
    simp only [isGrouping, Bool.or_eq_false_iff, Bool.not_eq_false', List.isEmpty_iff] at hgrouping
    exact ⟨hgrouping.1.1, measures_eq_nil hgrouping.2⟩
  have hlength : (parts.map image).length = rows.length := by
    have hone := h.grouping.resolve_left (by simp [hgrouping])
    rw [hrows.length_eq, List.length_flatten, List.map_congr_left hone]
    simp
  have hsame : ∀ g g' : List (Env α), q.result? fns g = q.result? fns g' := fun g g' =>
    result?_congr hq (by simp [hby]) (by simp [hmeasures])
  have hconst : ∀ rows : List (Env α), (rows.map ([·])).filterMap (q.result? fns) =
      (List.replicate rows.length []).filterMap (q.result? fns) := by
    intro rows
    induction rows with
    | nil => rfl
    | cons row rows ih =>
      rw [List.map_cons, List.filterMap_cons, hsame [row] [], ih, List.length_cons,
        List.replicate_succ, List.filterMap_cons]
  rw [hconst, hconst rows, hlength]

/-- The keys on both sides are the same. -/
theorem keys_perm (h : Condenses fns q parts image) (hq : q.IsReport) {rows : List (Env α)}
    (hrows : rows.Perm parts.flatten) :
    ((parts.map image).map (q.key fns)).dedup.Perm (rows.map (q.key fns)).dedup := by
  rw [List.perm_ext_iff_of_nodup (List.nodup_dedup _) (List.nodup_dedup _)]
  intro k
  simp only [List.mem_dedup, List.mem_map, exists_exists_and_eq_and]
  constructor
  · rintro ⟨p, hp, rfl⟩
    obtain ⟨row, hrow⟩ := List.exists_mem_of_ne_nil p (h.nonempty p hp)
    exact ⟨row, hrows.mem_iff.mpr (List.mem_flatten.mpr ⟨p, hp, hrow⟩), h.key_image hq hp hrow⟩
  · rintro ⟨row, hrow, rfl⟩
    obtain ⟨p, hp, hmem⟩ := List.mem_flatten.mp (hrows.mem_iff.mp hrow)
    exact ⟨p, hp, (h.key_image hq hp hmem).symm⟩

/-- The groups of a key have the same result. -/
theorem result?_key (h : Condenses fns q parts image) (hq : q.IsReport) {rows : List (Env α)}
    (hrows : rows.Perm parts.flatten) {k : List (Value α)}
    (hk : k ∈ ((parts.map image).map (q.key fns)).dedup) :
    q.result? fns ((parts.map image).filter (q.key fns · = k)) =
      q.result? fns (rows.filter (q.key fns · = k)) := by
  have hsub : (parts.filter fun p => q.key fns (image p) = k) ⊆ parts := List.filter_sublist.subset
  have hgroup : (rows.filter (q.key fns · = k)).Perm
      (parts.filter fun p => q.key fns (image p) = k).flatten := by
    refine (hrows.filter _).trans ?_
    rw [filter_flatten_of_const fun p hp row hrow => ?_]
    rw [h.key_image hq hp hrow]
  rw [List.filter_map]
  refine (h.mono hsub).result?_image hq hgroup fun e he => ?_
  -- a first row on each side, with the key that the group is of
  obtain ⟨p, hp⟩ : ∃ p, p ∈ parts.filter fun p => q.key fns (image p) = k := by
    simp only [List.mem_dedup, List.mem_map, exists_exists_and_eq_and] at hk
    obtain ⟨p, hp, hkey⟩ := hk
    exact ⟨p, List.mem_filter.mpr ⟨hp, by simpa using hkey⟩⟩
  obtain ⟨row, hrow⟩ := List.exists_mem_of_ne_nil p (h.nonempty p (hsub hp))
  have hmem : row ∈ rows.filter (q.key fns · = k) :=
    hgroup.mem_iff.mpr (List.mem_flatten.mpr ⟨p, hp, hrow⟩)
  refine eval_groupBy hq (k := k) (List.ne_nil_of_mem (List.mem_map_of_mem hp))
    (List.ne_nil_of_mem hmem) ?_ ?_ he
  · intro row' hrow'
    obtain ⟨p', hp', rfl⟩ := List.mem_map.mp hrow'
    exact of_decide_eq_true (List.mem_filter.mp hp').2
  · intro row' hrow'
    exact of_decide_eq_true (List.mem_filter.mp hrow').2

/-- The results over the rows that replace the parts are those over all rows. -/
theorem results_perm (h : Condenses fns q parts image) (hq : q.IsReport) {rows : List (Env α)}
    (hrows : rows.Perm parts.flatten) :
    (q.results fns (parts.map image)).Perm (q.results fns rows) := by
  obtain ⟨ps, hps, hkept, hperm⟩ := h.kept_image hq hrows
  replace h := h.mono hps
  unfold results
  rw [hkept]
  generalize q.kept fns rows = rows at hperm
  unfold groups
  split
  · next hgrouping =>
    rw [h.filterMap_singles hq hperm (by simpa using hgrouping)]
  · split
    · next hby =>
      rw [List.isEmpty_iff] at hby
      rw [List.filterMap_cons, List.filterMap_cons,
        h.result?_image hq hperm (by simp [hby])]
    · rw [groupRows, groupRows, List.filterMap_map, List.filterMap_map]
      have hsame := List.filterMap_congr fun k hk => h.result?_key hq hperm hk
      exact (List.Perm.of_eq hsame).trans ((h.keys_perm hq hperm).filterMap _)

end Condenses

/-- The order of the rows does not matter. -/
theorem results_perm {q : Query} (hq : q.IsReport) {rows rows' : List (Env α)}
    (h : rows.Perm rows') : (q.results fns rows).Perm (q.results fns rows') := by
  have hcondenses : Condenses fns q (rows.map ([·])) fun p => p.headD fun _ => none := by
    constructor
    case nonempty =>
      intro p hp
      obtain ⟨row, -, rfl⟩ := List.mem_map.mp hp
      exact List.cons_ne_nil _ _
    case fields =>
      intro f _ p hp row hrow
      obtain ⟨row', -, rfl⟩ := List.mem_map.mp hp
      rw [List.mem_singleton.mp hrow]
      rfl
    case measures =>
      intro m _ ps hps
      have hsingle : ∀ p ∈ ps, [p.headD fun _ => none] = p := by
        intro p hp
        obtain ⟨row, -, rfl⟩ := List.mem_map.mp (hps hp)
        rfl
      congr 1
      clear hps
      induction ps with
      | nil => rfl
      | cons p ps ih =>
        rw [List.map_cons, List.flatten_cons, List.map_append,
          ih fun p' hp' => hsingle p' (List.mem_cons_of_mem _ hp')]
        conv_rhs => rw [← hsingle p List.mem_cons_self]
        rfl
    case grouping =>
      refine .inr fun p hp => ?_
      obtain ⟨row, -, rfl⟩ := List.mem_map.mp hp
      rfl
  have hmap : (rows.map ([·])).map (fun p => p.headD fun _ => none) = rows := by
    rw [List.map_map]
    exact List.map_id rows
  have hflatten : rows'.Perm (rows.map ([·])).flatten := by
    rw [← List.flatMap_def, List.flatMap_singleton']
    exact h.symm
  have hresults := hcondenses.results_perm hq hflatten
  rwa [hmap] at hresults

/-- Equal results in any order are equal answers. -/
theorem answers_of_perm {q q' : Query} {rows rows' : List (Env α)}
    (horder : q.orderBy.map (·.descending) = q'.orderBy.map (·.descending))
    (hlimit : q.limit = q'.limit) (h : (q.results fns rows).Perm (q'.results fns rows'))
    (answer : List (List (Value α))) : q.Answers fns rows answer ↔ q'.Answers fns rows' answer := by
  unfold Answers
  rw [horder, hlimit]
  refine exists_congr fun sorted => and_congr_left fun _ => ?_
  exact ⟨fun hs => hs.trans h, fun hs => hs.trans h.symm⟩

end Query

end MetricLayer
