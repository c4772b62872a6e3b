import MetricLayer.Proofs.Report.FilterOrder
import MetricLayer.Proofs.Report.Raised

/-!
# What filters say

Whether filters exclude each other depends on what each of them says: its phrase, its target and its
condition. Where the dictionary is valid for the schema, a mentioned filter says the same whatever
else the request mentions, so the filters of one target are told from the mentions alone.

Results:
1. `conflictingFilters?_congr`: what decides about filters of one target.
2. `mapFilter_content`: what a mentioned filter says does not depend on the rest of the request.
3. `mapFilters_content`: the same for all filters of a request.
-/

namespace MetricLayer

/-- What a filter says: its phrase, its target and its condition. -/
structure FilterContent where
  term : String
  key : String
  operator : Operator
  negated : Bool
  values : List Literal

/-- What the filter says. -/
def ReportFilter.content (f : ReportFilter) : FilterContent :=
  ⟨f.term, f.targetKey, f.operator, f.negated, f.values⟩

namespace Mapping

/-! ## Filters of one target -/

/-- A mentioned filter and what it says. -/
def withContent (x : FilterMention × ReportFilter) : FilterMention × FilterContent :=
  (x.1, x.2.content)

theorem incompatible_congr {a a' b b' : ReportFilter} (ha : a.content = a'.content)
    (hb : b.content = b'.content) : incompatible a b = incompatible a' b' := by
  simp only [ReportFilter.content, FilterContent.mk.injEq] at ha hb
  simp only [incompatible, effectiveOperator, ha, hb]

theorem anyIncompatible_congr {fs gs : List ReportFilter}
    (h : fs.map ReportFilter.content = gs.map ReportFilter.content) :
    anyIncompatible fs = anyIncompatible gs := by
  induction fs generalizing gs with
  | nil =>
    cases gs with
    | nil => rfl
    | cons g gs => cases h
  | cons f fs ih =>
    cases gs with
    | nil => cases h
    | cons g gs =>
      obtain ⟨hfirst, hrest⟩ := List.cons_eq_cons.mp h
      have hany : fs.any (incompatible f) = gs.any (incompatible g) := by
        have hall : List.Forall₂ (fun x y => x.content = y.content) fs gs :=
          List.forall₂_map_left_iff.mp <| List.forall₂_map_right_iff.mp <|
            List.forall₂_eq_eq_eq ▸ hrest
        clear h hrest ih
        induction hall with
        | nil => rfl
        | cons hxy _ ih => simp only [List.any_cons, incompatible_congr hfirst hxy, ih]
      rw [anyIncompatible, anyIncompatible, hany, ih hrest]

/-- Filters are told from the mentions and what these say. -/
theorem conflictingFilters?_congr {xs ys : List (FilterMention × ReportFilter)}
    (h : xs.map withContent = ys.map withContent) :
    conflictingFilters? xs = conflictingFilters? ys := by
  have hany : anyIncompatible (xs.map (·.2)) = anyIncompatible (ys.map (·.2)) := by
    refine anyIncompatible_congr ?_
    simpa [withContent, Function.comp_def] using congrArg (List.map Prod.snd) h
  have hwords : xs.map (·.1.describe) = ys.map (·.1.describe) := by
    simpa [withContent, Function.comp_def] using
      congrArg (List.map fun z => FilterMention.describe z.1) h
  have hmerge : (xs.all fun x => x.2.operator = .equals && !x.2.negated) =
      ys.all fun x => x.2.operator = .equals && !x.2.negated := by
    have hall := congrArg (List.all · fun z => z.2.operator = .equals && !z.2.negated) h
    rwa [List.all_map, List.all_map] at hall
  cases xs with
  | nil =>
    cases ys with
    | nil => rfl
    | cons y ys => cases h
  | cons x xs =>
    cases ys with
    | nil => cases h
    | cons y ys =>
      have hterm : x.2.term = y.2.term := congrArg (·.2.term) (List.cons_eq_cons.mp h).1
      unfold conflictingFilters?
      simp only [hany, hwords, hmerge, hterm]

/-- One filter does not exclude itself. -/
theorem conflictingFilters?_short {xs : List (FilterMention × ReportFilter)} (h : xs.length ≤ 1) :
    conflictingFilters? xs = none := by
  rw [conflictingFilters?_eq_none, anyIncompatible_eq_false, List.pairwise_map]
  rcases Nat.le_one_iff_eq_zero_or_eq_one.mp h with h | h
  · rw [List.length_eq_zero_iff.mp h]
    exact .nil
  · obtain ⟨x, rfl⟩ := List.length_eq_one_iff.mp h
    exact List.pairwise_singleton _ x

/-! ## Filters of a request -/

variable {ctx : Context}

namespace Context

/-- The text that stands for an entry as a target. -/
def targetKey? (ctx : Context) (kind : EntityKind) (name : String) : Option String :=
  match kind with
  | .metric => some name
  | _ => (ctx.dictionary.dimension? name).bind fun e =>
      (ctx.schema.canonical? e.definition.field).map Field.text

/-- What a mentioned filter says where nothing else is mentioned. -/
def content? (ctx : Context) (f : FilterMention) : Option FilterContent :=
  (ctx.mapFilter f {}).2.map ReportFilter.content

/-- The mentioned filter looks at the target. -/
def looksAt (ctx : Context) (key : String) (f : FilterMention) : Bool :=
  (ctx.content? f).any (·.key = key)

end Context

/-- An entry that a filter looks at is told from its target. -/
theorem filterTarget_key (f : FilterMention) {kind : EntityKind} {name : String} {d : Draft}
    {target : FilterTarget} {type : DataType}
    (hfound : (ctx.filterTarget f kind name d).2 = some (target, type)) :
    ctx.targetKey? kind name = some (Context.filterOf f target type).targetKey := by
  obtain ⟨m, rfl, hm, rfl, -⟩ | ⟨e, c, hkind, he, hc, rfl, -⟩ := filterTarget_found hfound
  · exact congrArg some (metric?_name hm).symm
  · have hkey : ctx.targetKey? kind name = (ctx.dictionary.dimension? name).bind fun e =>
        (ctx.schema.canonical? e.definition.field).map Field.text := by
      cases kind <;> first | rfl | exact absurd rfl hkind
    rw [hkey, he, Option.bind_some, hc]
    rfl

/-- What a mentioned filter says does not depend on the rest of the request. -/
theorem mapFilter_content (hvalid : ctx.IsValid) (f : FilterMention) {d : Draft} (h : d.Sound ctx) :
    (ctx.mapFilter f d).2.map ReportFilter.content = ctx.content? f := by
  unfold Context.content?
  cases hresolve : ctx.resolveField .filter .dimension f.field f.confidence f.pinned with
  | error c => simp only [Context.mapFilter, hresolve]
  | ok entry =>
    obtain ⟨kind, name⟩ := entry
    have hentry := resolveField_entry hresolve
    obtain ⟨target, type, hfound, htype, -⟩ :=
      filterTarget_valid hvalid (warnOperator_step h f).sound hentry f
    obtain ⟨target', type', hfound', htype', -⟩ :=
      filterTarget_valid hvalid (warnOperator_step (sound_empty ctx) f).sound hentry f
    obtain rfl := Option.some.inj (htype.symm.trans htype')
    have hkey := Option.some.inj <|
      (filterTarget_key f hfound).symm.trans (filterTarget_key f hfound')
    rw [mapFilter_found hresolve (Prod.ext rfl hfound), mapFilter_found hresolve
      (Prod.ext rfl hfound')]
    simp only
    split
    · simp only [Option.map_some, ReportFilter.content, hkey]
      rfl
    · rfl

theorem mapFilters_content (hvalid : ctx.IsValid) (fs : List FilterMention) {d : Draft}
    (h : d.Sound ctx) :
    (ctx.mapFilters fs d).2.map withContent =
      fs.filterMap fun f => (ctx.content? f).map (f, ·) := by
  induction fs generalizing d with
  | nil => rfl
  | cons f fs ih =>
    rw [mapFilters_cons, List.filterMap_cons, ← mapFilter_content hvalid f h, List.map_append,
      ih (mapFilter_spec h f).1.sound]
    cases (ctx.mapFilter f d).2 <;> rfl

end Mapping

end MetricLayer
