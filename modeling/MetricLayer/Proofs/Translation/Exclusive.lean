import MetricLayer.Proofs.Clarification.Decided
import MetricLayer.Proofs.Report.Targets
import MetricLayer.Proofs.Sql.Truth
import MetricLayer.Proofs.Translation.TextFilters

/-!
# Filters that exclude each other

The mapping calls filters of one target exclusive by their operators and values, where a negation
counts as an operator, while the query keeps the negation around the condition. The two agree: what
a filter asks of the value that it tests is what its operator after the negation asks, for null as
well. So filters that look at the same column, or at the same metric, and are called exclusive are
never met together. Targets are told apart by their texts alone, though, and a metric can have the
name that is the text of a column. Filters on these two are tested on different values, which can
meet both.

Results:
1. `ReportFilter.isMet_compared` and `isMet_null`: what a filter asks of the value that it tests.
2. `not_both_met`: filters on one value that are called incompatible are never both met.
3. `conditions_never_met`: no row and no group meets the conditions of filters that a conflict is
   about, where targets are apart.
4. `conflicts_exclusive_iff`: filters that a conflict is about are never all met just if targets are
   apart.
-/

namespace MetricLayer

open Mapping

/-- A mapped filter that compares has one value, of its type. -/
theorem Mapping.Context.IsFilter.compared {ctx : Context} {f : ReportFilter} (h : ctx.IsFilter f)
    (hop : f.operator = .equals ∨ f.operator = .notEquals) :
    ∃ v, f.values = [v] ∧ v.HasType f.type := by
  have hlength : f.values.length = 1 := by
    obtain ⟨hmin, hmax⟩ := Bool.and_eq_true_iff.mp h.count
    rcases hop with hop | hop <;> rw [hop] at hmin hmax <;>
      exact Nat.le_antisymm (of_decide_eq_true hmax) (of_decide_eq_true hmin)
  obtain ⟨v, hv⟩ := List.length_eq_one_iff.mp hlength
  obtain ⟨text, htext⟩ := h.values v (hv ▸ List.mem_singleton_self v)
  have htype : Context.valueType f.operator f.type = f.type := by
    rcases hop with hop | hop <;> rw [hop] <;> rfl
  exact ⟨v, hv, htype ▸ Literal.coerce_hasType htext⟩

/-! ## What a filter asks of a value -/

section Conditions

variable {α : Type} [LinearOrder α]

namespace ReportFilter

/-- The filter is met: its condition on the subject holds for the rows. -/
def IsMet (fns : Functions α) (f : ReportFilter) (subject : Expr) (rows : List (Env α)) : Prop :=
  ∃ e, f.condition subject = .ok e ∧ fns.holds (e.eval fns rows) = true

variable {fns : Functions α} {truth : Value α → Option Bool} {f : ReportFilter} {subject : Expr}
  {rows : List (Env α)}

/-- A filter is met where its condition without the negation is true, or false if it is negated. -/
theorem isMet_iff_plain (hfns : fns.ThreeValued truth) {e : Expr}
    (he : f.plainCondition subject = .ok e) :
    f.IsMet fns subject rows ↔ truth (e.eval fns rows) = some !f.negated := by
  have hcondition : f.condition subject = .ok (if f.negated then .not e else e) := by
    rw [condition, he]
    rfl
  have hvalue : f.IsMet fns subject rows ↔
      fns.holds ((if f.negated then .not e else e : Expr).eval fns rows) = true := by
    unfold IsMet
    rw [hcondition]
    simp
  rw [hvalue, hfns.holds]
  cases f.negated with
  | false => rfl
  | true => simp [Expr.eval, hfns.not]

theorem effectiveOperator_compares :
    (effectiveOperator f = .equals ∨ effectiveOperator f = .notEquals) ↔
      f.operator = .equals ∨ f.operator = .notEquals := by
  unfold effectiveOperator
  cases f.negated <;> cases f.operator <;> simp

theorem effectiveOperator_testsNull :
    (effectiveOperator f = .isNull ∨ effectiveOperator f = .isNotNull) ↔
      f.operator = .isNull ∨ f.operator = .isNotNull := by
  unfold effectiveOperator
  cases f.negated <;> cases f.operator <;> simp

/-- A comparison with one value is met where it is known that the values are equal, or that they are
not, as the operator after the negation asks. -/
theorem isMet_compared (hfns : fns.ThreeValued truth)
    (hop : f.operator = .equals ∨ f.operator = .notEquals) {v : Literal} (hv : f.values = [v]) :
    f.IsMet fns subject rows ↔ (subject.eval fns rows).equal? (fns.literal v) =
      some (decide (effectiveOperator f = .equals)) := by
  rcases hop with hop | hop
  · have hplain : f.plainCondition subject = .ok (.binary subject .eq (.value v)) := by
      simp only [plainCondition, valueAt, hop, hv]
      rfl
    rw [isMet_iff_plain hfns hplain, Expr.eval, hfns.eq, Expr.eval, effectiveOperator, hop]
    cases f.negated <;> rfl
  · have hplain : f.plainCondition subject = .ok (.binary subject .notEq (.value v)) := by
      simp only [plainCondition, valueAt, hop, hv]
      rfl
    rw [isMet_iff_plain hfns hplain, Expr.eval, hfns.notEq, Expr.eval, effectiveOperator, hop]
    cases f.negated <;> simp

/-- A test for null is met where the value is null, or is not, as the operator after the negation
asks. -/
theorem isMet_null (hfns : fns.ThreeValued truth)
    (hop : f.operator = .isNull ∨ f.operator = .isNotNull) :
    f.IsMet fns subject rows ↔
      ((subject.eval fns rows).isNone = decide (effectiveOperator f = .isNull)) := by
  rcases hop with hop | hop
  · have hplain : f.plainCondition subject = .ok (.isNull subject false) := by
      simp only [plainCondition, hop]
    rw [isMet_iff_plain hfns hplain, Expr.eval, hfns.isNull, effectiveOperator, hop]
    cases f.negated <;> simp
  · have hplain : f.plainCondition subject = .ok (.isNull subject true) := by
      simp only [plainCondition, hop]
    rw [isMet_iff_plain hfns hplain, Expr.eval, hfns.isNotNull, effectiveOperator, hop]
    cases f.negated <;> cases (subject.eval fns rows) <;> simp

variable {ctx : Context}

/-- A filter that asks for a value is met by this value only. -/
theorem IsMet.eq_literal (hfns : fns.ThreeValued truth) (hf : ctx.IsFilter f)
    (hmet : f.IsMet fns subject rows) (hop : effectiveOperator f = .equals) :
    ∃ v, f.values = [v] ∧ v.HasType f.type ∧ subject.eval fns rows = fns.literal v := by
  have hcompared := effectiveOperator_compares.mp (.inl hop)
  obtain ⟨v, hv, htype⟩ := hf.compared hcompared
  have hequal := (isMet_compared hfns hcompared hv).mp hmet
  rw [hop, decide_eq_true rfl, Value.equal?_eq_true] at hequal
  exact ⟨v, hv, htype, hequal.1⟩

/-- A filter that asks for something else than a value is not met by this value. -/
theorem IsMet.ne_literal (hfns : fns.ThreeValued truth) (hf : ctx.IsFilter f)
    (hmet : f.IsMet fns subject rows) (hop : effectiveOperator f = .notEquals) :
    ∃ v, f.values = [v] ∧ v.HasType f.type ∧ subject.eval fns rows ≠ fns.literal v := by
  have hcompared := effectiveOperator_compares.mp (.inr hop)
  obtain ⟨v, hv, htype⟩ := hf.compared hcompared
  have hequal := (isMet_compared hfns hcompared hv).mp hmet
  rw [hop, decide_eq_false nofun, Value.equal?_eq_false] at hequal
  exact ⟨v, hv, htype, hequal.2.2⟩

theorem IsMet.isNone (hfns : fns.ThreeValued truth) (hmet : f.IsMet fns subject rows)
    (hop : effectiveOperator f = .isNull ∨ effectiveOperator f = .isNotNull) :
    (subject.eval fns rows).isNone = decide (effectiveOperator f = .isNull) :=
  (isMet_null hfns (effectiveOperator_testsNull.mp hop)).mp hmet

end ReportFilter

/-- Filters that test one value and are called incompatible are never both met. -/
theorem not_both_met {fns : Functions α} {truth : Value α → Option Bool}
    (hfns : fns.ThreeValued truth) {ctx : Context} {f g : ReportFilter} (hf : ctx.IsFilter f)
    (hg : ctx.IsFilter g) (htype : f.type = g.type) (h : incompatible f g = true) {subject : Expr}
    {rows : List (Env α)} : ¬ (f.IsMet fns subject rows ∧ g.IsMet fns subject rows) := by
  rintro ⟨hfmet, hgmet⟩
  -- the two cases that are not symmetric to themselves
  have hopposed {f g : ReportFilter} (hf : ctx.IsFilter f) (hg : ctx.IsFilter g)
      (htype : f.type = g.type) (hfmet : f.IsMet fns subject rows)
      (hgmet : g.IsMet fns subject rows) (hfop : effectiveOperator f = .equals)
      (hgop : effectiveOperator g = .notEquals) (h : sameValues f.values g.values = true) :
      False := by
    obtain ⟨v, hv, hvtype, heq⟩ := hfmet.eq_literal hfns hf hfop
    obtain ⟨w, hw, hwtype, hne⟩ := hgmet.ne_literal hfns hg hgop
    simp only [hv, hw, sameValues, Bool.and_true] at h
    exact hne (heq.trans ((hfns.same hvtype (htype ▸ hwtype)).mpr h))
  have hnull {f g : ReportFilter} (hfmet : f.IsMet fns subject rows)
      (hgmet : g.IsMet fns subject rows) (hfop : effectiveOperator f = .isNull)
      (hgop : effectiveOperator g = .isNotNull) : False := by
    have hnone := (hfmet.isNone hfns (.inl hfop)).symm.trans (hgmet.isNone hfns (.inr hgop))
    simp [hfop, hgop] at hnone
  unfold incompatible at h
  split at h
  · next hfop hgop =>
    obtain ⟨v, hv, hvtype, heq⟩ := hfmet.eq_literal hfns hf hfop
    obtain ⟨w, hw, hwtype, heq'⟩ := hgmet.eq_literal hfns hg hgop
    have hsame := (hfns.same hvtype (htype ▸ hwtype)).mp (heq.symm.trans heq')
    simp [hv, hw, sameValues, hsame] at h
  · next hfop hgop => exact hopposed hf hg htype hfmet hgmet hfop hgop h
  · next hfop hgop =>
    exact hopposed hg hf htype.symm hgmet hfmet hgop hfop
      (Mapping.sameValues_comm _ _ ▸ h)
  · next hfop hgop => exact hnull hfmet hgmet hfop hgop
  · next hfop hgop => exact hnull hgmet hfmet hgop hfop
  · cases h

end Conditions

/-! ## Rows and groups -/

section Groups

variable {α : Type} [LinearOrder α]

namespace ReportFilter

/-- The filter is met by a row, if it looks at a column, or by a group of rows, if it looks at a
metric, for which the expression that is given is written. -/
def IsMetBy (fns : Functions α) (metric : ReportMetric → Expr) (row : Env α) (group : List (Env α))
    (f : ReportFilter) : Prop :=
  match f.target with
  | .column c => f.IsMet fns (.field c) [row]
  | .metric m => f.IsMet fns (metric m) group

variable {fns : Functions α} {truth : Value α → Option Bool} {ctx : Context} {f g : ReportFilter}

theorem isMetBy_column {c : Field} (h : f.target = .column c) {metric : ReportMetric → Expr}
    {row : Env α} {group : List (Env α)} :
    f.IsMetBy fns metric row group ↔ f.IsMet fns (.field c) [row] := by
  unfold IsMetBy
  rw [h]

theorem isMetBy_metric {m : ReportMetric} (h : f.target = .metric m) {metric : ReportMetric → Expr}
    {row : Env α} {group : List (Env α)} :
    f.IsMetBy fns metric row group ↔ f.IsMet fns (metric m) group := by
  unfold IsMetBy
  rw [h]

/-- Filters of one target that are called incompatible are never both met. -/
theorem not_both_metBy (hfns : fns.ThreeValued truth) (hf : ctx.IsFilter f) (hg : ctx.IsFilter g)
    (htarget : f.target = g.target) (h : incompatible f g = true) {metric : ReportMetric → Expr}
    {row : Env α} {group : List (Env α)} :
    ¬ (f.IsMetBy fns metric row group ∧ g.IsMetBy fns metric row group) := by
  have htype : f.type = g.type := hf.target.type_eq (htarget ▸ hg.target)
  unfold IsMetBy
  rw [← htarget]
  cases f.target <;> exact not_both_met hfns hf hg htype h

/-- A test for null is met by a row without a value in the column. -/
theorem isMetBy_isNull (hfns : fns.ThreeValued truth) {c : Field} (hc : f.target = .column c)
    (hop : f.operator = .isNull) (hnegated : f.negated = false) (metric : ReportMetric → Expr)
    (group : List (Env α)) : f.IsMetBy fns metric (fun _ => none) group := by
  refine (isMetBy_column hc).mpr ((isMet_null hfns (.inl hop)).mpr ?_)
  rw [effectiveOperator, hnegated, hop]
  rfl

/-- A test for a value is met by a group for which the metric has one. -/
theorem isMetBy_isNotNull (hfns : fns.ThreeValued truth) {m : ReportMetric}
    (hm : f.target = .metric m) (hop : f.operator = .isNotNull) (hnegated : f.negated = false)
    {metric : ReportMetric → Expr} (row : Env α) {group : List (Env α)}
    (hvalue : ((metric m).eval fns group).isNone = false) : f.IsMetBy fns metric row group := by
  refine (isMetBy_metric hm).mpr ((isMet_null hfns (.inr hop)).mpr ?_)
  rw [effectiveOperator, hnegated, hop, hvalue]
  rfl

end ReportFilter

namespace Mapping

variable {ctx : Context} {fns : Functions α} {truth : Value α → Option Bool}

/-- Of the filters that a conflict is about, two are called incompatible. -/
theorem conflictingFilters?_incompatible {xs : List (FilterMention × ReportFilter)} {c : Conflict}
    (h : conflictingFilters? xs = some c) :
    ∃ x ∈ xs, ∃ y ∈ xs, incompatible x.2 y.2 = true := by
  by_contra hno
  push Not at hno
  have hnone : conflictingFilters? xs = none := by
    rw [conflictingFilters?_eq_none, anyIncompatible_eq_false, List.pairwise_map]
    exact List.pairwise_of_forall_mem_list fun x hx y hy => Bool.eq_false_iff.mpr (hno x hx y hy)
  rw [hnone] at h
  cases h

/-- Where targets are apart, filters that a conflict is about are never all met. -/
theorem group_never_met (hfns : fns.ThreeValued truth) (plain : ctx.dictionary.definition.Plain)
    (hapart : ctx.TargetsApart) {r : Request} {key : String} {c : Conflict}
    (h : conflictingFilters? (ctx.group r key) = some c) (metric : ReportMetric → Expr)
    (row : Env α) (group : List (Env α)) :
    ¬ ∀ x ∈ ctx.group r key, x.2.IsMetBy fns metric row group := by
  intro hmet
  obtain ⟨x, hx, y, hy, hincompatible⟩ := conflictingFilters?_incompatible h
  obtain ⟨hxmem, hxkey⟩ := List.mem_filter.mp hx
  obtain ⟨hymem, hykey⟩ := List.mem_filter.mp hy
  have hkey := (of_decide_eq_true hxkey).trans (of_decide_eq_true hykey).symm
  have his := (finalDraft_spec ctx r).2
  exact ReportFilter.not_both_metBy hfns (his x hxmem) (his y hymem)
    (filtersDraft_target_eq plain hapart hxmem hymem hkey) hincompatible ⟨hmet x hx, hmet y hy⟩

/-- The rows that a filter is tested on: a single one for a column, a group for a metric. -/
def testedOn (row : Env α) (group : List (Env α)) : FilterTarget → List (Env α)
  | .column _ => [row]
  | .metric _ => group

/-- Then no row and no group meets the conditions that a report writes for the filters. -/
theorem conditions_never_met (hfns : fns.ThreeValued truth)
    (plain : ctx.dictionary.definition.Plain) (hapart : ctx.TargetsApart) {r : Request}
    {key : String} {c : Conflict} (h : conflictingFilters? (ctx.group r key) = some c)
    (report : Report) (row : Env α) (group : List (Env α)) :
    ¬ ∀ x ∈ ctx.group r key, ∃ e, report.filterCondition x.2 = .ok e ∧
      fns.holds (e.eval fns (testedOn row group x.2.target)) = true := by
  intro hmet
  -- a metric whose expression cannot be written has no condition either
  let metric (m : ReportMetric) : Expr := (report.metricExpr m).toOption.getD (.value (.bool true))
  refine group_never_met hfns plain hapart h metric row group fun x hx => ?_
  obtain ⟨e, he, hholds⟩ := hmet x hx
  rw [Report.filterCondition_eq] at he
  obtain ⟨subject, hsubject, he⟩ := bind_eq_ok he
  unfold Report.subject at hsubject
  split at hsubject
  · next column hcolumn =>
    rw [hcolumn] at hholds
    cases hsubject
    exact (ReportFilter.isMetBy_column hcolumn).mpr ⟨e, he, hholds⟩
  · next m hm =>
    rw [hm] at hholds
    have hmetric : metric m = subject := by simp only [metric, hsubject, Except.toOption,
      Option.getD_some]
    rw [ReportFilter.isMetBy_metric hm, hmetric]
    exact ⟨e, he, hholds⟩

end Mapping

end Groups

/-! ## A column and a metric of one text -/

/-- The mention with another operator, which takes no values. -/
def FilterMention.testing (f : FilterMention) (operator : String) : FilterMention :=
  { f with operator, value := .none, negated := false }

namespace Mapping

open Draft

variable {ctx : Context}

/-- A test that takes no values is mapped where its target is found. -/
theorem mapFilter_testing {f : FilterMention} {word : String} {op : Operator}
    (hword : Operator.ofText? word = some op) (htakes : op.takes 0 = true) {kind : EntityKind}
    {name : String}
    (hresolve :
      ctx.resolveField .filter .dimension f.field f.confidence f.pinned = .ok (kind, name))
    {d d' : Draft} {target : FilterTarget} {type : DataType}
    (hfound : ctx.filterTarget f kind name d = (d', some (target, type))) :
    ctx.mapFilter (f.testing word) d = (d', some ⟨f.field, target, type, op, [], false⟩) := by
  have hop : (f.testing word).operator? = some op := by
    show (Operator.ofText? word).map _ = _
    rw [hword]
    rfl
  have hwarn : Context.warnOperator (f.testing word) d = d := by
    rw [Context.warnOperator, hop]
    rfl
  have hoperator : Context.operatorOf (f.testing word) = op := by
    rw [Context.operatorOf, hop]
    rfl
  have hfaults : Context.typeFaults (f.testing word) type = [] := by
    rw [Context.typeFaults, hoperator]
    exact if_pos htakes
  rw [mapFilter_found (f := f.testing word) hresolve (hwarn.symm ▸ hfound), hfaults,
    Context.filterOf, hoperator]
  rfl

/-- Where targets are not apart, there is a conflict about a column, which is to be null, and a
metric, which is not. -/
theorem exists_false_alarm (h : ¬ ctx.TargetsApart) :
    ∃ r key c x y, conflictingFilters? (ctx.group r key) = some c ∧ ctx.group r key = [x, y] ∧
      (∃ column, x.2.target = .column column) ∧ x.2.operator = .isNull ∧ x.2.negated = false ∧
      (∃ metric, y.2.target = .metric metric) ∧ y.2.operator = .isNotNull ∧
      y.2.negated = false := by
  unfold Context.TargetsApart at h
  push Not at h
  obtain ⟨metric, dimension, ⟨g, hg⟩, ⟨e, he, rfl, hfield⟩, ⟨f, hf⟩, hkey⟩ := h
  -- the column is found on any draft
  obtain ⟨e', he', hcolumn⟩ := Option.bind_eq_some_iff.mp hkey
  obtain ⟨column, hcolumn, htext⟩ := Option.map_eq_some_iff.mp hcolumn
  have hfirst : ctx.filterTarget f .dimension dimension {} =
      ({}, some (.column column, ctx.columnType column)) := by
    rw [filterTarget_column (by decide) he', hcolumn]
  -- the metric is found, since its field is known
  obtain ⟨m, hm⟩ := Option.isSome_iff_exists.mp <| metric?_isSome.mpr <|
    addMetric_mem ctx.dictionary.metrics.length he hfield g.field none true {}
  have hsecond : ctx.filterTarget g .metric e.definition.name {} =
      (ctx.includeMetric e.definition.name g.field none true {}, some (.metric m, m.type)) := by
    unfold Context.filterTarget Context.includeMetric
    simp only [hm, Option.map_some]
  have hnull : Operator.ofText? "is_null" = some .isNull := by decide +kernel
  have hnotNull : Operator.ofText? "is_not_null" = some .isNotNull := by decide +kernel
  have hfmap := mapFilter_testing hnull rfl hf hfirst
  have hgmap := mapFilter_testing hnotNull rfl hg hsecond
  have hdraft : (ctx.filtersDraft { filters := [f.testing "is_null", g.testing "is_not_null"] }).2 =
      [(f.testing "is_null", ⟨f.field, .column column, ctx.columnType column, .isNull, [], false⟩),
        (g.testing "is_not_null", ⟨g.field, .metric m, m.type, .isNotNull, [], false⟩)] := by
    show (ctx.mapFilters [f.testing "is_null", g.testing "is_not_null"] {}).2 = _
    rw [mapFilters_cons, mapFilters_cons, hfmap, hgmap]
    rfl
  have hgroup : ctx.group { filters := [f.testing "is_null", g.testing "is_not_null"] }
      e.definition.name =
        (ctx.filtersDraft { filters := [f.testing "is_null", g.testing "is_not_null"] }).2 := by
    refine List.filter_eq_self.mpr ?_
    rw [hdraft]
    simp [ReportFilter.targetKey, htext, metric?_name hm]
  obtain ⟨c, hc⟩ : ∃ c, conflictingFilters? (ctx.group
      { filters := [f.testing "is_null", g.testing "is_not_null"] } e.definition.name) =
        some c := by
    rw [hgroup, hdraft]
    exact ⟨_, rfl⟩
  exact ⟨_, _, c, _, _, hc, hgroup.trans hdraft, ⟨column, rfl⟩, rfl, rfl, ⟨m, rfl⟩, rfl, rfl⟩

section Exclusive

variable {α : Type} [LinearOrder α] {fns : Functions α} {truth : Value α → Option Bool}

/-- The filters that a conflict is about are never all met, whatever the request, the rows and the
expressions of the metrics are, just if no metric that a filter can look at is named like the column
of a dimension. -/
theorem conflicts_exclusive_iff (hfns : fns.ThreeValued truth) (ctx : Context)
    (plain : ctx.dictionary.definition.Plain) :
    (∀ r key c, conflictingFilters? (ctx.group r key) = some c →
      ∀ (metric : ReportMetric → Expr) (row : Env α) (group : List (Env α)),
        ¬ ∀ x ∈ ctx.group r key, x.2.IsMetBy fns metric row group) ↔ ctx.TargetsApart := by
  refine ⟨fun h => ?_, fun hapart r key c hc => group_never_met hfns plain hapart hc⟩
  by_contra hno
  obtain ⟨r, key, c, x, y, hc, hgroup, ⟨column, hcolumn⟩, hnull, hxnegated, ⟨metric, hmetric⟩,
    hnotNull, hynegated⟩ := exists_false_alarm hno
  -- the column has no value in the row, and whatever is written has one for the group
  refine h r key c hc (fun _ => .field column) (fun _ => none) [fun _ => some (toLex (.inl 0))] ?_
  rw [hgroup]
  refine List.forall_mem_cons.mpr ⟨?_, List.forall_mem_singleton.mpr ?_⟩
  · exact ReportFilter.isMetBy_isNull hfns hcolumn hnull hxnegated _ _
  · exact ReportFilter.isMetBy_isNotNull hfns hmetric hnotNull hynegated _ rfl

end Exclusive

end Mapping

namespace Wagers

open Mapping

/-- A sum that is named like the column that it adds up. -/
def tally : MetricDefinition :=
  { name := "Bets.Amount", field := some ⟨"Bets", "Amount"⟩, type := .integer }

/-- The column as a dimension. -/
def amount : DimensionDefinition := { name := "Amount", field := ⟨"Bets", "Amount"⟩ }

def withTally : Mapping.Context :=
  { context with dictionary :=
      { definition :=
          { metrics := vocabulary.metrics ++ [tally]
            dimensions := vocabulary.dimensions ++ [amount] }
        metrics := dictionary.metrics ++ [⟨tally, ⟨"bets amount", []⟩, none⟩]
        dimensions := dictionary.dimensions ++ [⟨amount, ⟨"amount", []⟩⟩]
        built := by decide +kernel } }

/-- Wagers of five that make ten together. -/
def fivesOfTen : Request :=
  { filters := [{ field := "amount", value := .one "5", pinned := some "Amount" },
      { field := "bets.amount", value := .one "10", pinned := some "Bets.Amount" }] }

/-- A wager of five. -/
def five : Env Scalar := fun _ => .ofRat 5

/-- The filters are said to exclude each other, but a wager of five meets one, and two of them meet
the other. -/
theorem tally_alarms : Functions.exact.ThreeValued Value.truth ∧
    withTally.dictionary.definition.Plain ∧
    (∃ c, conflictingFilters? (withTally.group fivesOfTen "Bets.Amount") = some c) ∧
    (∀ x ∈ withTally.group fivesOfTen "Bets.Amount", x.2.IsMetBy Functions.exact
      (fun m => .aggregate m.aggregation (.field ⟨"Bets", "Amount"⟩)) five [five, five]) ∧
    ¬ withTally.TargetsApart := by
  have hfns := Functions.exact_threeValued
  have hplain : withTally.dictionary.definition.Plain := by
    have hcolumns : ∀ x ∈ vocabulary.dimensions ++ [amount], '.' ∉ x.field.column.toList := by
      decide +kernel
    exact hcolumns
  have hconflict :
      (conflictingFilters? (withTally.group fivesOfTen "Bets.Amount")).isSome = true := by
    decide +kernel
  have hgroup : (withTally.group fivesOfTen "Bets.Amount").map (·.2) =
      [⟨"amount", .column ⟨"Bets", "Amount"⟩, .integer, .equals, [.int 5], false⟩,
        ⟨"bets.amount", .metric ⟨"bets.amount", "Bets.Amount", some ⟨"Bets", "Amount"⟩, .sum,
          .integer, none, true⟩, .integer, .equals, [.int 10], false⟩] := by
    decide +kernel
  have hmet : ∀ x ∈ withTally.group fivesOfTen "Bets.Amount", x.2.IsMetBy Functions.exact
      (fun m => .aggregate m.aggregation (.field ⟨"Bets", "Amount"⟩)) five [five, five] := by
    intro x hx
    have hmem := List.mem_map_of_mem (f := (·.2)) hx
    rw [hgroup] at hmem
    generalize x.2 = f at hmem
    rcases List.mem_pair.mp hmem with rfl | rfl
    · exact (ReportFilter.isMet_compared hfns (.inl rfl) rfl).mpr rfl
    · have hten : Aggregation.sum.combine (List.replicate 2 (.ofRat 5)) =
          (.ofRat 10 : Value Scalar) := by
        rw [Aggregation.sum_replicate]
        norm_num
      refine (ReportFilter.isMet_compared hfns (.inl rfl) rfl).mpr ?_
      exact (congrArg (Value.equal? · (.ofRat 10)) hten).trans rfl
  obtain ⟨c, hc⟩ := Option.isSome_iff_exists.mp hconflict
  refine ⟨hfns, hplain, ⟨c, hc⟩, hmet, fun hapart => ?_⟩
  exact (conflicts_exclusive_iff hfns withTally hplain).mpr hapart _ _ c hc _ _ _ hmet

end Wagers

end MetricLayer
