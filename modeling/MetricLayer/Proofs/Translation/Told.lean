import MetricLayer.Proofs.Text.Trim
import MetricLayer.Proofs.Translation.Phrases
import MetricLayer.Proofs.Translation.QueryShape
import MetricLayer.Proofs.Translation.Resolved

/-!
# What a translation tells of the phrases

The query of a report, its statement and its comparisons do not depend on the phrases of the request.
Three texts of a translation do: the steps that explain the filters, the warning about a sort that
names nothing, and the failure of a filter that lacks a value. So two reports that differ in their
phrases only have the same translation just if the phrases in these places agree.

Results:
1. `Report.Rephrased.translate_agree`: the translations agree but for the phrases that are told.
2. `ReportFilter.explanation_inj`: the step that explains a filter tells its phrase.
3. `Report.order_warnings`: the sort that names nothing is warned about by its phrase.
4. `translate_rephrased_iff`: what is told of the phrases.
-/

namespace MetricLayer

/-! ## Failures that tell a phrase -/

/-- The computations give the same, or both fail because a filter lacks a value, each with the phrase
of its own filter. The phrases come in pairs. -/
def Agree {α : Type} (terms : List (String × String)) (x y : Except TranslationError α) : Prop :=
  y = x ∨ ∃ p ∈ terms, ∃ reason, x = .error (.invalidValue p.1 "" reason) ∧
    y = .error (.invalidValue p.2 "" reason)

namespace Agree

variable {α β : Type} {terms terms' : List (String × String)} {x y : Except TranslationError α}

theorem refl (x : Except TranslationError α) : Agree terms x x := .inl rfl

theorem mono (h : Agree terms x y) (hterms : terms ⊆ terms') : Agree terms' x y :=
  h.imp_right fun ⟨p, hp, rest⟩ => ⟨p, hterms hp, rest⟩

theorem bind {f g : α → Except TranslationError β} (h : Agree terms x y)
    (hfg : ∀ a, Agree terms (f a) (g a)) : Agree terms (x >>= f) (y >>= g) := by
  rcases h with rfl | ⟨p, hp, reason, rfl, rfl⟩
  · cases y with
    | error e => exact .refl _
    | ok a => exact hfg a
  · exact .inr ⟨p, hp, reason, rfl, rfl⟩

theorem map (h : Agree terms x y) (f : α → β) : Agree terms (x.map f) (y.map f) := by
  rcases h with rfl | ⟨p, hp, reason, rfl, rfl⟩
  · exact .refl _
  · exact .inr ⟨p, hp, reason, rfl, rfl⟩

theorem mapM {f g : β → Except TranslationError α} (h : ∀ b, Agree terms (f b) (g b))
    (bs : List β) : Agree terms (bs.mapM f) (bs.mapM g) := by
  induction bs with
  | nil => exact .refl _
  | cons b bs ih =>
    rw [List.mapM_cons, List.mapM_cons]
    exact (h b).bind fun a => ih.bind fun as => .refl _

end Agree

namespace ReportFilter

variable {f f' : ReportFilter}

/-- A value that is missing is missed by the phrase of the filter. -/
theorem valueAt_agree (h : f'.unphrased = f.unphrased) (i : Nat) :
    Agree [(f.term, f'.term)] (f.valueAt i) (f'.valueAt i) := by
  have hvalues : f'.values = f.values := congrArg (·.values) h
  have hoperator : f'.operator = f.operator := congrArg (·.operator) h
  rw [valueAt, valueAt, hvalues, hoperator]
  cases f.values[i]? with
  | some v => exact .refl _
  | none => exact .inr ⟨_, List.mem_singleton_self _, _, rfl, rfl⟩

theorem condition_agree (h : f'.unphrased = f.unphrased) (target : Expr) :
    Agree [(f.term, f'.term)] (f.condition target) (f'.condition target) := by
  have hvalues : f'.values = f.values := congrArg (·.values) h
  have hoperator : f'.operator = f.operator := congrArg (·.operator) h
  have hnegated : f'.negated = f.negated := congrArg (·.negated) h
  have hvalue := valueAt_agree h
  rw [condition, condition, hnegated]
  refine Agree.map ?_ _
  unfold plainCondition
  rw [hoperator, hvalues]
  cases f.operator
  case isNull | isNotNull => exact .refl _
  case «in» | notIn =>
    simp only
    split
    · exact .inr ⟨_, List.mem_singleton_self _, _, rfl, rfl⟩
    · exact .refl _
  case between => exact (hvalue 0).bind fun low => (hvalue 1).bind fun high => .refl _
  all_goals exact (hvalue 0).map _

end ReportFilter

namespace Report

/-- The reports differ in the phrases of their requests only, and in whether metrics that are filtered
by were shown by then. -/
def Rephrased (r r' : Report) : Prop := r'.unphrased = r.unphrased

/-- The phrases of the filters, in pairs. -/
def termPairs (fs fs' : List ReportFilter) : List (String × String) :=
  (fs.map (·.term)).zip (fs'.map (·.term))

namespace Rephrased

variable {r r' : Report}

/-! ## What is the same in other phrases -/

theorem limit (h : r.Rephrased r') : r'.limit = r.limit := (congrArg Report.limit h :)

theorem timeRange (h : r.Rephrased r') : r'.timeRange = r.timeRange :=
  (congrArg Report.timeRange h :)

theorem comparisons (h : r.Rephrased r') : r'.comparisons = r.comparisons :=
  (congrArg Report.comparisons h :)

theorem filters (h : r.Rephrased r') :
    r'.filters.map ReportFilter.unphrased = r.filters.map ReportFilter.unphrased :=
  (congrArg Report.filters h :)

theorem dimensions (h : r.Rephrased r') :
    r'.dimensions.map ReportDimension.unphrased = r.dimensions.map ReportDimension.unphrased :=
  (congrArg Report.dimensions h :)

theorem sort (h : r.Rephrased r') :
    r'.sort.map ReportSort.unphrased = r.sort.map ReportSort.unphrased :=
  (congrArg Report.sort h :)

theorem visibleMetrics (h : r.Rephrased r') :
    r'.visibleMetrics.map ReportMetric.unphrased =
      r.visibleMetrics.map ReportMetric.unphrased := by
  rw [← visibleMetrics_unphrased, h, visibleMetrics_unphrased]

theorem isEmpty (h : r.Rephrased r') : r'.isEmpty = r.isEmpty := by
  rw [← isEmpty_unphrased, h, isEmpty_unphrased]

theorem neededColumns (h : r.Rephrased r') : r'.neededColumns = r.neededColumns := by
  rw [← neededColumns_unphrased, h, neededColumns_unphrased]

theorem timeBound? (h : r.Rephrased r') (s : Schema) : r'.timeBound? s = r.timeBound? s := by
  rw [← timeBound?_unphrased, h, timeBound?_unphrased]

theorem queryColumns (h : r.Rephrased r') (s : Schema) : r'.queryColumns s = r.queryColumns s := by
  rw [← queryColumns_unphrased, h, queryColumns_unphrased]

theorem sortExpr? (h : r.Rephrased r') (target : SortTarget) :
    r'.sortExpr? target = r.sortExpr? target := by
  rw [← sortExpr?_unphrased, h, sortExpr?_unphrased]

theorem order (h : r.Rephrased r') : r'.order.map (·.1) = r.order.map (·.1) := by
  rw [← order_unphrased, h, order_unphrased]

theorem metricExpr (h : r.Rephrased r') {m m' : ReportMetric} (hname : m'.name = m.name)
    (hfield : m'.field = m.field) (haggregation : m'.aggregation = m.aggregation)
    (hformula : m'.formula = m.formula) : r'.metricExpr m' = r.metricExpr m := by
  have hother : r'.unphrased.metricExpr m' = r'.metricExpr m' :=
    r'.metricExpr_unphrased rfl rfl rfl rfl
  have hself := r.metricExpr_unphrased hname hfield haggregation hformula
  rw [← hother, ← hself, h]

/-- Lists are the same, element by element, where what is made of them depends on no phrase. -/
theorem map_eq {α β : Type} (f : α → α) {g : α → β} (hg : ∀ x, g (f x) = g x) {xs xs' : List α}
    (h : xs'.map f = xs.map f) : xs'.map g = xs.map g := by
  have hmap := congrArg (List.map g) h
  simpa only [List.map_map, Function.comp_def, hg] using hmap

theorem metricItems (h : r.Rephrased r') :
    r'.visibleMetrics.mapM r'.metricItem = r.visibleMetrics.mapM r.metricItem := by
  have hitem (r : Report) : r.visibleMetrics.mapM r.metricItem =
      r.unphrased.visibleMetrics.mapM r.unphrased.metricItem := by
    rw [visibleMetrics_unphrased, List.mapM_map]
    exact congrArg (List.mapM · r.visibleMetrics) (funext fun m => (r.metricItem_unphrased m).symm)
  rw [hitem, h, ← hitem]

/-! ## The query -/

theorem conditions_agree (h : r.Rephrased r') {fs fs' : List ReportFilter}
    (hfs : fs'.map ReportFilter.unphrased = fs.map ReportFilter.unphrased) :
    Agree (termPairs fs fs') (r.conditions fs) (r'.conditions fs') := by
  induction fs generalizing fs' with
  | nil =>
    rw [List.map_eq_nil_iff.mp hfs]
    exact .refl _
  | cons f fs ih =>
    obtain ⟨f', fs', rfl, hf, hrest⟩ := List.map_eq_cons_iff.mp hfs
    have hpairs : termPairs (f :: fs) (f' :: fs') = (f.term, f'.term) :: termPairs fs fs' := rfl
    have hcondition (e : Expr) : Agree (termPairs (f :: fs) (f' :: fs')) (f.condition e)
        (f'.condition e) :=
      (ReportFilter.condition_agree hf e).mono (by rw [hpairs]; simp)
    have htail : Agree (termPairs (f :: fs) (f' :: fs')) (r.conditions fs) (r'.conditions fs') :=
      (ih hrest).mono (hpairs ▸ List.subset_cons_self _ _)
    have htarget : f'.target.unphrased = f.target.unphrased := congrArg (·.target) hf
    rw [Report.conditions, Report.conditions]
    cases hft : f.target <;> cases hft' : f'.target <;> rw [hft, hft'] at htarget
    case column.column c c' =>
      cases htarget
      exact (hcondition _).bind fun e => htail.bind fun cs => .refl _
    case metric.metric m m' =>
      have hm : ({ m' with term := "", hidden := false } : ReportMetric) =
          { m with term := "", hidden := false } := FilterTarget.metric.inj htarget
      have hexpr : r'.metricExpr m' = r.metricExpr m :=
        h.metricExpr (congrArg (·.name) hm :) (congrArg (·.field) hm :)
          (congrArg (·.aggregation) hm :) (congrArg (·.formula) hm :)
      simp only [hexpr]
      exact (Agree.refl _).bind fun e => (hcondition e).bind fun e => htail.bind fun cs => .refl _
    all_goals cases htarget

theorem query_agree (h : r.Rephrased r') (s : Schema) (plan : JoinPlan)
    (time : Option (TimeColumn × DayRange)) (limit : Nat) :
    Agree (termPairs r.filters r'.filters) ((r.query s plan time limit).map (·.1))
      ((r'.query s plan time limit).map (·.1)) := by
  have hselect : r'.dimensions.map (fun d => (⟨d.expr, some d.name⟩ : SelectItem)) =
      r.dimensions.map fun d => ⟨d.expr, some d.name⟩ :=
    map_eq ReportDimension.unphrased (fun _ => rfl) h.dimensions
  have hgroups : r'.dimensions.map (·.expr) = r.dimensions.map (·.expr) :=
    map_eq ReportDimension.unphrased (fun _ => rfl) h.dimensions
  rw [query_map_fst, query_map_fst, h.metricItems, h.order, hselect, hgroups]
  exact (Agree.refl _).bind fun metrics => (h.conditions_agree h.filters).bind fun _ => .refl _

/-! ## The translation -/

theorem comparisonQueries_agree (h : r.Rephrased r') (s : Schema) (t : TranslationSettings)
    (plan : JoinPlan) : Agree (termPairs r.filters r'.filters) (r.comparisonQueries s t plan)
      (r'.comparisonQueries s t plan) := by
  unfold comparisonQueries
  rw [h.timeBound?, h.comparisons]
  split
  · next column days _ =>
    refine (Agree.mapM (fun c => ?_) _).bind fun cs => .refl _
    rw [comparisonQuery_eq, comparisonQuery_eq, h.limit]
    exact (h.query_agree s plan _ _).bind fun q => .refl _
  · exact .refl _

/-- The translations agree, their warnings and explanations aside; a filter that lacks a value fails
with its phrase. -/
theorem translate_agree (h : r.Rephrased r') (s : Schema) (t : TranslationSettings) :
    Agree (termPairs r.filters r'.filters) ((r.translate s t).map (·.bare))
      ((r'.translate s t).map (·.bare)) := by
  rw [translate_map_bare, translate_map_bare, h.isEmpty, h.neededColumns, h.queryColumns,
    h.timeBound?, h.limit]
  split
  · exact .refl _
  · exact (Agree.refl _).bind fun plan => (h.query_agree s plan _ _).bind fun q =>
      (Agree.refl _).bind fun st => (h.comparisonQueries_agree s t plan).map _

end Rephrased

end Report

/-! ## Texts that tell a phrase -/

/-- Only the end of a text is trimmed. -/
theorem trimEndChars_append {xs ys : List Char} (h : ∃ c ∈ ys, Text.isBlank c = false) :
    Text.trimEndChars (xs ++ ys) = xs ++ Text.trimEndChars ys := by
  obtain ⟨c, hc, hink⟩ := h
  have hrest : ys.reverse.dropWhile Text.isBlank ≠ [] := by
    rw [Ne, List.dropWhile_eq_nil_iff]
    intro hall
    cases hink.symm.trans (hall c (List.mem_reverse.mpr hc))
  unfold Text.trimEndChars
  rw [List.reverse_append, List.dropWhile_append, if_neg (by simpa using hrest),
    List.reverse_append, List.reverse_reverse]

/-- A text that stands between others is told by all of them. -/
theorem between_inj {before after a b : List Char} :
    before ++ a ++ after = before ++ b ++ after ↔ a = b := by
  rw [List.append_left_inj, List.append_right_inj]

namespace ReportFilter

/-- What the explanation of a filter says before the phrase. -/
def wordsBefore (f : ReportFilter) : String :=
  (match f.target with
    | .column _ => "Keep rows"
    | .metric _ => "Keep groups") ++ " where "

/-- What the explanation of a filter says behind the phrase. -/
def wordsBehind (f : ReportFilter) : String :=
  " " ++ (if f.negated then "not " else "") ++
    f.operator.name.map (fun c => if c = '_' then ' ' else c) ++ " " ++
    commaList (f.values.map Literal.display)

theorem explanation_eq (f : ReportFilter) : f.explanation =
    String.ofList (f.wordsBefore.toList ++ f.term.toList ++
      Text.trimEndChars f.wordsBehind.toList) := by
  have hoperator : (f.operator.name.map fun c => if c = '_' then ' ' else c).toList.any
      (!Text.isBlank ·) = true := by
    cases f.operator <;> decide +kernel
  have hink : ∃ c ∈ f.wordsBehind.toList, Text.isBlank c = false := by
    obtain ⟨c, hc, hink⟩ := List.any_eq_true.mp hoperator
    refine ⟨c, ?_, by simpa using hink⟩
    simp only [wordsBehind, String.toList_append, List.mem_append]
    exact .inl (.inl (.inr hc))
  have hwords : f.explanation = String.ofList (Text.trimEndChars
      (f.wordsBefore ++ f.term ++ f.wordsBehind).toList) := by
    simp only [wordsBehind, ← String.append_assoc]
    rfl
  rw [hwords, String.toList_append, String.toList_append, trimEndChars_append hink]

variable {f f' : ReportFilter}

/-- The step that explains a filter tells its phrase. -/
theorem explanation_inj (h : f'.unphrased = f.unphrased) :
    f'.explanation = f.explanation ↔ f'.term = f.term := by
  have hoperator : f'.operator = f.operator := congrArg (·.operator) h
  have hvalues : f'.values = f.values := congrArg (·.values) h
  have hnegated : f'.negated = f.negated := congrArg (·.negated) h
  have htarget : f'.target.unphrased = f.target.unphrased := congrArg (·.target) h
  have hbefore : f'.wordsBefore = f.wordsBefore := by
    unfold wordsBefore
    cases hf : f.target <;> cases hf' : f'.target <;> rw [hf, hf'] at htarget <;>
      first | rfl | cases htarget
  have hbehind : f'.wordsBehind = f.wordsBehind := by
    rw [wordsBehind, wordsBehind, hoperator, hvalues, hnegated]
  rw [explanation_eq, explanation_eq, String.ofList_inj, hbefore, hbehind, between_inj,
    String.toList_inj]

theorem map_explanation_inj {fs fs' : List ReportFilter}
    (h : fs'.map unphrased = fs.map unphrased) :
    fs'.map explanation = fs.map explanation ↔ fs'.map (·.term) = fs.map (·.term) := by
  induction fs generalizing fs' with
  | nil =>
    rw [List.map_eq_nil_iff.mp h]
    exact iff_of_true rfl rfl
  | cons f fs ih =>
    obtain ⟨f', fs', rfl, hf, hrest⟩ := List.map_eq_cons_iff.mp h
    simp only [List.map_cons, List.cons_eq_cons, explanation_inj hf, ih hrest]

end ReportFilter

/-- The warning about a sort that names nothing tells its phrase. -/
theorem sortUnknown_inj {a b : String} :
    (TranslationWarning.sortUnknown a).message = (TranslationWarning.sortUnknown b).message ↔
      a = b := by
  unfold TranslationWarning.message
  rw [← String.toList_inj]
  simp only [String.toList_append]
  rw [between_inj, String.toList_inj]

namespace Report

namespace Rephrased

variable {r r' : Report}

/-- The explanations are in the same words if the phrases of the filters agree. -/
theorem explanation_iff (h : r.Rephrased r') (plan : JoinPlan)
    (time : Option (TimeColumn × DayRange)) (limit : Nat) :
    (r'.explanation plan time limit).map PlanStep.text =
        (r.explanation plan time limit).map PlanStep.text ↔
      r'.filters.map (·.term) = r.filters.map (·.term) := by
  have hdimensions : r'.dimensions.map (·.name) = r.dimensions.map (·.name) :=
    map_eq ReportDimension.unphrased (fun _ => rfl) h.dimensions
  have hmetrics : r'.visibleMetrics.map (·.name) = r.visibleMetrics.map (·.name) :=
    map_eq ReportMetric.unphrased (fun _ => rfl) h.visibleMetrics
  have hsort : (r'.sort.map fun s => PlanStep.order s.target.name s.direction) =
      r.sort.map fun s => PlanStep.order s.target.name s.direction := by
    have hmap := congrArg
      (Option.map fun s : ReportSort => PlanStep.order s.target.name s.direction) h.sort
    rw [Option.map_map, Option.map_map] at hmap
    exact hmap
  have hsteps (r : Report) : (r.filters.map PlanStep.filter).map PlanStep.text =
      r.filters.map (·.explanation) := by
    rw [List.map_map]
    rfl
  rw [explanation, explanation, hdimensions, hmetrics, hsort]
  simp only [List.map_append, List.append_left_inj, List.append_right_inj, hsteps]
  exact ReportFilter.map_explanation_inj h.filters

/-- The order is warned about in the same words if the phrases of a sort that names nothing agree. -/
theorem order_warnings (h : r.Rephrased r') {o o' : List OrderItem}
    {ws ws' : List TranslationWarning} (ho : r.order = .ok (o, ws)) (ho' : r'.order = .ok (o', ws')) :
    ws'.map (·.message) = ws.map (·.message) ↔
      ((∃ term, .sortUnknown term ∈ ws) →
        r'.sort.map (·.term) = r.sort.map (·.term)) := by
  have hboth := h.sort
  unfold Report.order at ho ho'
  cases hs : r.sort <;> cases hs' : r'.sort <;> rw [hs, hs'] at hboth
  case none.none =>
    rw [hs] at ho
    rw [hs'] at ho'
    obtain ⟨_, -, ho⟩ := bind_eq_ok ho
    obtain ⟨_, -, ho'⟩ := bind_eq_ok ho'
    cases ho
    cases ho'
    exact iff_of_true rfl fun _ => rfl
  case some.some sort sort' =>
    rw [hs] at ho
    rw [hs'] at ho'
    have htarget : sort'.target = sort.target :=
      congrArg (·.target) (Option.some.inj hboth)
    obtain ⟨e, he, ho⟩ := bind_eq_ok ho
    obtain ⟨e', he', ho'⟩ := bind_eq_ok ho'
    rw [htarget, h.sortExpr?] at he'
    cases he.symm.trans he'
    cases e with
    | some e =>
      cases ho
      cases ho'
      exact iff_of_true rfl fun ⟨_, hin⟩ => by cases hin
    | none =>
      obtain ⟨_, -, ho⟩ := bind_eq_ok ho
      obtain ⟨_, -, ho'⟩ := bind_eq_ok ho'
      cases ho
      cases ho'
      simp [sortUnknown_inj]
  all_goals cases hboth

theorem takes (h : r.Rephrased r') (htakes : r.Takes) : r'.Takes := by
  intro f' hf'
  have hin : f'.unphrased ∈ r.filters.map ReportFilter.unphrased :=
    h.filters ▸ List.mem_map_of_mem hf'
  obtain ⟨f, hf, hsame⟩ := List.mem_map.mp hin
  have hoperator : f.operator = f'.operator := congrArg (·.operator) hsame
  have hvalues : f.values = f'.values := congrArg (·.values) hsame
  have htakes := htakes f hf
  rwa [ReportFilter.Takes, hoperator, hvalues] at htakes

/-- Where no filter lacks a value, the translations agree. -/
theorem translate_bare (h : r.Rephrased r') (htakes : r.Takes) (s : Schema)
    (t : TranslationSettings) :
    (r'.translate s t).map (·.bare) = (r.translate s t).map (·.bare) := by
  rw [← translate_unphrased (h.takes htakes), h, translate_unphrased htakes]

end Rephrased

/-- Of the warnings of a translation only those about the order are about a sort. -/
theorem sortUnknown_mem_iff {r : Report} {s : Schema} {t : TranslationSettings} {plan : JoinPlan}
    {cs : List ComparisonQuery} {ws cws : List TranslationWarning}
    (h : r.comparisonQueries s t plan = .ok (cs, cws)) (term : String) :
    .sortUnknown term ∈
        (if r.timeRange.isSome && (r.timeBound? s).isNone then [.noDateColumn] else []) ++
          t.limitWarning r.limit ++ ws ++ cws ↔ .sortUnknown term ∈ ws := by
  have hlimit : .sortUnknown term ∉ t.limitWarning r.limit := by
    unfold TranslationSettings.limitWarning
    split
    · split <;> simp
    · exact List.not_mem_nil
  have hdate : .sortUnknown term ∉ (if r.timeRange.isSome && (r.timeBound? s).isNone then
      [TranslationWarning.noDateColumn] else []) := by
    split <;> simp
  have hskipped : .sortUnknown term ∉ cws := by
    unfold comparisonQueries at h
    split at h
    · obtain ⟨_, -, h⟩ := bind_eq_ok h
      cases h
      exact List.not_mem_nil
    · cases h
      simp
  simp only [List.mem_append, hdate, hlimit, hskipped, false_or, or_false]

end Report

/-- Where one of two reports that differ in their phrases has a translation, so has the other one, and
they are the same but for two texts: the explanations are the same just if the phrases of the filters
are, and the warnings just if a sort that names nothing has the same phrase. Where one fails, the
other one fails as well, in the same way unless a filter lacks a value, which is told with its phrase
and does not happen to mapped reports. -/
theorem translate_rephrased_iff {r r' : Report} (h : r.Rephrased r') (s : Schema)
    (t : TranslationSettings) :
    (∀ x, r.translate s t = .ok x → ∃ x', r'.translate s t = .ok x' ∧ x'.bare = x.bare ∧
      (x'.explanation.map PlanStep.text = x.explanation.map PlanStep.text ↔
        r'.filters.map (·.term) = r.filters.map (·.term)) ∧
      (x'.warnings.map (·.message) = x.warnings.map (·.message) ↔
        ((∃ term, .sortUnknown term ∈ x.warnings) →
          r'.sort.map (·.term) = r.sort.map (·.term)))) ∧
    (∀ e, r.translate s t = .error e → ∃ e', r'.translate s t = .error e' ∧
      (e' = e ∨ ∃ p ∈ Report.termPairs r.filters r'.filters, ∃ reason,
        e = .invalidValue p.1 "" reason ∧ e' = .invalidValue p.2 "" reason) ∧
      (r.Takes → e' = e)) := by
  have hagree := h.translate_agree s t
  constructor
  · intro x hx
    obtain ⟨x', hx', hbare⟩ : ∃ x', r'.translate s t = .ok x' ∧ x'.bare = x.bare := by
      rw [hx] at hagree
      rcases hagree with hsame | ⟨_, _, _, herror, -⟩
      · exact map_eq_ok hsame
      · cases herror
    refine ⟨x', hx', hbare, ?_⟩
    obtain ⟨-, plan, q, ws, st, cs, cws, hplan, hq, -, hcs, rfl⟩ := Report.translate_eq_ok.mp hx
    obtain ⟨-, plan', q', ws', st', cs', cws', hplan', hq', -, hcs', rfl⟩ :=
      Report.translate_eq_ok.mp hx'
    rw [h.queryColumns] at hplan'
    cases hplan.symm.trans hplan'
    simp only [h.timeBound?, h.timeRange, h.limit]
    refine ⟨h.explanation_iff plan _ _, ?_⟩
    -- of the warnings only those about the order can tell a phrase
    obtain ⟨_, _, _, _, -, -, horder, -⟩ := Report.query_eq_ok hq
    obtain ⟨_, _, _, _, -, -, horder', -⟩ := Report.query_eq_ok hq'
    have hcws : cws' = cws := by
      rcases h.comparisonQueries_agree s t plan with hsame | ⟨_, _, _, herror, -⟩
      · rw [hcs, hcs'] at hsame
        exact congrArg Prod.snd (Except.ok.inj hsame)
      · cases hcs.symm.trans herror
    simp only [Report.sortUnknown_mem_iff hcs, hcws, List.map_append, List.append_left_inj,
      List.append_right_inj]
    exact h.order_warnings horder horder'
  · intro e he
    obtain ⟨e', he', hrest⟩ : ∃ e', r'.translate s t = .error e' ∧
        (e' = e ∨ ∃ p ∈ Report.termPairs r.filters r'.filters, ∃ reason,
          e = .invalidValue p.1 "" reason ∧ e' = .invalidValue p.2 "" reason) := by
      rw [he] at hagree
      rcases hagree with hsame | ⟨p, hp, reason, hself, hother⟩
      · obtain ⟨e', he', hsame⟩ := map_eq_error hsame
        exact ⟨e', he', .inl hsame⟩
      · obtain ⟨e', he', hsame⟩ := map_eq_error hother
        exact ⟨e', he', .inr ⟨p, hp, reason, Except.error.inj hself, hsame⟩⟩
    refine ⟨e', he', hrest, fun htakes => ?_⟩
    have hsame := h.translate_bare htakes s t
    rw [he, he'] at hsame
    exact Except.error.inj hsame

namespace Wagers

/-- The stakes of some titles, with the phrase that the titles go by. -/
def titled (term : String) : Report :=
  { metrics := [⟨"stakes", "Stake", some ⟨"Bets", "Amount"⟩, .sum, .integer, none, false⟩]
    filters := [⟨term, .column ⟨"Games", "Title"⟩, .string, .startsWith, [.text "Ch"], false⟩] }

/-- The titles are called games in one of the explanations, and titles in the other one. -/
theorem translate_rephrased_iff_titled : (titled "title").Rephrased (titled "game") ∧
    ∃ x x', (titled "title").translate schema {} = .ok x ∧
      (titled "game").translate schema {} = .ok x' ∧ x'.bare = x.bare ∧
      x'.explanation.map PlanStep.text ≠ x.explanation.map PlanStep.text := by
  have hrephrased : (titled "title").Rephrased (titled "game") := rfl
  have hok : ((titled "title").translate schema {}).isOk = true := by decide +kernel
  obtain ⟨x, hx⟩ : ∃ x, (titled "title").translate schema {} = .ok x := by
    cases h : (titled "title").translate schema {} with
    | ok x => exact ⟨x, rfl⟩
    | error e =>
      rw [h] at hok
      cases hok
  obtain ⟨x', hx', hbare, htexts, -⟩ := (translate_rephrased_iff hrephrased schema {}).1 x hx
  exact ⟨hrephrased, x, x', hx, hx', hbare, fun hsame => absurd (htexts.mp hsame) (by decide)⟩

end Wagers

end MetricLayer
