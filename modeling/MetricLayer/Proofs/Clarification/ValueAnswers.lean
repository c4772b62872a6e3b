import MetricLayer.Proofs.Clarification.Answers
import MetricLayer.Proofs.Clarification.Replaced
import MetricLayer.Proofs.Vocabulary.Term

/-!
# Answers about values

A question about the values of a filter can be settled by answers, one after another, unless the
filter is stuck: it has exactly one value and an operator that takes none, or two. The answer to a
question about the number of values is read as a list only where the values as a whole are not one
of the values, so the one value of a stuck filter is replaced by one value for ever.

Results:
1. `typeFaults_eq_nil`: what is wanted of the values of a filter.
2. `exists_value` and `exists_list`: every type and operator has values that are accepted.
3. `Suits.exists_run`: answers with nothing bad in them come to an end.
4. `Stuck.of_run`: no answers help a filter that is stuck.
5. `value_questions`: a question about values can be settled if and only if the filter is not stuck.
-/

namespace MetricLayer

theorem Literal.coerce_trim (type : DataType) (raw : String) :
    coerce type (Text.trim raw) = coerce type raw := by
  unfold coerce
  rw [Text.trim_trim]

theorem Conflict.idTail_inj {t t' v v' : String} (h : idTail t (some v) = idTail t' (some v')) :
    Term.ofPhrase t = Term.ofPhrase t' ∧ Text.trim v = Text.trim v' := by
  have hlist := congrArg String.toList h
  simp only [idTail, String.toList_append] at hlist
  obtain ⟨hterm, hvalue⟩ := append_bar_inj (Term.bar_notMem t) (Term.bar_notMem t') hlist
  exact ⟨String.toList_inj.mp hterm, String.toList_inj.mp hvalue⟩

/-- An operator takes one value, or it is a range, or it takes no value. -/
theorem Operator.takes_cases (op : Operator) :
    op.takes 1 = true ∨ op = .between ∨ (op.takes 0 = true ∧ op.takes 1 = false) := by
  cases op <;> decide

namespace Mapping

open Draft

variable {ctx : Context}

/-! ## Values that are accepted -/

namespace Context

/-- The operator that the word of a filter names, before its values are counted. -/
def namedOperator (f : FilterMention) : Operator := (Operator.ofText? f.operator).getD .equals

theorem operatorOf_eq {f : FilterMention} (h : f.value.toList.length ≤ 1) :
    operatorOf f = namedOperator f := by
  unfold operatorOf FilterMention.operator? namedOperator
  rw [funext fun op => if_neg (Nat.not_lt.mpr h), Option.map_id']

/-- A list of values changes equality only, which takes one value. -/
theorem operatorOf_of_many {f : FilterMention} (h : (namedOperator f).takes 1 = false) :
    operatorOf f = namedOperator f := by
  unfold namedOperator at h
  unfold operatorOf FilterMention.operator? namedOperator
  cases hop : Operator.ofText? f.operator with
  | none => rfl
  | some op =>
    rw [hop] at h
    cases op <;> first | exact absurd h (by decide) | simp

/-- The operator depends on the number of values only. -/
theorem operatorOf_congr {f : FilterMention} {value : FilterValues}
    (h : value.toList.length = f.value.toList.length) :
    operatorOf { f with value } = operatorOf f := by
  simp only [operatorOf, FilterMention.operator?, h]

theorem typeFaults_eq_nil {f : FilterMention} {type : DataType} :
    typeFaults f type = [] ↔ (operatorOf f).takes f.value.toList.length = true ∧
      ∀ v ∈ f.value.toList, ∃ x, Literal.coerce (valueType (operatorOf f) type) v = .ok x := by
  unfold typeFaults
  split
  · next htakes =>
    rw [valueConflicts, List.filterMap_eq_nil_iff]
    simp only [htakes, true_and]
    refine forall₂_congr fun v _ => ?_
    cases Literal.coerce (valueType (operatorOf f) type) v with
    | ok x => simp
    | error e => simp
  · next htakes => simp [htakes]

theorem typeFaults_of_not_takes {f : FilterMention} {type : DataType}
    (h : (operatorOf f).takes f.value.toList.length = false) :
    typeFaults f type = [arityConflict f (operatorOf f)] := by
  rw [typeFaults, h]
  rfl

end Context

/-- Texts without commas and without blanks around them. -/
structure Plain (g : String) : Prop where
  trim : Text.trim g = g
  one : FilterValues.splitCommas g = [g]
  two : FilterValues.splitCommas (g ++ ", " ++ g) = [g, g]
  trim_two : Text.trim (g ++ ", " ++ g) = g ++ ", " ++ g
  ne : g ≠ ""

/-- Two texts that are values of the type. -/
def plainPair : DataType → String × String
  | .date | .timestamp => ("2024-01-01", "2024-01-02")
  | _ => ("1", "0")

theorem plainPair_plain (type : DataType) :
    Plain (plainPair type).1 ∧ Plain (plainPair type).2 := by
  have hdays : Plain "2024-01-01" ∧ Plain "2024-01-02" := by
    constructor <;> constructor <;> decide +kernel
  have hdigits : Plain "1" ∧ Plain "0" := by
    constructor <;> constructor <;> decide +kernel
  cases type <;> first | exact hdays | exact hdigits

theorem plainPair_coerce (type : DataType) :
    (∃ x, Literal.coerce type (plainPair type).1 = .ok x) ∧
      ∃ x, Literal.coerce type (plainPair type).2 = .ok x := by
  have hok {r : Except LiteralError Literal} (h : r.toOption.isSome = true) : ∃ x, r = .ok x := by
    cases r with
    | ok x => exact ⟨x, rfl⟩
    | error e => cases h
  cases type <;> exact ⟨hok (by decide +kernel), hok (by decide +kernel)⟩

/-- Every type has a value that neither is a given text nor is it when written twice. -/
theorem exists_value (type : DataType) (taken : String) :
    ∃ g, Plain g ∧ (∃ x, Literal.coerce type g = .ok x) ∧ g ≠ taken ∧ g ++ ", " ++ g ≠ taken := by
  obtain ⟨hplain, hplain'⟩ := plainPair_plain type
  obtain ⟨hcoerce, hcoerce'⟩ := plainPair_coerce type
  by_cases htaken : (plainPair type).1 ≠ taken ∧
      (plainPair type).1 ++ ", " ++ (plainPair type).1 ≠ taken
  · exact ⟨_, hplain, hcoerce, htaken⟩
  · refine ⟨_, hplain', hcoerce', ?_⟩
    have hapart : ∀ a ∈ [(plainPair type).1, (plainPair type).1 ++ ", " ++ (plainPair type).1],
        (plainPair type).2 ≠ a ∧ (plainPair type).2 ++ ", " ++ (plainPair type).2 ≠ a := by
      cases type <;> decide
    refine hapart taken ?_
    by_cases hfirst : (plainPair type).1 = taken
    · simp [hfirst]
    · simp only [ne_eq, hfirst, not_false_iff, true_and, not_not] at htaken
      simp [htaken]

theorem trim_text_ne {v : FilterValues} (h : 1 < v.toList.length) : Text.trim v.text ≠ "" := by
  intro hblank
  have hinked : inked v.text = 0 := by
    rw [← inked_trim, hblank]
    rfl
  rw [FilterValues.text, inked_text] at hinked
  omega

open FilterValues Context in
theorem typeFaults_ofList {f : FilterMention} {type : DataType} {xs : List String} {op : Operator}
    (hop : operatorOf { f with value := ofList xs } = op) (htakes : op.takes xs.length = true)
    (hcoerce : ∀ x ∈ xs, ∃ v, Literal.coerce (valueType op type) x = .ok v) :
    typeFaults { f with value := ofList xs } type = [] := by
  subst hop
  exact typeFaults_eq_nil.mpr (by simpa only [toList_ofList] using ⟨htakes, hcoerce⟩)

open FilterValues Context in
/-- Where the number of values is wrong and is not one, the values as a whole can be replaced by
some that are accepted, and that do not contain the text of the old ones. -/
theorem exists_list {f : FilterMention} (hno : (operatorOf f).takes f.value.toList.length = false)
    (hone : f.value.toList.length ≠ 1) (type : DataType) :
    ∃ answer, Text.trim answer = answer ∧ answer ≠ "" ∧
      Mends (fun x => Text.trim x = Text.trim f.value.text) answer ∧
      typeFaults { f with value := ofList (splitCommas answer) } type = [] := by
  obtain ⟨g, hplain, hcoerce, hg, htwo⟩ :=
    exists_value (valueType (namedOperator f) type) (Text.trim f.value.text)
  have hg' : Text.trim g ≠ Text.trim f.value.text := by rw [hplain.trim]; exact hg
  have htwo' : Text.trim (g ++ ", " ++ g) ≠ Text.trim f.value.text := by
    rw [hplain.trim_two]
    exact htwo
  have hnamed (value : FilterValues) (h : (namedOperator f).takes 1 = false) :
      operatorOf { f with value } = namedOperator f :=
    operatorOf_of_many (f := { f with value }) h
  rcases Operator.takes_cases (namedOperator f) with htakes | hbetween | hnull
  case inl =>
    have hop : operatorOf { f with value := ofList [g] } = namedOperator f :=
      operatorOf_eq (by simp)
    refine ⟨g, hplain.trim, hplain.ne, ?_, ?_⟩
    · constructor <;> simp only [hplain.one, decide_eq_false_iff_not]
      · exact hg'
      · simpa using hg'
      · exact hg'
    · rw [hplain.one]
      exact typeFaults_ofList hop htakes (by simpa using hcoerce)
  case inr.inl =>
    refine ⟨g ++ ", " ++ g, hplain.trim_two, by simp [hplain.ne], ?_, ?_⟩
    · constructor <;> simp only [hplain.two, decide_eq_false_iff_not]
      · exact htwo'
      · simpa using hg'
      · exact htwo'
    · rw [hplain.two]
      exact typeFaults_ofList (hnamed _ (by rw [hbetween]; rfl)) (by rw [hbetween]; rfl)
        (by simpa using hcoerce)
  -- operators that take no value
  have hlength : 1 < f.value.toList.length := by
    by_contra hfew
    have hzero : f.value.toList.length = 0 := by omega
    rw [operatorOf_eq (by omega), hzero, hnull.1] at hno
    cases hno
  have htext : Text.trim "" ≠ Text.trim f.value.text := fun h => trim_text_ne hlength (h ▸ rfl)
  have hcomma (answer : String) (h : splitCommas answer = []) (htrim : Text.trim answer = answer)
      (hother : answer ≠ Text.trim f.value.text) :
      Mends (fun x => Text.trim x = Text.trim f.value.text) answer ∧
        typeFaults { f with value := ofList (splitCommas answer) } type = [] := by
    constructor
    · constructor <;> simp only [h, decide_eq_false_iff_not]
      · rw [htrim]
        exact hother
      · simp
      · exact htext
    · rw [h]
      exact typeFaults_ofList (hnamed _ hnull.2) hnull.1 (by simp)
  by_cases hsame : "," = Text.trim f.value.text
  · exact ⟨",,", by decide, by decide,
      hcomma ",," (by decide +kernel) (by decide) (by rw [← hsame]; decide)⟩
  · exact ⟨",", by decide, by decide, hcomma "," (by decide +kernel) (by decide) hsame⟩

/-! ## Filters that are stuck -/

/-- The filter has one value, and its operator does not take one. -/
structure Stuck (f : FilterMention) : Prop where
  one : f.value.toList.length = 1
  refused : (Context.operatorOf f).takes 1 = false

namespace Stuck

variable {f : FilterMention}

theorem revalue (h : Stuck f) (term refused answer : String) :
    Stuck (Request.revalue term refused answer f) := by
  have hone := Request.revalue_one h.one term refused answer
  obtain ⟨value, heq⟩ := Request.revalue_eq term refused answer f
  rw [heq] at hone ⊢
  exact ⟨hone, by rw [Context.operatorOf_congr (hone.trans h.one.symm), h.refused]⟩

/-- A filter that is stuck is never mapped. -/
theorem mapFilter_eq_none (h : Stuck f) (d : Draft) : (ctx.mapFilter f d).2 = none := by
  cases hresolve : ctx.resolveField .filter .dimension f.field f.confidence f.pinned with
  | error c =>
    rw [Context.mapFilter, hresolve]
  | ok entry =>
    obtain ⟨kind, name⟩ := entry
    rw [mapFilter_eq hresolve]
    generalize ctx.filterTarget f kind name (Context.warnOperator f d) = found
    obtain ⟨d', found⟩ := found
    cases found with
    | none => rfl
    | some found => simp only [h.one, h.refused, Bool.not_false, if_true]

end Stuck

/-! ## Questions about the values of a filter -/

/-- The conflict was raised about the values of the filter at a place, and is open. -/
structure Context.AsksValue (ctx : Context) (round : Round) (i : Nat) (c : Conflict) : Prop where
  isOpen : c ∈ round.request.conflicts
  kind : c.kind = .invalidValue
  found : c.reported = false
  about : ∃ f, round.request.filters[i]? = some f ∧ ∃ c' ∈ ctx.faults f, c'.id = c.id

/-- Rounds from one to another, in each of which one question about the values of the filter at a
place is answered. -/
inductive Context.ValueRun (ctx : Context) (i : Nat) : Round → Round → Prop
  | refl (round : Round) : ValueRun ctx i round round
  | answer {round next last : Round} {c : Conflict} {answer : String} :
      ctx.AsksValue round i c → Text.trim answer ≠ "" →
      ctx.apply round.request [(c.id, answer)] = .ok next → ValueRun ctx i next last →
      ValueRun ctx i round last

theorem raised_value (hvalid : ctx.IsValid) {r : Request} {c : Conflict} (h : ctx.Raised r c)
    (hkind : c.kind = .invalidValue) : ∃ f ∈ r.filters, c ∈ ctx.faults f := by
  have hsource := h.source hvalid
  simpa only [Context.Source, hkind] using hsource

namespace Context.AsksValue

variable {r : Request} {round : Round} {i : Nat} {c : Conflict}

/-- The refused value is one of a filter of the term. -/
theorem touches (hvalid : ctx.IsValid) (hround : round.Of ctx r) (h : ctx.AsksValue round i c) :
    ∃ f ∈ round.request.filters, Request.Touches c.term (c.value.getD "") f := by
  obtain ⟨f, hf, hc⟩ := raised_value hvalid (raised_of_open hround h.isOpen h.found) h.kind
  have hrefuses := faults_refuse hc
  refine ⟨f, by rw [hround.request]; exact hf, ?_, hrefuses.value.imp_right Eq.symm⟩
  exact Request.sameTerm_iff.mpr (by rw [hrefuses.about])

/-- The filter at the place has the term and, without blanks around it, the refused value. -/
theorem same (hvalid : ctx.IsValid) (hround : round.Of ctx r) (h : ctx.AsksValue round i c)
    {f : FilterMention} (hf : round.request.filters[i]? = some f) :
    sameTerm f.field c.term = true ∧
      ∃ c' ∈ ctx.faults f, Text.trim (c.value.getD "") = Text.trim (c'.value.getD "") := by
  obtain ⟨f', hf', c', hc', hid⟩ := h.about
  obtain rfl := Option.some.inj (hf.symm.trans hf')
  obtain ⟨g, -, hc⟩ := raised_value hvalid (raised_of_open hround h.isOpen h.found) h.kind
  have hrefuses := faults_refuse hc
  rw [hrefuses.id, (faults_refuse hc').id] at hid
  obtain ⟨hterm, hvalue⟩ := Conflict.idTail_inj (Conflict.idOf_inj hid).2.2
  exact ⟨Request.sameTerm_iff.mpr (by rw [hterm, hrefuses.about]), c', hc', hvalue.symm⟩

/-- An answer to the question replaces the refused value in all filters of the term. -/
theorem apply_filters (hround : round.Of ctx r) (h : ctx.AsksValue round i c) {answer : String}
    (hanswer : Text.trim answer ≠ "") {next : Round}
    (hnext : ctx.apply round.request [(c.id, answer)] = .ok next) :
    next.request.filters = round.request.filters.map
      (Request.revalue c.term (c.value.getD "") (Text.trim answer)) := by
  have hfilters : (Answered.step round.request.conflicts { request := round.request }
      (c.id, answer)).request.filters = round.request.filters.map
        (Request.revalue c.term (c.value.getD "") (Text.trim answer)) := by
    have hrespond : round.request.respond c answer =
        round.request.replaceValues c (Text.trim answer) := by
      unfold Request.respond
      simp only [h.kind]
      rw [if_neg (by simpa using hanswer)]
    rw [← Request.replaceValues_filters, ← hrespond]
    rcases Answered.step_cases round.request.conflicts { request := round.request } (c.id, answer)
      with ⟨hnone, -⟩ | ⟨c', hc', hid, hstep⟩
    · exact absurd rfl (hnone c h.isOpen)
    · obtain rfl := open_unique hround h.isOpen hc' hid
      rcases hstep with ⟨-, hstep⟩ | ⟨e, -, hstep⟩ <;> rw [hstep]
  rw [Context.apply_eq_ok hnext, (continued_of ctx round.request _).request]
  exact hfilters

end Context.AsksValue

/-- The answer suits every question about filters with the property: what is asked about is bad,
nothing in the answer is, and the property stays. -/
structure Context.Suits (ctx : Context) (bad : String → Bool) (answer : String)
    (P : FilterMention → Prop) : Prop where
  mends : Mends bad answer
  trim : Text.trim answer = answer
  notBlank : answer ≠ ""
  step : ∀ f, P f → ∀ c ∈ ctx.faults f, ∀ term refused, sameTerm f.field term = true →
    Text.trim refused = Text.trim (c.value.getD "") →
    bad refused = true ∧ P (Request.revalue term refused answer f)

/-- Answers that suit come to an end, at which no question about the values of the filter is
open. -/
theorem Context.Suits.exists_run (hvalid : ctx.IsValid) {bad : String → Bool} {answer : String}
    {P : FilterMention → Prop} (h : ctx.Suits bad answer P) {i : Nat} {round : Round}
    (hround : ctx.HandsOut round) {f : FilterMention} (hf : round.request.filters[i]? = some f)
    (hPf : P f) :
    ∃ last f', ctx.HandsOut last ∧ ctx.ValueRun i round last ∧ (∀ c, ¬ ctx.AsksValue last i c) ∧
      last.request.filters[i]? = some f' ∧ P f' := by
  -- every answer leaves less that is bad
  induction hn : (round.request.filters.map (·.burden bad)).sum using Nat.strong_induction_on
    generalizing round f with
  | _ n ih =>
    by_cases hask : ∃ c, ctx.AsksValue round i c
    case neg => exact ⟨round, f, hround, .refl round, not_exists.mp hask, hf, hPf⟩
    obtain ⟨c, hask⟩ := hask
    obtain ⟨r, hof⟩ := hround.of
    have hanswer : Text.trim answer ≠ "" := by rw [h.trim]; exact h.notBlank
    have hnext := Context.apply_isOk rfl hof [(c.id, answer)]
    have hfilters := hask.apply_filters hof hanswer hnext
    rw [h.trim] at hfilters
    obtain ⟨hterm, c', hc', hvalue⟩ := hask.same hvalid hof hf
    obtain ⟨hbad, hPf'⟩ := h.step f hPf c' hc' c.term (c.value.getD "") hterm hvalue
    have hless := Request.burden_lt hbad h.mends (hask.touches hvalid hof)
    rw [← hfilters, hn] at hless
    obtain ⟨last, f', hlast, hrun, hrest⟩ :=
      ih _ hless (.apply hnext) (by rw [hfilters, List.getElem?_map, hf]; rfl) hPf' rfl
    exact ⟨last, f', hlast, .answer hask hanswer hnext hrun, hrest⟩

/-- The type that the values of a filter are compared with does not depend on them. -/
theorem filterType?_value (f : FilterMention) (value : FilterValues) :
    ctx.filterType? { f with value } = ctx.filterType? f := by
  simp only [Context.filterType?]

theorem faults_of_type {f : FilterMention} {type : DataType} (h : ctx.filterType? f = some type) :
    ctx.faults f = Context.typeFaults f type := by
  rw [Context.faults, h, Option.map_some, Option.getD_some]

/-- Where the number of values is right, a value of the type suits. -/
theorem suits_value {f : FilterMention} {type : DataType} (htype : ctx.filterType? f = some type)
    (htakes : (Context.operatorOf f).takes f.value.toList.length = true) :
    ∃ bad answer P, ctx.Suits bad answer P ∧ P f ∧
      ∀ f', P f' → ctx.filterType? f' = some type := by
  obtain ⟨g, hplain, ⟨x, hcoerce⟩, -⟩ :=
    exists_value (Context.valueType (Context.operatorOf f) type) ""
  let P (f' : FilterMention) : Prop := ∃ value : FilterValues,
    f' = { f with value } ∧ value.toList.length = f.value.toList.length
  refine ⟨fun x => x ≠ g, g, P, ⟨?_, hplain.trim, hplain.ne, ?_⟩, ⟨f.value, rfl, rfl⟩, ?_⟩
  case refine_1 => constructor <;> simp [hplain.one, FilterValues.text_of_one]
  case refine_3 =>
    rintro _ ⟨value, rfl, -⟩
    rw [filterType?_value, htype]
  rintro _ ⟨value, rfl, hlength⟩ c hc term refused hterm hrefused
  have hop := Context.operatorOf_congr hlength
  rw [faults_of_type ((filterType?_value f value).trans htype)] at hc
  rcases typeFaults_cases hc with ⟨v, hv, e, herror, rfl⟩ | ⟨hno, -⟩
  case inr =>
    simp only [hop, hlength, htakes, Bool.true_eq_false] at hno
  have hsame : Text.trim refused = Text.trim v := hrefused
  constructor
  · -- the accepted value is not among those that are refused
    have hne : refused ≠ g := by
      rintro rfl
      rw [hop, ← Literal.coerce_trim, ← hsame, Literal.coerce_trim, hcoerce] at herror
      cases herror
    simpa using hne
  · rcases Request.revalue_cases term refused g { f with value } with
      ⟨-, -, h⟩ | ⟨-, hnot, htext, -⟩ | ⟨-, h⟩
    · exact ⟨_, h, by rw [FilterValues.toList_ofList, List.length_map, hlength]⟩
    · -- a value that is refused is not the text of several
      subst htext
      by_cases hone : value.toList.length = 1
      · exact absurd (FilterValues.text_mem hone) hnot
      · have hv : v ∈ value.toList := hv
        have hpos := List.length_pos_of_mem hv
        exact absurd hsame.symm (trim_ne_text (v := value) (by omega) hv)
    · exact ⟨value, h, hlength⟩

/-- Where the number of values is wrong and is not one, a list of values suits. -/
theorem suits_list {f : FilterMention} {type : DataType} (htype : ctx.filterType? f = some type)
    (hno : (Context.operatorOf f).takes f.value.toList.length = false)
    (hone : f.value.toList.length ≠ 1) :
    ∃ bad answer P, ctx.Suits bad answer P ∧ P f ∧
      ∀ f', P f' → ctx.filterType? f' = some type := by
  obtain ⟨answer, htrim, hanswer, hmends, hnil⟩ := exists_list hno hone type
  let settled : FilterMention := { f with value := .ofList (FilterValues.splitCommas answer) }
  have hsettled : ctx.faults settled = [] := by
    rw [faults_of_type ((filterType?_value f _).trans htype)]
    exact hnil
  refine ⟨_, answer, fun f' => f' = f ∨ f' = settled, ⟨hmends, htrim, hanswer, ?_⟩, .inl rfl, ?_⟩
  case refine_2 =>
    rintro _ (rfl | rfl)
    · exact htype
    · exact (filterType?_value f _).trans htype
  rintro f' (rfl | rfl) c hc term refused hterm hrefused
  case inr =>
    rw [hsettled] at hc
    cases hc
  obtain rfl : c = Context.arityConflict f' (Context.operatorOf f') := by
    rw [faults_of_type htype, Context.typeFaults_of_not_takes hno] at hc
    exact List.mem_singleton.mp hc
  have hsame : Text.trim refused = Text.trim f'.value.text := hrefused
  refine ⟨by simpa using hsame, ?_⟩
  rcases Request.revalue_cases term refused answer f' with
    ⟨-, hin, -⟩ | ⟨-, -, -, h⟩ | ⟨-, h⟩
  · have hpos := List.length_pos_of_mem hin
    exact absurd hsame (trim_ne_text (by omega) hin)
  · exact .inr h
  · exact .inl h

/-! ## Questions that can be settled -/

/-- The filter is mapped, or conflicts that came with the request stand where it would be asked
about. -/
def Context.Settled (ctx : Context) (round : Round) (f : FilterMention) : Prop :=
  (∃ target type, ctx.filterType? f = some type ∧
    Context.filterOf f target type ∈ round.outcome.report.filters) ∨
  ∀ c ∈ ctx.faults f, ∃ c' ∈ round.request.conflicts, c'.id = c.id ∧ c'.reported = true

/-- What is wrong with the values of a filter is asked about, or stands in the conflicts that came
with the request. -/
theorem asksValue_of_fault (hvalid : ctx.IsValid) {r : Request} {round : Round}
    (hround : round.Of ctx r) {i : Nat} {f : FilterMention}
    (hf : round.request.filters[i]? = some f) {c : Conflict} (hc : c ∈ ctx.faults f) :
    ∃ c' ∈ round.request.conflicts, c'.id = c.id ∧
      (c'.reported = true ∨ ctx.AsksValue round i c') := by
  have hmem : f ∈ r.filters := by
    have hin := List.mem_of_getElem? hf
    rwa [hround.request] at hin
  obtain ⟨c', hc', hid⟩ := exists_open_fault hvalid hmem hc
  have hopen : c' ∈ round.request.conflicts := by
    rw [hround.request, hround.outcome]
    exact hc'
  refine ⟨c', hopen, hid, ?_⟩
  cases hreported : c'.reported with
  | true => exact .inl rfl
  | false =>
    obtain ⟨term, value, hid'⟩ := (raised_of_open hround hopen hreported).id_eq hvalid
    have hkind := (Conflict.idOf_inj (hid'.symm.trans (hid.trans (faults_refuse hc).id))).1
    exact .inr ⟨hopen, hkind, hreported, f, hf, c, hc, hid.symm⟩

theorem settled_of_none (hvalid : ctx.IsValid) {r : Request} {round : Round}
    (hround : round.Of ctx r) {i : Nat} {f : FilterMention}
    (hf : round.request.filters[i]? = some f) {type : DataType}
    (htype : ctx.filterType? f = some type) (hnone : ∀ c, ¬ ctx.AsksValue round i c) :
    ctx.Settled round f := by
  by_cases hnil : ctx.faults f = []
  · have hmem : f ∈ r.filters := by
      have hin := List.mem_of_getElem? hf
      rwa [hround.request] at hin
    obtain ⟨target, hmapped⟩ := exists_mapped hvalid hmem htype hnil
    exact .inl ⟨target, type, htype, hround.outcome ▸ hmapped⟩
  · refine .inr fun c hc => ?_
    obtain ⟨c', hopen, hid, hreported⟩ := asksValue_of_fault hvalid hround hf hc
    exact ⟨c', hopen, hid, hreported.resolve_right (hnone c')⟩

/-- No answers help a filter that is stuck. -/
theorem Stuck.of_run {i : Nat} {first last : Round} (h : ctx.ValueRun i first last)
    (hround : ctx.HandsOut first) {f : FilterMention} {type : DataType}
    (hf : first.request.filters[i]? = some f) (htype : ctx.filterType? f = some type)
    (hstuck : Stuck f) :
    ctx.HandsOut last ∧ ∃ f', last.request.filters[i]? = some f' ∧ Stuck f' ∧
      ctx.filterType? f' = some type := by
  induction h generalizing f with
  | refl => exact ⟨hround, f, hf, hstuck, htype⟩
  | @answer round next last c answer hask hanswer hnext _ ih =>
    obtain ⟨r, hof⟩ := hround.of
    have hfilters := hask.apply_filters hof hanswer hnext
    refine ih (.apply hnext) (f := Request.revalue c.term (c.value.getD "") (Text.trim answer) f)
      (by rw [hfilters, List.getElem?_map, hf]; rfl) ?_ (hstuck.revalue _ _ _)
    obtain ⟨value, heq⟩ := Request.revalue_eq c.term (c.value.getD "") (Text.trim answer) f
    rw [heq, filterType?_value, htype]

/-- A question about values that was raised is about a filter, and answers to the questions about
that filter settle it if and only if the filter is not stuck: if it is, then in every round that
answers lead to it still has one value, is not mapped, and its question is open. -/
theorem value_questions (hvalid : ctx.IsValid) {round : Round} (hround : ctx.HandsOut round)
    {c : Conflict} (hopen : c ∈ round.request.conflicts) (hkind : c.kind = .invalidValue)
    (hfound : c.reported = false) :
    (∃ i, ctx.AsksValue round i c) ∧
      ∀ i f, ctx.AsksValue round i c → round.request.filters[i]? = some f →
        (¬ Stuck f → ∃ last f', ctx.ValueRun i round last ∧
          (∀ c', ¬ ctx.AsksValue last i c') ∧ last.request.filters[i]? = some f' ∧
          ctx.Settled last f') ∧
        (Stuck f → ∀ last, ctx.ValueRun i round last →
          ∃ f', last.request.filters[i]? = some f' ∧ Stuck f' ∧
            (∀ d, (ctx.mapFilter f' d).2 = none) ∧
            ∃ c' ∈ last.request.conflicts,
              c'.id = (Context.arityConflict f' (Context.operatorOf f')).id ∧
              (c'.reported = true ∨ ctx.AsksValue last i c')) := by
  obtain ⟨r, hof⟩ := hround.of
  constructor
  · obtain ⟨f, hf, hc⟩ := raised_value hvalid (raised_of_open hof hopen hfound) hkind
    rw [show r.filters = round.request.filters by rw [hof.request]] at hf
    obtain ⟨i, hi⟩ := List.mem_iff_getElem?.mp hf
    exact ⟨i, hopen, hkind, hfound, f, hi, c, hc, rfl⟩
  intro i f hask hf
  obtain ⟨f', hf', c', hc', -⟩ := hask.about
  obtain rfl := Option.some.inj (hf.symm.trans hf')
  obtain ⟨type, htype, -⟩ := faults_cases hc'
  constructor
  · intro hstuck
    have hsuits : ∃ bad answer P, ctx.Suits bad answer P ∧ P f ∧
        ∀ f', P f' → ctx.filterType? f' = some type := by
      by_cases htakes : (Context.operatorOf f).takes f.value.toList.length = true
      · exact suits_value htype htakes
      · rw [Bool.not_eq_true] at htakes
        exact suits_list htype htakes fun hone => hstuck ⟨hone, hone ▸ htakes⟩
    obtain ⟨bad, answer, P, hsuits, hP, hPtype⟩ := hsuits
    obtain ⟨last, f', hlast, hrun, hnone, hf', hPf'⟩ := hsuits.exists_run hvalid hround hf hP
    obtain ⟨r', hof'⟩ := hlast.of
    exact ⟨last, f', hrun, hnone, hf',
      settled_of_none hvalid hof' hf' (hPtype f' hPf') hnone⟩
  · intro hstuck last hrun
    obtain ⟨hlast, f', hf', hstuck', htype'⟩ := Stuck.of_run hrun hround hf htype hstuck
    obtain ⟨r', hof'⟩ := hlast.of
    refine ⟨f', hf', hstuck', hstuck'.mapFilter_eq_none, asksValue_of_fault hvalid hof' hf' ?_⟩
    rw [faults_of_type htype', Context.typeFaults_of_not_takes (hstuck'.one.symm ▸ hstuck'.refused)]
    exact List.mem_singleton_self _

end Mapping

namespace Wagers

/-- The turnover by title, with two ranges of titles: one with a single title, and one with three. -/
def ranges : Request :=
  { request "Ch" with
    filters :=
      [{ field := "title", operator := "between", value := .one "Ch", pinned := some "Title" },
        { field := "title", operator := "between", value := .many ["Ch", "Go", "Ludo"]
          pinned := some "Title" }] }

/-- Whatever is answered, the range with a single title is not mapped; the other one can be
settled. -/
theorem value_questions_ranges :
    context.IsValid ∧ (context.begin ranges).request.conflicts.map (·.id) =
        ["invalid_value|filter|title|Ch", "invalid_value|filter|title|Ch, Go, Ludo"] ∧
      (∀ last, context.ValueRun 0 (context.begin ranges) last →
        ∃ f, last.request.filters[0]? = some f ∧ Mapping.Stuck f ∧
          ∀ d, (context.mapFilter f d).2 = none) ∧
      ∃ last f, context.ValueRun 1 (context.begin ranges) last ∧
        last.request.filters[1]? = some f ∧ context.Settled last f := by
  have hvalid : context.IsValid := by
    unfold Mapping.Context.IsValid
    decide +kernel
  obtain ⟨hids, hopen, hfirst, hsecond⟩ :
      (context.begin ranges).request.conflicts.map (·.id) =
        ["invalid_value|filter|title|Ch", "invalid_value|filter|title|Ch, Go, Ludo"] ∧
      (∀ c ∈ (context.begin ranges).request.conflicts,
        c.kind = .invalidValue ∧ c.reported = false) ∧
      (∃ c ∈ (context.begin ranges).request.conflicts,
        ∃ c' ∈ context.faults ranges.filters[0], c'.id = c.id) ∧
      ∃ c ∈ (context.begin ranges).request.conflicts,
        ∃ c' ∈ context.faults ranges.filters[1], c'.id = c.id := by decide +kernel
  refine ⟨hvalid, hids, ?_, ?_⟩
  · obtain ⟨c, hc, hfault⟩ := hfirst
    obtain ⟨hkind, hfound⟩ := hopen c hc
    obtain ⟨-, hall⟩ := Mapping.value_questions hvalid (.begin ranges) hc hkind hfound
    have hstuck : Mapping.Stuck ranges.filters[0] := ⟨by decide, by decide +kernel⟩
    intro last hrun
    obtain ⟨f, hf, hstuck', hnone, -⟩ :=
      (hall 0 _ ⟨hc, hkind, hfound, _, rfl, hfault⟩ rfl).2 hstuck last hrun
    exact ⟨f, hf, hstuck', hnone⟩
  · obtain ⟨c, hc, hfault⟩ := hsecond
    obtain ⟨hkind, hfound⟩ := hopen c hc
    obtain ⟨-, hall⟩ := Mapping.value_questions hvalid (.begin ranges) hc hkind hfound
    have hfree : ¬ Mapping.Stuck ranges.filters[1] := fun hstuck => absurd hstuck.one (by decide)
    obtain ⟨last, f, hrun, -, hf, hsettled⟩ :=
      (hall 1 _ ⟨hc, hkind, hfound, _, rfl, hfault⟩ rfl).1 hfree
    exact ⟨last, f, hrun, hf, hsettled⟩

end Wagers

end MetricLayer
