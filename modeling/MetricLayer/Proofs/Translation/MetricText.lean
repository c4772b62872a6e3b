import MetricLayer.Proofs.Report.Mapping
import MetricLayer.Proofs.Translation.Metric

/-!
# The text of every metric of a report

`Report.IsFaithful` says that a database reads the text of a metric as arithmetic with the value of
the metric. A metric is faithful if every reference in it can stand where it stands, and two levels
of references are already enough to miss the value where one cannot.

Results:
1. `Report.Mapped.exists_valuation`: the metrics of a report have a meaning.
2. `Report.Mapped.splices_isFaithful`: the metrics whose text is right.
3. `Report.Nests.isFaithful_left` and `isFaithful_right`: `takesLeft` and `takesRight` are exact.
4. `metric_text`: all of it for the reports of the mapping.
-/

namespace MetricLayer

/-! ## Values of expressions -/

/-- The value of an expression that is arithmetic, given those of the aggregates. -/
def Expr.result (aggregates : Aggregation → Field → Option Rat) : Expr → Option Rat
  | aggregate a (.field c) => aggregates a c
  | number x => some (numeral x)
  | binary a .plus b => ArithOp.add.apply (a.result aggregates) (b.result aggregates)
  | binary a .minus b => ArithOp.sub.apply (a.result aggregates) (b.result aggregates)
  | binary a .mul b => ArithOp.mul.apply (a.result aggregates) (b.result aggregates)
  | binary a .div b => ArithOp.div.apply (a.result aggregates) (b.result aggregates)
  | nullIfZero e => (e.result aggregates).filter fun x => decide (x ≠ 0)
  | nested e => e.result aggregates
  | _ => none

namespace Formula

variable {ε : Type} {aggregates : Aggregation → Field → Option Rat}

theorem result_expr (op : ArithOp) (a b : Expr) :
    (op.expr a b).result aggregates = op.apply (a.result aggregates) (b.result aggregates) := by
  cases op with
  | div => rw [ArithOp.expr, Expr.result, Expr.result, apply_filter]
  | add | sub | mul => rfl

/-- The expression of a formula has the value of the formula. -/
theorem toExpr_result {f : Formula} {reference : String → Except ε Expr} {v : String → Option Rat}
    {e : Expr}
    (href : ∀ name ∈ f.names, ∀ e, reference name = .ok e → v name = e.result aggregates)
    (h : f.toExpr reference = .ok e) : e.result aggregates = f.value v := by
  induction f generalizing e with
  | metric name => exact (href name (by simp [names]) e h).symm
  | number x =>
    cases h
    rfl
  | group inner ih =>
    obtain ⟨e', he', h⟩ := bind_eq_ok h
    cases h
    rw [Expr.result, value]
    exact ih href he'
  | binary left op right ihl ihr =>
    obtain ⟨a, ha, h⟩ := bind_eq_ok h
    obtain ⟨b, hb, h⟩ := bind_eq_ok h
    cases h
    have hleft := ihl (fun name hname => href name (List.mem_append_left right.names hname)) ha
    have hright := ihr (fun name hname => href name (List.mem_append_right left.names hname)) hb
    rw [result_expr, hleft, hright, value]

end Formula

/-! ## The meaning of the metrics -/

namespace Report

variable {r : Report} {aggregates : Aggregation → Field → Option Rat}

/-- The expressions of the references of a metric are those of the metrics that they name. -/
theorem metricExpr_formula {m : ReportMetric} {f : Formula} {e : Expr} (hf : m.formula = some f)
    (h : r.metricExpr m = .ok e) :
    f.toExpr (fun name => match r.metric? name with
      | some n => r.metricExpr n
      | none => .error (badMetric name "formula constituent was not mapped")) = .ok e := by
  unfold metricExpr metricExprWithin at h
  rw [hf] at h
  refine Formula.toExpr_mono (fun name _ e' he' => ?_) h
  cases hn : r.metric? name with
  | none =>
    rw [hn] at he'
    cases he'
  | some n =>
    rw [hn] at he'
    exact metricExprWithin_mono (Nat.le_succ _) he'

/-- The metric is an aggregate of the column. -/
structure IsAggregate (r : Report) (m : ReportMetric) (c : Field) : Prop where
  mem : m ∈ r.metrics
  formula : m.formula = none
  field : m.field = some c

theorem IsAggregate.metricExpr {m : ReportMetric} {c : Field} (h : r.IsAggregate m c) :
    r.metricExpr m = .ok (.aggregate m.aggregation (.field c)) := by
  unfold Report.metricExpr metricExprWithin
  rw [h.formula, h.field]

/-- The value of the expression of a metric. -/
def meaning (r : Report) (aggregates : Aggregation → Field → Option Rat) (name : String) :
    Option Rat :=
  (r.metric? name).bind fun m =>
    match r.metricExpr m with
    | .ok e => e.result aggregates
    | .error _ => none

/-- A database reads the text of the metric as arithmetic with the value of the metric. -/
def IsFaithful (r : Report) (d : Dialect) (m : ReportMetric) : Prop :=
  ∃ e t, r.metricExpr m = .ok e ∧ Arith.read d (e.text d) = some t ∧
    ∀ aggregates v, r.Valuation aggregates v → t.value aggregates = v m.name

namespace Mapped

variable {ctx : Mapping.Context}

theorem meaning_eq (h : r.Mapped ctx) {m : ReportMetric} (hm : m ∈ r.metrics) {e : Expr}
    (he : r.metricExpr m = .ok e) : r.meaning aggregates m.name = e.result aggregates := by
  simp [meaning, h.metric?_eq hm, he]

/-- The metrics of a report have a meaning, whatever the aggregates are. -/
theorem exists_valuation (h : r.Mapped ctx) (hclosed : r.Closed)
    (aggregates : Aggregation → Field → Option Rat) : ∃ v, r.Valuation aggregates v := by
  refine ⟨r.meaning aggregates, ?_, ?_⟩
  · intro m hm hf c hc
    have hexpr := IsAggregate.metricExpr ⟨hm, hf, hc⟩
    exact h.meaning_eq hm hexpr
  · intro m hm f hf
    obtain ⟨e, he⟩ := h.metricExpr_isOk hclosed hm
    rw [h.meaning_eq hm he]
    refine Formula.toExpr_result (fun name _ e' he' => ?_) (metricExpr_formula hf he)
    split at he'
    · next n hn =>
      obtain ⟨hmem, rfl⟩ := mem_of_metric? hn
      exact h.meaning_eq hmem he'
    · cases he'

/-- The text of a metric is right if every reference in it can stand where it stands. -/
theorem splices_isFaithful (h : r.Mapped ctx) (hclosed : r.Closed) {m : ReportMetric}
    (hm : m ∈ r.metrics) (hsplices : r.Splices m) (d : Dialect) : r.IsFaithful d m := by
  obtain ⟨e, he⟩ := h.metricExpr_isOk hclosed hm
  have hdenotes := denotes_within (Nat.le_refl _) hm
    (fun n hn f hf => h.formula_canonical hn hf) hsplices he
  obtain ⟨t, ht, hvalue⟩ := hdenotes.read d
  exact ⟨e, t, he, ht, hvalue⟩

end Mapped

end Report

/-! ## Two levels of references -/

namespace ArithOp

/-- The lexemes of an operation between those of its sides. -/
def lexemes (op : ArithOp) (ls ls' : List Lexeme) : List Lexeme :=
  ls ++ .symbol op.symbol ::
    (if op = div then .word "NULLIF" :: .symbol '(' :: ls' ++ [.symbol ',', .number 0, .symbol ')']
    else ls')

/-- The right side of an operation as it is read. -/
def rightSide (op : ArithOp) (b : Arith) : Arith := if op = div then .nullIf b 0 else b

theorem written_expr (op : ArithOp) {a b : Expr} {ls ls' : List Lexeme} (ha : Written a ls)
    (hb : Written b ls') : Written (op.expr a b) (op.lexemes ls ls') := by
  cases op with
  | div => exact .binary .div ha (.nullIfZero hb)
  | add => exact .binary .add ha hb
  | sub => exact .binary .sub ha hb
  | mul => exact .binary .mul ha hb

theorem rightSide_reads (op : ArithOp) {b : Arith} {ls' : List Lexeme}
    (hb : Arith.Reads .operand ls' b) :
    Arith.Reads .operand
      (if op = div then
        .word "NULLIF" :: .symbol '(' :: ls' ++ [.symbol ',', .number 0, .symbol ')'] else ls')
      (op.rightSide b) := by
  unfold rightSide
  split
  · exact .nullIf (.summand (.factor hb))
  · exact hb

theorem apply_rightSide (op : ArithOp) (aggregates : Aggregation → Field → Option Rat)
    (x : Option Rat) (b : Arith) :
    op.apply x ((op.rightSide b).value aggregates) = op.apply x (b.value aggregates) := by
  unfold rightSide
  split
  · next h => rw [h, Arith.value, Formula.apply_filter]
  · rfl

theorem takesLeft_none (op : ArithOp) : op.takesLeft none = true := by cases op <;> rfl

theorem takesRight_none (op : ArithOp) : op.takesRight none = true := by cases op <;> rfl

/-- A tight operation takes its left side out of a sum. -/
theorem apply_left_ne {op inner : ArithOp} (hop : op.isTight = true) (hinner : inner.isTight = false) :
    inner.apply (some 1) (op.apply (some 1) (some 2)) ≠
      op.apply (inner.apply (some 1) (some 1)) (some 2) := by
  cases op
  case add | sub => cases hop
  case mul | div =>
    cases inner
    case mul | div => cases hinner
    case add | sub => decide +kernel

/-- A product or a difference takes its right side out of a sum. -/
theorem apply_right_ne {op inner : ArithOp} (h : op.takesRight (some inner) = false) :
    inner.apply (op.apply (some 2) (some 1)) (some 1) ≠
      op.apply (some 2) (inner.apply (some 1) (some 1)) := by
  cases op
  case add | div => cases h
  case sub | mul =>
    cases inner
    case mul | div => cases h
    case add | sub => decide +kernel

/-- A product or a difference in front of a sum takes only the first summand. -/
theorem reads_right {op inner : ArithOp} (h : op.takesRight (some inner) = false)
    {lx ly lz : List Lexeme} {x y z : Arith} (hx : Arith.Reads .operand lx x)
    (hy : Arith.Reads .operand ly y) (hz : Arith.Reads .operand lz z) :
    Arith.Reads .sum (op.lexemes lz (lx ++ .symbol inner.symbol :: ly))
      (.binary (.binary z op x) inner y) := by
  cases op with
  | add | div => cases h
  | sub =>
    have hinner : inner.isTight = false := by simpa [takesRight] using h
    have hdifference := Arith.Reads.plus (rfl : ArithOp.sub.isTight = false) hz.sum (.factor hx)
    simpa [lexemes] using Arith.Reads.plus hinner hdifference (.factor hy)
  | mul =>
    have hinner : inner.isTight = false := by simpa [takesRight] using h
    have hproduct := Arith.Reads.times (rfl : ArithOp.mul.isTight = true) (.factor hz) hx
    simpa [lexemes] using Arith.Reads.plus hinner (.summand hproduct) (.factor hy)

end ArithOp

namespace Report

variable {r : Report}

/-- The metric is calculated by one operation from two others of the report. -/
structure IsBinary (r : Report) (m a : ReportMetric) (op : ArithOp) (b : ReportMetric) : Prop where
  mem : m ∈ r.metrics
  left : a ∈ r.metrics
  right : b ∈ r.metrics
  formula : m.formula = some (.binary (.metric a.name) op (.metric b.name))

/-- Beside a metric that is calculated from two aggregates stands a third aggregate. -/
structure Nests (r : Report) (part x : ReportMetric) (inner : ArithOp) (y z : ReportMetric)
    (cx cy cz : Field) : Prop where
  part : r.IsBinary part x inner y
  first : r.IsAggregate x cx
  second : r.IsAggregate y cy
  third : r.IsAggregate z cz
  differs_first : (z.aggregation, cz) ≠ (x.aggregation, cx)
  differs_second : (z.aggregation, cz) ≠ (y.aggregation, cy)

variable {ctx : Mapping.Context} {d : Dialect} {m a b part x y z : ReportMetric} {op inner : ArithOp}
  {cx cy cz : Field}

theorem IsBinary.metricExpr (h : r.IsBinary m a op b) (hmapped : r.Mapped ctx) (hclosed : r.Closed)
    {ea eb : Expr} (ha : r.metricExpr a = .ok ea) (hb : r.metricExpr b = .ok eb) :
    r.metricExpr m = .ok (op.expr ea eb) := by
  obtain ⟨e, he⟩ := hmapped.metricExpr_isOk hclosed h.mem
  have hformula := metricExpr_formula h.formula he
  simp only [Formula.toExpr, hmapped.metric?_eq h.left, hmapped.metric?_eq h.right, ha, hb]
    at hformula
  rw [he]
  exact hformula.symm

theorem IsBinary.value (h : r.IsBinary m a op b) {aggregates : Aggregation → Field → Option Rat}
    {v : String → Option Rat} (hv : r.Valuation aggregates v) :
    v m.name = op.apply (v a.name) (v b.name) :=
  hv.calculated m h.mem _ h.formula

theorem IsAggregate.top? (h : r.IsAggregate m cx) (hmapped : r.Mapped ctx) :
    r.top? m.name = none := by
  simp [Report.top?, hmapped.metric?_eq h.mem, h.metricExpr, Expr.top?]

/-- A metric is used through one of the references of its user. -/
theorem Uses.head {n : ReportMetric} (h : r.Uses m n) :
    n = m ∨ ∃ f name n', m.formula = some f ∧ name ∈ f.names ∧ r.metric? name = some n' ∧
      r.Uses n' n := by
  induction h with
  | self => exact .inl rfl
  | reference _ hf hname hn ih =>
    rcases ih with rfl | ⟨f', name', n', hf', hname', hn', huses⟩
    · exact .inr ⟨_, _, _, hf, hname, hn, .self⟩
    · exact .inr ⟨f', name', n', hf', hname', hn', .reference huses hf hname hn⟩

theorem IsAggregate.splices (h : r.IsAggregate m cx) : r.Splices m := by
  intro n hn f hf
  rcases hn.head with rfl | ⟨f', _, _, hf', _⟩
  · rw [h.formula] at hf
    cases hf
  · rw [h.formula] at hf'
    cases hf'

theorem IsBinary.splices (h : r.IsBinary m a op b) (hmapped : r.Mapped ctx) (ha : r.Splices a)
    (hb : r.Splices b) (hleft : op.takesLeft (r.top? a.name) = true)
    (hright : op.takesRight (r.top? b.name) = true) : r.Splices m := by
  intro n hn f hf
  rcases hn.head with rfl | ⟨f', name, n', hf', hname, hn', huses⟩
  · obtain rfl := Option.some.inj (h.formula.symm.trans hf)
    refine ⟨trivial, trivial, ?_, ?_⟩
    · rintro name ⟨rfl⟩
      exact hleft
    · rintro name ⟨rfl⟩
      exact hright
  · obtain rfl := Option.some.inj (h.formula.symm.trans hf')
    simp only [Formula.names, List.mem_append, List.mem_singleton] at hname
    rcases hname with rfl | rfl
    · obtain rfl := Option.some.inj ((hmapped.metric?_eq h.left).symm.trans hn')
      exact ha n huses f hf
    · obtain rfl := Option.some.inj ((hmapped.metric?_eq h.right).symm.trans hn')
      exact hb n huses f hf

theorem IsBinary.top? (h : r.IsBinary m a op b) (hmapped : r.Mapped ctx) (hclosed : r.Closed) :
    r.top? m.name = some op := by
  obtain ⟨ea, ha⟩ := hmapped.metricExpr_isOk hclosed h.left
  obtain ⟨eb, hb⟩ := hmapped.metricExpr_isOk hclosed h.right
  simp [Report.top?, hmapped.metric?_eq h.mem, h.metricExpr hmapped hclosed ha hb,
    Formula.top?_expr]

namespace Nests

theorem part_splices (h : r.Nests part x inner y z cx cy cz) (hmapped : r.Mapped ctx) :
    r.Splices part := by
  refine h.part.splices hmapped h.first.splices h.second.splices ?_ ?_
  · rw [h.first.top? hmapped]
    exact ArithOp.takesLeft_none inner
  · rw [h.second.top? hmapped]
    exact ArithOp.takesRight_none inner

/-- Aggregates of one, except that the third metric is two. -/
def sample (z : ReportMetric) (cz : Field) : Aggregation → Field → Option Rat :=
  fun a c => if (a, c) = (z.aggregation, cz) then some 2 else some 1

theorem sample_sources (h : r.Nests part x inner y z cx cy cz) :
    sample z cz x.aggregation cx = some 1 ∧ sample z cz y.aggregation cy = some 1 ∧
      sample z cz z.aggregation cz = some 2 :=
  ⟨if_neg h.differs_first.symm, if_neg h.differs_second.symm, if_pos rfl⟩

theorem part_value (h : r.Nests part x inner y z cx cy cz) {v : String → Option Rat}
    (hv : r.Valuation (sample z cz) v) :
    v part.name = inner.apply (some 1) (some 1) ∧ v z.name = some 2 := by
  obtain ⟨hx, hy, hz⟩ := h.sample_sources
  rw [h.part.value hv, hv.plain x h.first.mem h.first.formula cx h.first.field,
    hv.plain y h.second.mem h.second.formula cy h.second.field,
    hv.plain z h.third.mem h.third.formula cz h.third.field, hx, hy, hz]
  exact ⟨rfl, rfl⟩

/-- Where the aggregates are one and two, a faithful metric has the value of its text. -/
theorem sample_eq (hmapped : r.Mapped ctx) (hclosed : r.Closed) (hm : r.IsFaithful d m) {e : Expr} {ls : List Lexeme} {t : Arith}
    (he : r.metricExpr m = .ok e) (hwritten : Written e ls) (hreads : Arith.Reads .sum ls t) :
    ∃ v, r.Valuation (sample z cz) v ∧ t.value (sample z cz) = v m.name := by
  obtain ⟨v, hv⟩ := hmapped.exists_valuation hclosed (sample z cz)
  obtain ⟨e', t', he', ht', hvalue⟩ := hm
  obtain rfl := Except.ok.inj (he.symm.trans he')
  have hread : Arith.read d (e.text d) = some t := by
    rw [Arith.read, hwritten.lexemes, hreads.read]
  obtain rfl := Option.some.inj (hread.symm.trans ht')
  exact ⟨v, hv, hvalue _ v hv⟩

theorem part_expr (h : r.Nests part x inner y z cx cy cz) (hmapped : r.Mapped ctx)
    (hclosed : r.Closed) :
    r.metricExpr part = .ok (inner.expr (.aggregate x.aggregation (.field cx))
      (.aggregate y.aggregation (.field cy))) :=
  h.part.metricExpr hmapped hclosed h.first.metricExpr h.second.metricExpr

/-- The lexemes of the part, where its operation is loose. -/
theorem part_written (x y : ReportMetric) (cx cy : Field) (hinner : inner.isTight = false) :
    Written (inner.expr (.aggregate x.aggregation (.field cx)) (.aggregate y.aggregation (.field cy)))
      (x.aggregation.lexemes cx ++ .symbol inner.symbol :: y.aggregation.lexemes cy) := by
  have hwritten := inner.written_expr (.aggregate x.aggregation cx) (.aggregate y.aggregation cy)
  rwa [ArithOp.lexemes, if_neg (by rintro rfl; cases hinner)] at hwritten

/-- On the left of an operation, `takesLeft` tells exactly whether the text is right. -/
theorem isFaithful_left (h : r.Nests part x inner y z cx cy cz) (hmapped : r.Mapped ctx)
    (hclosed : r.Closed) (hm : r.IsBinary m part op z) :
    r.IsFaithful d m ↔ op.takesLeft (some inner) = true := by
  have hpart := h.part_expr hmapped hclosed
  constructor
  · intro hfaithful
    by_contra hloose
    obtain ⟨hop, hinner⟩ : op.isTight = true ∧ inner.isTight = false := by
      simpa [ArithOp.takesLeft] using hloose
    -- what is read: the operation takes the second aggregate of the part only
    have hreads := Arith.Reads.plus hinner (Arith.reads_aggregate x.aggregation cx).sum
      (.times hop (.factor (Arith.reads_aggregate y.aggregation cy))
        (op.rightSide_reads (Arith.reads_aggregate z.aggregation cz)))
    have hwritten := op.written_expr (part_written x y cx cy hinner) (.aggregate z.aggregation cz)
    obtain ⟨v, hv, hvalue⟩ := sample_eq hmapped hclosed hfaithful
      (hm.metricExpr hmapped hclosed hpart h.third.metricExpr) hwritten
      (by simpa [ArithOp.lexemes] using hreads)
    obtain ⟨hx, hy, hz⟩ := h.sample_sources
    obtain ⟨hpart, hthird⟩ := h.part_value hv
    simp only [Arith.value, ArithOp.apply_rightSide, hx, hy, hz, hm.value hv, hpart, hthird] at hvalue
    exact ArithOp.apply_left_ne hop hinner hvalue
  · intro htakes
    refine hmapped.splices_isFaithful hclosed hm.mem ?_ d
    refine hm.splices hmapped (h.part_splices hmapped) h.third.splices ?_ ?_
    · rw [h.part.top? hmapped hclosed]
      exact htakes
    · rw [h.third.top? hmapped]
      exact op.takesRight_none

/-- On the right of an operation, `takesRight` tells exactly whether the text is right. -/
theorem isFaithful_right (h : r.Nests part x inner y z cx cy cz) (hmapped : r.Mapped ctx)
    (hclosed : r.Closed) (hm : r.IsBinary m z op part) :
    r.IsFaithful d m ↔ op.takesRight (some inner) = true := by
  have hpart := h.part_expr hmapped hclosed
  constructor
  · intro hfaithful
    by_contra hloose
    rw [Bool.not_eq_true] at hloose
    have hinner : inner.isTight = false := by
      cases op with
      | add | div => cases hloose
      | sub | mul => simpa [ArithOp.takesRight] using hloose
    have hreads := ArithOp.reads_right hloose (Arith.reads_aggregate x.aggregation cx)
      (Arith.reads_aggregate y.aggregation cy) (Arith.reads_aggregate z.aggregation cz)
    have hwritten := op.written_expr (.aggregate z.aggregation cz) (part_written x y cx cy hinner)
    obtain ⟨v, hv, hvalue⟩ := sample_eq hmapped hclosed hfaithful
      (hm.metricExpr hmapped hclosed h.third.metricExpr hpart) hwritten hreads
    obtain ⟨hx, hy, hz⟩ := h.sample_sources
    obtain ⟨hpart, hthird⟩ := h.part_value hv
    simp only [Arith.value, hx, hy, hz, hm.value hv, hpart, hthird] at hvalue
    exact ArithOp.apply_right_ne hloose hvalue
  · intro htakes
    refine hmapped.splices_isFaithful hclosed hm.mem ?_ d
    refine hm.splices hmapped h.third.splices (h.part_splices hmapped) ?_ ?_
    · rw [h.third.top? hmapped]
      exact op.takesLeft_none
    · rw [h.part.top? hmapped hclosed]
      exact htakes

end Nests

end Report

/-! ## Reports of the mapping -/

/-- The metrics of a report have a meaning and an expression, and the text of a metric is read with
that meaning if every reference can stand where it stands. For a metric over a third one that is
itself calculated, and so has an operation on show, this condition is exact: where the reference
cannot stand, the text has another value. -/
theorem metric_text {ctx : Mapping.Context} {request : Request}
    (hresolved : (ctx.map request).isResolved = true) {m : ReportMetric}
    (hm : m ∈ (ctx.map request).report.metrics) (d : Dialect) :
    (∀ aggregates, ∃ v, (ctx.map request).report.Valuation aggregates v) ∧
      (∃ e, (ctx.map request).report.metricExpr m = .ok e) ∧
      ((ctx.map request).report.Splices m → (ctx.map request).report.IsFaithful d m) ∧
      ∀ part x inner y z cx cy cz op,
        (ctx.map request).report.Nests part x inner y z cx cy cz →
          ((ctx.map request).report.IsBinary m part op z →
            ((ctx.map request).report.IsFaithful d m ↔ op.takesLeft (some inner) = true)) ∧
          ((ctx.map request).report.IsBinary m z op part →
            ((ctx.map request).report.IsFaithful d m ↔ op.takesRight (some inner) = true)) := by
  have hmapped := Mapping.map_mapped ctx request
  have hclosed := Mapping.map_closed hresolved
  refine ⟨hmapped.exists_valuation hclosed, hmapped.metricExpr_isOk hclosed hm,
    fun hsplices => hmapped.splices_isFaithful hclosed hm hsplices d, ?_⟩
  intro part x inner y z cx cy cz op hnests
  exact ⟨hnests.isFaithful_left hmapped hclosed, hnests.isFaithful_right hmapped hclosed⟩

namespace Totals

/-- A metric that is the sum of a column. -/
def sum (name column : String) : MetricDefinition := { name, field := some ⟨"T", column⟩ }

/-- A metric that is calculated. -/
def calculated (name formula : String) : MetricDefinition := { name, formula := some formula }

/-- Three sums, the total of two of them, and what is calculated from the total and the third. -/
def definition : DictionaryDefinition :=
  { metrics := [sum "A" "x", sum "B" "y", sum "C" "z", calculated "D" "[A] + [B]",
      calculated "E" "[D] * [C]", calculated "F" "[D] - [C]"] }

/-- The entry of a metric without synonyms. -/
def entry (m : MetricDefinition) (formula : Option Formula) : MetricEntry :=
  ⟨m, ⟨Term.ofPhrase m.name, []⟩, formula⟩

/-- The operation on two metrics. -/
def formula (a : String) (op : ArithOp) (b : String) : Formula := .binary (.metric a) op (.metric b)

/-- The dictionary of the definition. -/
def dictionary : Dictionary where
  definition := definition
  metrics := [entry (sum "A" "x") none, entry (sum "B" "y") none, entry (sum "C" "z") none,
    entry (calculated "D" "[A] + [B]") (some (formula "A" .add "B")),
    entry (calculated "E" "[D] * [C]") (some (formula "D" .mul "C")),
    entry (calculated "F" "[D] - [C]") (some (formula "D" .sub "C"))]
  dimensions := []
  built := by decide +kernel

/-- One table. -/
def schema : Schema where
  definition := { tables := [{ name := "T", columns := [{ name := "x" }, { name := "y" },
    { name := "z" }] }] }
  sound := by rfl

def context : Mapping.Context := ⟨dictionary, schema, {}, Date.first⟩

/-- The request for the product and the difference. -/
def request : Request :=
  { metrics := [{ name := "E", pinned := some "E" }, { name := "F", pinned := some "F" }] }

/-- A sum in the report. -/
def column (name column : String) : ReportMetric :=
  ⟨name, name, some ⟨"T", column⟩, .sum, .decimal, none, true⟩

/-- A calculated metric in the report. -/
def binary (name a : String) (op : ArithOp) (b : String) (hidden : Bool) : ReportMetric :=
  ⟨name, name, none, .sum, .decimal, some (formula a op b), hidden⟩

/-- The text of the difference is right, and that of the product is not. -/
theorem metric_text_total :
    (context.map request).isResolved = true ∧
      binary "E" "D" .mul "C" false ∈ (context.map request).report.metrics ∧
      binary "F" "D" .sub "C" false ∈ (context.map request).report.metrics ∧
      ¬(context.map request).report.IsFaithful .postgres (binary "E" "D" .mul "C" false) ∧
      (context.map request).report.IsFaithful .postgres (binary "F" "D" .sub "C" false) := by
  have hresolved : (context.map request).isResolved = true := by decide +kernel
  have ha : column "A" "x" ∈ (context.map request).report.metrics :=
    List.mem_mergeSort.mpr (by decide +kernel)
  have hb : column "B" "y" ∈ (context.map request).report.metrics :=
    List.mem_mergeSort.mpr (by decide +kernel)
  have hc : column "C" "z" ∈ (context.map request).report.metrics :=
    List.mem_mergeSort.mpr (by decide +kernel)
  have hd : binary "D" "A" .add "B" true ∈ (context.map request).report.metrics :=
    List.mem_mergeSort.mpr (by decide +kernel)
  have he : binary "E" "D" .mul "C" false ∈ (context.map request).report.metrics :=
    List.mem_mergeSort.mpr (by decide +kernel)
  have hf : binary "F" "D" .sub "C" false ∈ (context.map request).report.metrics :=
    List.mem_mergeSort.mpr (by decide +kernel)
  have hnests : (context.map request).report.Nests (binary "D" "A" .add "B" true) (column "A" "x")
      .add (column "B" "y") (column "C" "z") ⟨"T", "x"⟩ ⟨"T", "y"⟩ ⟨"T", "z"⟩ :=
    ⟨⟨hd, ha, hb, rfl⟩, ⟨ha, rfl, rfl⟩, ⟨hb, rfl, rfl⟩, ⟨hc, rfl, rfl⟩, by decide, by decide⟩
  obtain ⟨-, -, -, hproduct⟩ := metric_text hresolved he .postgres
  obtain ⟨-, -, -, hdifference⟩ := metric_text hresolved hf .postgres
  refine ⟨hresolved, he, hf, ?_, ?_⟩
  · rw [(hproduct _ _ _ _ _ _ _ _ _ hnests).1 ⟨he, hd, hc, rfl⟩]
    decide
  · exact ((hdifference _ _ _ _ _ _ _ _ _ hnests).1 ⟨hf, hd, hc, rfl⟩).mpr rfl

end Totals

end MetricLayer
