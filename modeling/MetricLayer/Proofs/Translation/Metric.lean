import MetricLayer.Proofs.Sql.Written
import MetricLayer.Proofs.Vocabulary.Formula
import MetricLayer.Translation.Metric

/-!
# What the text of a metric means

A calculated metric is written as its formula with every reference replaced by the text of the metric
that it names, and no parentheses are put around that text. So what a database reads is the formula
only where the text can stand without them: `takesLeft` and `takesRight` say where it can.

`Report.Valuation` is what the metrics of a report mean: every plain metric is its aggregate, and
every calculated one the value of its formula.

Results:
1. `Formula.denotes`: where every reference can stand as it is, the text of a formula is read as the
   formula.
2. `Report.denotes`: so is the text of a metric, through any number of references.
-/

namespace MetricLayer

/-! ## Meaning -/

/-- The value of a formula, given those of the metrics. -/
def Formula.value (v : String → Option Rat) : Formula → Option Rat
  | metric name => v name
  | number x => some (numeral x)
  | binary left op right => op.apply (left.value v) (right.value v)
  | group inner => inner.value v

/-- What the metrics of a report mean, given the aggregates of the columns. -/
structure Report.Valuation (r : Report) (aggregates : Aggregation → Field → Option Rat)
    (v : String → Option Rat) : Prop where
  plain : ∀ m ∈ r.metrics, m.formula = none → ∀ c, m.field = some c →
    v m.name = aggregates m.aggregation c
  calculated : ∀ m ∈ r.metrics, ∀ f, m.formula = some f → v m.name = f.value v

/-! ## Where a text can stand -/

/-- The operation that the text of an expression shows outside of parentheses and that is done
last. -/
def Expr.top? : Expr → Option ArithOp
  | .binary _ .plus _ => some .add
  | .binary _ .minus _ => some .sub
  | .binary _ .mul _ => some .mul
  | .binary _ .div _ => some .div
  | _ => none

namespace ArithOp

/-- A text that shows `inner` keeps its value on the left of the operation. -/
def takesLeft (op : ArithOp) (inner : Option ArithOp) : Bool :=
  !op.isTight || inner.all isTight

/-- A text that shows `inner` keeps its value on the right of the operation. A sum can be regrouped
into a sum and a product into a product, and a divisor has the parentheses of `NULLIF`. -/
def takesRight (op : ArithOp) (inner : Option ArithOp) : Bool :=
  match op with
  | add | div => true
  | sub | mul => inner.all isTight

end ArithOp

/-- Every reference of the formula can stand where it stands, and the numbers have digits: one that
is too large has none. -/
def Formula.Splices (top? : String → Option ArithOp) : Formula → Prop
  | metric _ => True
  | number x => x.isInf = false
  | group inner => inner.Splices top?
  | binary left op right =>
    left.Splices top? ∧ right.Splices top? ∧
      (∀ name, left = metric name → op.takesLeft (top? name) = true) ∧
        ∀ name, right = metric name → op.takesRight (top? name) = true

namespace Report

/-- The operation that the text of a metric shows. -/
def top? (r : Report) (name : String) : Option ArithOp :=
  (r.metric? name).bind fun m =>
    match r.metricExpr m with
    | .ok e => e.top?
    | .error _ => none

/-- The metric is calculated from the other one, directly or through further metrics, or is that
metric. -/
inductive Uses (r : Report) (m : ReportMetric) : ReportMetric → Prop
  | self : Uses r m m
  | reference {n n' : ReportMetric} {f : Formula} {name : String} : Uses r m n →
      n.formula = some f → name ∈ f.names → r.metric? name = some n' → Uses r m n'

/-- Every reference that the text of the metric is made of can stand where it stands. -/
def Splices (r : Report) (m : ReportMetric) : Prop :=
  ∀ n, r.Uses m n → ∀ f, n.formula = some f → f.Splices r.top?

end Report

/-! ## Regrouping -/

namespace ArithOp

theorem apply_add {op : ArithOp} (h : op.isTight = false) (x y z : Option Rat) :
    op.apply (add.apply x y) z = add.apply x (op.apply y z) := by
  cases op
  case mul | div => cases h
  case add =>
    cases x <;> cases y <;> cases z <;> first | rfl | exact congrArg some (add_assoc ..)
  case sub =>
    cases x <;> cases y <;> cases z <;> first | rfl | exact congrArg some (add_sub_assoc ..)

theorem apply_mul {op : ArithOp} (h : op.isTight = true) (x y z : Option Rat) :
    op.apply (mul.apply x y) z = mul.apply x (op.apply y z) := by
  cases op
  case add | sub => cases h
  case mul =>
    cases x <;> cases y <;> cases z <;> first | rfl | exact congrArg some (mul_assoc ..)
  case div =>
    rcases z with _ | z
    · cases x <;> cases y <;> rfl
    · by_cases hz : z = 0
      · cases x <;> cases y <;> simp [apply, hz]
      · cases x <;> cases y <;> simp [apply, hz, mul_div_assoc]

end ArithOp

namespace Arith

theorem Reads.product {level : Level} {ls : List Lexeme} {e : Arith} (h : Reads level ls e)
    (hlevel : level ≠ .sum) : Reads .product ls e := by
  cases level with
  | sum => exact absurd rfl hlevel
  | product => exact h
  | operand => exact .factor h

theorem Reads.sum {level : Level} {ls : List Lexeme} {e : Arith} (h : Reads level ls e) :
    Reads .sum ls e := by
  cases level with
  | sum => exact h
  | product => exact .summand h
  | operand => exact .summand (.factor h)

/-- A sum behind a plus sign: what is read is grouped differently, with the same value. -/
theorem Reads.add_sum {ls ls' : List Lexeme} {a b : Arith} (ha : Reads .sum ls a)
    (hb : Reads .sum ls' b) :
    ∃ e, Reads .sum (ls ++ .symbol '+' :: ls') e ∧
      ∀ g, e.value g = ArithOp.add.apply (a.value g) (b.value g) := by
  generalize hlevel : Level.sum = level at hb
  induction hb with
  | summand hb _ => exact ⟨_, .plus (rfl : ArithOp.add.isTight = false) ha hb, fun _ => rfl⟩
  | @plus ls₁ ls₂ b₁ b₂ op hop _ hb₂ ih =>
    obtain ⟨e, he, hvalue⟩ := ih rfl
    refine ⟨.binary e op b₂, ?_, fun g => ?_⟩
    · simpa using Reads.plus hop he hb₂
    · rw [value, value, hvalue, ArithOp.apply_add hop]
  | _ => cases hlevel

/-- A product behind a multiplication sign: what is read is grouped differently, with the same
value. -/
theorem Reads.mul_product {ls ls' : List Lexeme} {a b : Arith} (ha : Reads .product ls a)
    (hb : Reads .product ls' b) :
    ∃ e, Reads .product (ls ++ .symbol '*' :: ls') e ∧
      ∀ g, e.value g = ArithOp.mul.apply (a.value g) (b.value g) := by
  generalize hlevel : Level.product = level at hb
  induction hb with
  | factor hb _ => exact ⟨_, .times (rfl : ArithOp.mul.isTight = true) ha hb, fun _ => rfl⟩
  | @times ls₁ ls₂ b₁ b₂ op hop _ hb₂ ih =>
    obtain ⟨e, he, hvalue⟩ := ih rfl
    refine ⟨.binary e op b₂, ?_, fun g => ?_⟩
    · simpa using Reads.times hop he hb₂
    · rw [value, value, hvalue, ArithOp.apply_mul hop]
  | _ => cases hlevel

theorem reads_aggregate (a : Aggregation) (f : Field) :
    Reads .operand (a.lexemes f) (.aggregate a f) := by
  cases a with
  | countDistinct => exact .distinct rfl
  | _ => exact .aggregate rfl

end Arith

/-! ## What is read -/

/-- The level of the grammar that a text with the operation outside of parentheses is of. -/
def Arith.Level.ofTop : Option ArithOp → Arith.Level
  | some op => if op.isTight then .product else .sum
  | none => .operand

namespace Report

/-- The text of the expression is read as arithmetic that has the value, whatever the metrics of the
report are. -/
def Denotes (r : Report) (e : Expr) (value : (String → Option Rat) → Option Rat) : Prop :=
  ∃ ls t, Written e ls ∧ Arith.Reads (.ofTop e.top?) ls t ∧
    ∀ aggregates v, r.Valuation aggregates v → t.value aggregates = value v

theorem Denotes.read {r : Report} {e : Expr} {value : (String → Option Rat) → Option Rat}
    (h : r.Denotes e value) (d : Dialect) :
    ∃ t, Arith.read d (e.text d) = some t ∧
      ∀ aggregates v, r.Valuation aggregates v → t.value aggregates = value v := by
  obtain ⟨ls, t, hwritten, hreads, hvalue⟩ := h
  exact ⟨t, by rw [Arith.read, hwritten.lexemes, hreads.sum.read], hvalue⟩

end Report

/-- Where no loose operation stands outside of parentheses, the text is a product. -/
theorem Arith.Reads.ofTop_product {top : Option ArithOp} {ls : List Lexeme} {e : Arith}
    (h : Reads (.ofTop top) ls e) (htight : top.all ArithOp.isTight = true) :
    Reads .product ls e := by
  refine h.product ?_
  cases top with
  | none => simp [Level.ofTop]
  | some inner =>
    have hinner : inner.isTight = true := by simpa using htight
    simp [Level.ofTop, hinner]

namespace Formula

variable {ε : Type} {r : Report}

theorem apply_filter (x y : Option Rat) :
    ArithOp.div.apply x (y.filter fun z => decide (z ≠ 0)) = ArithOp.div.apply x y := by
  rcases y with _ | y
  · rfl
  · by_cases hy : y = 0
    · subst hy
      cases x <;> simp [ArithOp.apply]
    · simp [Option.filter, hy]

/-- Two denoted expressions with an operation between them, where both can stand. -/
theorem denotes_binary {op : ArithOp} {a b : Expr} {va vb : (String → Option Rat) → Option Rat}
    (ha : r.Denotes a va) (hb : r.Denotes b vb) (hleft : op.takesLeft a.top? = true)
    (hright : op.takesRight b.top? = true) :
    r.Denotes (op.expr a b) fun v => op.apply (va v) (vb v) := by
  obtain ⟨la, ta, hwa, hra, hva⟩ := ha
  obtain ⟨lb, tb, hwb, hrb, hvb⟩ := hb
  cases op with
  | add =>
    obtain ⟨t, hread, hvalue⟩ := hra.sum.add_sum hrb.sum
    refine ⟨_, t, .binary .add hwa hwb, hread, fun g v hv => ?_⟩
    rw [hvalue, hva g v hv, hvb g v hv]
  | sub =>
    have htight : ArithOp.sub.isTight = false := rfl
    refine ⟨_, _, .binary .sub hwa hwb, .plus htight hra.sum (hrb.ofTop_product hright),
      fun g v hv => ?_⟩
    rw [Arith.value, hva g v hv, hvb g v hv]
  | mul =>
    obtain ⟨t, hread, hvalue⟩ :=
      (hra.ofTop_product hleft).mul_product (hrb.ofTop_product hright)
    refine ⟨_, t, .binary .mul hwa hwb, hread, fun g v hv => ?_⟩
    rw [hvalue, hva g v hv, hvb g v hv]
  | div =>
    have htight : ArithOp.div.isTight = true := rfl
    refine ⟨_, _, .binary .div hwa (.nullIfZero hwb),
      .times htight (hra.ofTop_product hleft) (.nullIf hrb.sum), fun g v hv => ?_⟩
    rw [Arith.value, Arith.value, hva g v hv, hvb g v hv, apply_filter]

theorem top?_expr (op : ArithOp) (a b : Expr) : (op.expr a b).top? = some op := by
  cases op <;> rfl

/-- Apart from references, a text shows the operation that the formula has on top. -/
theorem toExpr_top? {f : Formula} {reference : String → Except ε Expr} {e : Expr}
    (h : f.toExpr reference = .ok e) :
    (∃ name, f = .metric name ∧ reference name = .ok e) ∨ e.top? = f.head? := by
  cases f with
  | metric name => exact .inl ⟨name, rfl, h⟩
  | number x => cases h; exact .inr rfl
  | group inner =>
    obtain ⟨e', -, h⟩ := bind_eq_ok h
    cases h
    exact .inr rfl
  | binary left op right =>
    obtain ⟨a, -, h⟩ := bind_eq_ok h
    obtain ⟨b, -, h⟩ := bind_eq_ok h
    cases h
    exact .inr (top?_expr op a b)

theorem IsProduct.all {f : Formula} (h : f.IsProduct) : f.head?.all ArithOp.isTight = true := by
  cases hhead : f.head? with
  | none => rfl
  | some op => exact h op hhead

/-- The text of a formula is read as the formula, if that of every reference is read as the metric
and can stand where it stands. -/
theorem denotes {f : Formula} {reference : String → Except ε Expr} {e : Expr}
    (hcanonical : f.Canonical) (hsplices : f.Splices r.top?)
    (href : ∀ name ∈ f.names, ∀ e, reference name = .ok e →
      r.Denotes e (fun v => v name) ∧ e.top? = r.top? name)
    (h : f.toExpr reference = .ok e) : r.Denotes e fun v => f.value v := by
  induction f generalizing e with
  | metric name => exact (href name (by simp [names]) e h).1
  | number x =>
    cases h
    exact ⟨_, _, .number ⟨hcanonical, hsplices⟩, .number, fun _ _ _ => rfl⟩
  | group inner ih =>
    obtain ⟨e', he', h⟩ := bind_eq_ok h
    cases h
    obtain ⟨ls, t, hwritten, hreads, hvalue⟩ := ih hcanonical hsplices href he'
    exact ⟨_, t, .nested hwritten, .group hreads.sum, hvalue⟩
  | binary left op right ihl ihr =>
    obtain ⟨hcl, hcr, hproduct, htight⟩ := hcanonical
    obtain ⟨hsl, hsr, hleft, hright⟩ := hsplices
    obtain ⟨a, ha, h⟩ := bind_eq_ok h
    obtain ⟨b, hb, h⟩ := bind_eq_ok h
    cases h
    have hrefl := fun name (hname : name ∈ left.names) =>
      href name (List.mem_append_left right.names hname)
    have hrefr := fun name (hname : name ∈ right.names) =>
      href name (List.mem_append_right left.names hname)
    refine denotes_binary (ihl hcl hsl hrefl ha) (ihr hcr hsr hrefr hb) ?_ ?_
    · rcases toExpr_top? ha with ⟨name, rfl, hname⟩ | htop
      · rw [(hrefl name (by simp [names]) a hname).2]
        exact hleft name rfl
      · rw [htop, ArithOp.takesLeft]
        cases hop : op.isTight with
        | false => rfl
        | true => exact (htight hop).1.all
    · rcases toExpr_top? hb with ⟨name, rfl, hname⟩ | htop
      · rw [(hrefr name (by simp [names]) b hname).2]
        exact hright name rfl
      · rw [htop]
        cases op with
        | add | div => rfl
        | sub | mul => exact hproduct.all

/-- More references give the same expression. -/
theorem toExpr_mono {f : Formula} {reference reference' : String → Except ε Expr} {e : Expr}
    (href : ∀ name ∈ f.names, ∀ e, reference name = .ok e → reference' name = .ok e)
    (h : f.toExpr reference = .ok e) : f.toExpr reference' = .ok e := by
  induction f generalizing e with
  | metric name => exact href name (by simp [names]) e h
  | number x => exact h
  | group inner ih =>
    obtain ⟨e', he', h⟩ := bind_eq_ok h
    cases h
    simp only [toExpr, ih href he']
    rfl
  | binary left op right ihl ihr =>
    obtain ⟨a, ha, h⟩ := bind_eq_ok h
    obtain ⟨b, hb, h⟩ := bind_eq_ok h
    cases h
    have ha := ihl (fun name hname => href name (List.mem_append_left right.names hname)) ha
    have hb := ihr (fun name hname => href name (List.mem_append_right left.names hname)) hb
    simp only [toExpr, ha, hb]
    rfl

end Formula

namespace Report

variable {r : Report}

theorem mem_of_metric? {name : String} {m : ReportMetric} (h : r.metric? name = some m) :
    m ∈ r.metrics ∧ m.name = name :=
  ⟨List.mem_of_find?_eq_some h, by simpa using List.find?_some h⟩

/-- With more fuel, references are followed as far as before. -/
theorem metricExprWithin_mono {fuel fuel' : Nat} (hfuel : fuel ≤ fuel') {m : ReportMetric} {e : Expr}
    (h : r.metricExprWithin fuel m = .ok e) : r.metricExprWithin fuel' m = .ok e := by
  induction fuel generalizing fuel' m e with
  | zero => cases h
  | succ fuel ih =>
    obtain ⟨fuel', rfl⟩ : ∃ n, fuel' = n + 1 := ⟨fuel' - 1, by omega⟩
    unfold metricExprWithin at h ⊢
    split at h
    · refine Formula.toExpr_mono (fun name _ e' he' => ?_) h
      split at he'
      · next hname => exact ih (by omega) he'
      · cases he'
    · exact h
    · cases h

/-- The text of a metric is read as the metric, if every reference in it can stand where it
stands. -/
theorem denotes_within {fuel : Nat} (hfuel : fuel ≤ r.metrics.length + 1) {m : ReportMetric}
    {e : Expr} (hm : m ∈ r.metrics) (hcanonical : ∀ n ∈ r.metrics, ∀ f, n.formula = some f →
      f.Canonical) (hsplices : r.Splices m) (h : r.metricExprWithin fuel m = .ok e) :
    r.Denotes e fun v => v m.name := by
  induction fuel generalizing m e with
  | zero => cases h
  | succ fuel ih =>
    unfold metricExprWithin at h
    split at h
    · next f hf =>
      have hvalue : r.Denotes e fun v => f.value v := by
        refine Formula.denotes (hcanonical m hm f hf) (hsplices m .self f hf) ?_ h
        intro name hname e' he'
        split at he'
        · next n hn =>
          obtain ⟨hmem, rfl⟩ := mem_of_metric? hn
          have huses : ∀ n', r.Uses n n' → r.Uses m n' := by
            intro n' h'
            induction h' with
            | self => exact .reference .self hf hname hn
            | reference _ hf' hname' hn' ih' => exact .reference ih' hf' hname' hn'
          refine ⟨ih (by omega) hmem (fun n' h' => hsplices n' (huses n' h')) he', ?_⟩
          have hexpr : r.metricExpr n = .ok e' := metricExprWithin_mono (by omega) he'
          simp [top?, hn, hexpr]
        · cases he'
      obtain ⟨ls, t, hwritten, hreads, hvalue⟩ := hvalue
      refine ⟨ls, t, hwritten, hreads, fun g v hv => ?_⟩
      exact (hvalue g v hv).trans (hv.calculated m hm f hf).symm
    · next c hf hc =>
      cases h
      refine ⟨_, .aggregate m.aggregation c, .aggregate _ _, ?_, fun g v hv => ?_⟩
      · exact Arith.reads_aggregate m.aggregation c
      · exact (hv.plain m hm hf c hc).symm
    · cases h

end Report

end MetricLayer
