import MetricLayer.Proofs.Decimal.Order
import MetricLayer.Proofs.Report.Literal
import MetricLayer.Proofs.Sql.Answers

/-!
# Conditions with three values

A condition is true, false or unknown. Nothing is known of null, so a comparison with it is unknown,
and so is the negation of the comparison; only the test for null itself always has an answer. A
condition is met where it is true.

Results:
1. `Functions.ThreeValued`: what is asked of a database whose conditions have three values and whose
   equality is exact.
2. `Functions.exact_threeValued`: there are such functions.
-/

namespace MetricLayer

/-! ## Equality and truth -/

section Truth

variable {α : Type} [LinearOrder α]

/-- Whether two values are equal, which is unknown of null. -/
def Value.equal? (x y : Value α) : Option Bool := x.bind fun a => y.map fun b => decide (a = b)

namespace Value

variable {x y : Value α}

theorem equal?_eq_true : x.equal? y = some true ↔ x = y ∧ y ≠ none := by
  cases x <;> cases y <;> simp [equal?]

theorem equal?_eq_false : x.equal? y = some false ↔ x ≠ none ∧ y ≠ none ∧ x ≠ y := by
  cases x <;> cases y <;> simp [equal?]

end Value

/-- Conditions have three values, which `truth` reads off, and equality is exact: a literal is a
value, and literals of one type are equal values just if they are the same. -/
structure Functions.ThreeValued (fns : Functions α) (truth : Value α → Option Bool) : Prop where
  holds : ∀ x, fns.holds x = true ↔ truth x = some true
  not : ∀ x, truth (fns.not x) = (truth x).map (!·)
  eq : ∀ x y, truth (fns.binary .eq x y) = x.equal? y
  notEq : ∀ x y, truth (fns.binary .notEq x y) = (x.equal? y).map (!·)
  isNull : ∀ x, truth (fns.isNull false x) = some x.isNone
  isNotNull : ∀ x, truth (fns.isNull true x) = some x.isSome
  literal : ∀ v, fns.literal v ≠ none
  same : ∀ {type : DataType} {v w : Literal}, v.HasType type → w.HasType type →
    (fns.literal v = fns.literal w ↔ v.same w = true)

end Truth

/-! ## Functions with exact equality -/

/-- What is not an integer: texts, and decimal numbers by their place among all of them. -/
abbrev Scalar := String ⊕ₗ (ℤ ×ₗ ℤ ×ₗ ℤ)

/-- A text as a value. -/
def Value.ofText (s : String) : Value Scalar := some (toLex (.inr (toLex (.inl s))))

/-- A decimal number as a value. -/
def Value.ofDecimal (x : Float) : Value Scalar :=
  some (toLex (.inr (toLex (.inr (Decimal.place x)))))

/-- What is known of a condition as a value: one for true, zero for false. -/
def Value.ofTruth (t : Option Bool) : Value Scalar :=
  t.map fun b => toLex (.inl (if b then 1 else 0))

/-- What is known of a condition, given as a value. -/
def Value.truth (x : Value Scalar) : Option Bool := x.map fun d => decide (d = toLex (.inl 1))

theorem Value.truth_ofTruth (t : Option Bool) : (ofTruth t).truth = t := by
  cases t with
  | none => rfl
  | some b => cases b <;> rfl

theorem Value.ofText_inj {s t : String} : ofText s = ofText t ↔ s = t := by
  simp [ofText]

/-- Literals as they are; of the operations, those that equality and null need. -/
def Functions.exact : Functions Scalar where
  literal
    | .text s => .ofText s
    | .int n => .ofRat n
    | .decimal x => .ofDecimal x
    | .bool b => .ofTruth b
    | .date d => .ofText d.text
    | .moment t => .ofText t.wire
  number _ := none
  binary
    | .eq, x, y => .ofTruth (x.equal? y)
    | .notEq, x, y => .ofTruth ((x.equal? y).map (!·))
    | _, _, _ => none
  not x := .ofTruth (x.truth.map (!·))
  between _ _ _ := none
  inList _ _ _ := none
  isNull negated x := .ofTruth (some (x.isNone != negated))
  like _ _ := none
  datePart _ _ := none
  nullIfZero x := x
  holds x := x.truth == some true
  le
    | none, _ => true
    | some _, none => false
    | some a, some b => decide (a ≤ b)

theorem Functions.exact_same {type : DataType} {v w : Literal} (hv : v.HasType type)
    (hw : w.HasType type) :
    Functions.exact.literal v = Functions.exact.literal w ↔ v.same w = true := by
  cases type
  case string | unknown =>
    obtain ⟨s, rfl⟩ := hv
    obtain ⟨t, rfl⟩ := hw
    simp [exact, Value.ofText_inj, Literal.same]
  case integer =>
    obtain ⟨m, rfl⟩ := hv
    obtain ⟨n, rfl⟩ := hw
    simp [exact, Value.ofRat, Literal.same]
  case decimal =>
    obtain ⟨x, rfl, hx⟩ := hv
    obtain ⟨y, rfl, hy⟩ := hw
    have hnan {z : Float} (hz : z.isFinite = true) : z.isNaN = false :=
      (Bool.or_eq_false_iff.mp (Literal.finite_of_isFinite hz)).1
    rw [Literal.same, Decimal.beq_iff_place (hnan hx) (hnan hy)]
    simp [exact, Value.ofDecimal]
  case boolean =>
    obtain ⟨a, rfl⟩ := hv
    obtain ⟨b, rfl⟩ := hw
    cases a <;> cases b <;> simp [exact, Value.ofTruth, Literal.same]
  case date =>
    obtain ⟨d, rfl⟩ := hv
    obtain ⟨e, rfl⟩ := hw
    have htext : d.text = e.text ↔ d = e := ⟨Date.text_inj, congrArg _⟩
    simp [exact, Value.ofText_inj, htext, Literal.same]
  case timestamp =>
    obtain ⟨t, rfl, ht⟩ := hv
    obtain ⟨u, rfl, hu⟩ := hw
    have hwire : t.wire = u.wire ↔ t = u := ⟨Timestamp.wire_inj ht hu, congrArg _⟩
    simp [exact, Value.ofText_inj, hwire, Literal.same]

/-- There are functions whose conditions have three values and whose equality is exact. -/
theorem Functions.exact_threeValued : Functions.exact.ThreeValued Value.truth where
  holds x := beq_iff_eq
  not x := Value.truth_ofTruth _
  eq x y := Value.truth_ofTruth _
  notEq x y := Value.truth_ofTruth _
  isNull x := by cases x <;> rfl
  isNotNull x := by cases x <;> rfl
  literal v := by
    cases v <;> simp [exact, Value.ofText, Value.ofRat, Value.ofDecimal, Value.ofTruth]
  same hv hw := exact_same hv hw

end MetricLayer
