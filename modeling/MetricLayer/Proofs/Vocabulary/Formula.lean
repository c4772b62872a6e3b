import MetricLayer.Proofs.Decimal.Unsigned
import MetricLayer.Proofs.Vocabulary.Grammar

/-!
# The shape of formulas

A formula that was read from a text has its operations where the text has them: the right operand of
an operation never binds more loosely than the operation allows, unless it is in parentheses, which
the tree keeps. Its numbers have no sign. `Formula.Canonical` says so for the whole tree.

Results:
1. `parse_canonical`: what `Formula.parse` gives is canonical.
2. `Canonical.rename`: other names for the metrics leave it so.
-/

namespace MetricLayer

namespace Formula

/-- The operation that stands outside of all parentheses and is done last. -/
def head? : Formula → Option ArithOp
  | binary _ op _ => some op
  | _ => none

/-- No loose operation stands outside of parentheses. -/
def IsProduct (f : Formula) : Prop := ∀ op, f.head? = some op → op.isTight = true

/-- Operations stand as the grammar allows: below a product there is no sum, and on the right of an
operation none that binds as loosely. Numbers have no sign. -/
def Canonical : Formula → Prop
  | metric _ => True
  | number x => Decimal.IsUnsigned x
  | group inner => inner.Canonical
  | binary left op right =>
    left.Canonical ∧ right.Canonical ∧ right.IsProduct ∧
      (op.isTight = true → left.IsProduct ∧ right.head? = none)

theorem IsProduct.of_head? {f : Formula} (h : f.head? = none) : f.IsProduct := by
  intro op hop
  rw [h] at hop
  cases hop

/-! ## Reading -/

/-- The numbers among the tokens have no sign. -/
def AreUnsigned (ts : List Token) : Prop := ∀ x, .number x ∈ ts → Decimal.IsUnsigned x

theorem Splits.areUnsigned {cs : List Char} {ts : List Token} (h : Splits cs ts) :
    AreUnsigned ts := by
  induction h with
  | finish => exact nofun
  | token hbs hl hlong hrest ih =>
    intro x hx
    rcases List.mem_cons.mp hx with rfl | hx
    · cases hl with
      | whole | fraction => exact Decimal.nearest_isUnsigned ..
    · exact ih x hx

/-- What a tree is like that derives from a level. -/
def CanonicalAt : Level → Formula → Prop
  | .sum, f => f.Canonical
  | .product, f => f.Canonical ∧ f.IsProduct
  | .factor, f => f.Canonical ∧ f.head? = none

theorem Derives.canonicalAt {level : Level} {ts : List Token} {f : Formula}
    (h : Derives level ts f) (hts : AreUnsigned ts) : CanonicalAt level f := by
  induction h with
  | ref => exact ⟨trivial, rfl⟩
  | number => exact ⟨hts _ List.mem_cons_self, rfl⟩
  | group _ ih => exact ⟨ih fun x hx => hts x (by simp [hx]), rfl⟩
  | factor _ ih => exact (ih hts).imp_right .of_head?
  | summand _ ih => exact (ih hts).1
  | times htight _ _ ihf ihg =>
    obtain ⟨hleft, hproduct⟩ := ihf fun x hx => hts x (by simp [hx])
    obtain ⟨hright, hhead⟩ := ihg fun x hx => hts x (by simp [hx])
    refine ⟨⟨hleft, hright, .of_head? hhead, fun _ => ⟨hproduct, hhead⟩⟩, ?_⟩
    rintro op ⟨⟩
    exact htight
  | plus hloose _ _ ihf ihg =>
    obtain ⟨hright, hproduct⟩ := ihg fun x hx => hts x (by simp [hx])
    refine ⟨ihf fun x hx => hts x (by simp [hx]), hright, hproduct, fun htight => ?_⟩
    rw [hloose] at htight
    cases htight

/-- A formula that was read is canonical. -/
theorem parse_canonical {source : String} {f : Formula} (h : parse source = .ok f) :
    f.Canonical := by
  obtain ⟨ts, hts, hf⟩ := parse_eq_ok_iff.mp h
  exact hf.canonicalAt hts.areUnsigned

/-! ## Other names -/

@[simp] theorem head?_rename (f : Formula) (g : String → String) : (f.rename g).head? = f.head? := by
  cases f <;> rfl

theorem Canonical.rename {f : Formula} (h : f.Canonical) (g : String → String) :
    (f.rename g).Canonical := by
  induction f with
  | metric name => trivial
  | number x => exact h
  | group inner ih => exact ih h
  | binary left op right ihl ihr =>
    obtain ⟨hleft, hright, hproduct, htight⟩ := h
    refine ⟨ihl hleft, ihr hright, ?_, ?_⟩
    · simpa [IsProduct] using hproduct
    · simpa [IsProduct] using htight

theorem mem_names_rename {f : Formula} {g : String → String} {name : String} :
    name ∈ (f.rename g).names ↔ ∃ n ∈ f.names, g n = name := by
  induction f with
  | metric n => simp [Formula.rename, names, eq_comm]
  | number x => simp [Formula.rename, names]
  | group inner ih => exact ih
  | binary left op right ihl ihr =>
    simp only [Formula.rename, names, List.mem_append, ihl, ihr]
    constructor
    · rintro (⟨n, hn, h⟩ | ⟨n, hn, h⟩)
      · exact ⟨n, .inl hn, h⟩
      · exact ⟨n, .inr hn, h⟩
    · rintro ⟨n, hn | hn, h⟩
      · exact .inl ⟨n, hn, h⟩
      · exact .inr ⟨n, hn, h⟩

end Formula

end MetricLayer
