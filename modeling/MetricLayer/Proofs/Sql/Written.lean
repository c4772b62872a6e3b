import MetricLayer.Proofs.Sql.Reading
import MetricLayer.Sql.Render
import MetricLayer.Translation.Metric

/-!
# Arithmetic as it is written

The text of an expression that is made of aggregates, numbers, operations, `NULLIF` and parentheses
falls into the lexemes that one expects: names in quotes are cut at the right place whatever
characters they have, and numbers keep their value.

Results:
1. `scan_quote`: a quoted name is one lexeme.
2. `Written.lexemes`: the lexemes of a written expression.
-/

namespace MetricLayer

/-! ## Texts and pieces -/

/-- The text of an expression in which no value stands. -/
def Expr.text (d : Dialect) (e : Expr) : String := String.join (Piece.texts d 1 (e.pieces d))

/-- The characters of a piece that is not a value. -/
def Piece.chars (d : Dialect) (p : Piece) : List Char := (p.text d 0).toList

theorem Piece.texts_eq (d : Dialect) (n : Nat) {ps : List Piece} (h : Piece.values ps = []) :
    Piece.texts d n ps = ps.map (Piece.text d 0) := by
  induction ps generalizing n with
  | nil => rfl
  | cons p ps ih =>
    cases p with
    | value v => cases h
    | word s => rw [Piece.texts, ih n h, List.map_cons]; rfl; simp
    | name s => rw [Piece.texts, ih n h, List.map_cons]; rfl; simp

theorem Piece.values_append (ps qs : List Piece) :
    Piece.values (ps ++ qs) = Piece.values ps ++ Piece.values qs := by
  induction ps with
  | nil => rfl
  | cons p ps ih => cases p <;> simp [Piece.values, ih]

namespace Lexeme

variable {d : Dialect}

theorem scan_append (s : Scan) (a b : List Char) : scan d s (a ++ b) = scan d (scan d s a) b :=
  List.foldl_append

theorem scan_cons (s : Scan) (c : Char) (cs : List Char) :
    scan d s (c :: cs) = scan d (s.next d c) cs := rfl

/-! ## Words, names and numbers -/

/-- A quoted name is scanned up to its closing quote. -/
theorem scan_doubled (ls : List Lexeme) (cs name : List Char) :
    scan d ⟨ls, .name cs⟩ (Dialect.doubled d.closeQuote name) = ⟨ls, .name (name.reverse ++ cs)⟩ := by
  induction name generalizing cs with
  | nil => rfl
  | cons c name ih =>
    rw [Dialect.doubled, List.flatMap_cons, scan_append]
    have hfirst : scan d ⟨ls, .name cs⟩ (if c = d.closeQuote then [c, c] else [c]) =
        ⟨ls, .name (c :: cs)⟩ := by
      split
      · next h => simp [scan, Scan.next, h]
      · next h => simp [scan, Scan.next, h]
    rw [hfirst]
    have hrest := ih (c :: cs)
    rw [Dialect.doubled] at hrest
    rw [hrest]
    simp

theorem scan_quote (ls : List Lexeme) (name : String) :
    scan d ⟨ls, .between⟩ (d.quote name).toList = ⟨ls, .closed name.toList.reverse⟩ := by
  have hopen : Scan.next d ⟨ls, .between⟩ d.openQuote = ⟨ls, .name []⟩ := by
    cases d <;> rfl
  rw [Dialect.quote, String.toList_ofList, List.cons_append, scan_cons, hopen, scan_append,
    scan_doubled]
  simp [scan, Scan.next]

/-- A field is scanned up to the closing quote of its column. -/
theorem scan_field (ls : List Lexeme) (f : Field) :
    scan d ⟨ls, .between⟩ (f.pieces.flatMap (Piece.chars d)) =
      ⟨.symbol '.' :: .name f.table :: ls, .closed f.column.toList.reverse⟩ := by
  have hpoint : ∀ name, Scan.next d ⟨ls, .closed name⟩ '.' =
      ⟨.symbol '.' :: .name (String.ofList name.reverse) :: ls, .between⟩ := by
    intro name
    cases d <;> rfl
  simp only [Field.pieces, List.flatMap_cons, List.flatMap_nil, List.append_nil, Piece.chars,
    Piece.text, scan_append, scan_quote]
  rw [show ".".toList = ['.'] from rfl, scan_cons, hpoint, List.reverse_reverse,
    String.ofList_toList]
  exact scan_quote _ _

theorem digit_not_blank {c : Char} (h : c.isDigit = true) : c.isWhitespace = false := by
  have := Char.isDigit_iff_toNat.mp h
  rw [Bool.eq_false_iff]
  intro hblank
  simp only [Char.isWhitespace, Bool.or_eq_true, decide_eq_true_eq] at hblank
  rcases hblank with ((rfl | rfl) | rfl) | rfl <;> revert this <;> decide

theorem digit_not_alpha {c : Char} (h : c.isDigit = true) : c.isAlpha = false := by
  have hdigit : c.val.toNat ≤ 57 := (Char.isDigit_iff_toNat.mp h).2
  rw [Bool.eq_false_iff]
  intro halpha
  unfold Char.isAlpha Char.isUpper Char.isLower at halpha
  simp only [Bool.or_eq_true, Bool.and_eq_true, decide_eq_true_eq, ge_iff_le,
    UInt32.le_iff_toNat_le] at halpha
  have hletters : 'A'.val.toNat = 65 ∧ 'a'.val.toNat = 97 := by decide
  omega

theorem scan_digits (ls : List Lexeme) (read : List Char) {cs : List Char}
    (h : ∀ c ∈ cs, c.isDigit = true ∨ c = '.') :
    scan d ⟨ls, .number read⟩ cs = ⟨ls, .number (cs.reverse ++ read)⟩ := by
  induction cs generalizing read with
  | nil => rfl
  | cons c cs ih =>
    have hc : (c.isDigit || c = '.') = true := by simpa using h c List.mem_cons_self
    rw [scan_cons, Scan.next]
    simp only [hc, if_true]
    rw [ih _ fun x hx => h x (List.mem_cons_of_mem _ hx)]
    simp

/-- Digits with or without a point are one lexeme. -/
theorem scan_number (ls : List Lexeme) {cs : List Char} (hne : cs ≠ [])
    (hhead : ∀ c, cs.head? = some c → c.isDigit = true)
    (h : ∀ c ∈ cs, c.isDigit = true ∨ c = '.') :
    scan d ⟨ls, .between⟩ cs = ⟨ls, .number cs.reverse⟩ := by
  cases cs with
  | nil => exact absurd rfl hne
  | cons c cs =>
    have hc := hhead c rfl
    have henter : Scan.next d ⟨ls, .between⟩ c = ⟨ls, .number [c]⟩ := by
      simp [Scan.next, Scan.enter, digit_not_blank hc, digit_not_alpha hc, hc]
    rw [scan_cons, henter, scan_digits ls [c] fun x hx => h x (List.mem_cons_of_mem _ hx)]
    simp

/-- Behind an expression, nothing or a number may be unfinished. -/
def Scan.Settled (s : Scan) : Prop := s.mode = .between ∨ ∃ cs, s.mode = .number cs

theorem Scan.Settled.next {s : Scan} (h : s.Settled) {c : Char} (hdigit : c.isDigit = false)
    (hpoint : c ≠ '.') : s.next d c = Scan.enter d s.finish c := by
  obtain ⟨ls, mode⟩ := s
  rcases h with h | ⟨cs, h⟩
  · obtain rfl : mode = .between := h
    rfl
  · obtain rfl : mode = .number cs := h
    simp [Scan.next, hdigit, hpoint]

end Lexeme

/-! ## Expressions -/

/-- The number that a number of a formula stands for: the one that its shortest text denotes. -/
def numeral (x : Float) : Rat := if x == 0 then 0 else (Decimal.shortest true x).value

/-- A number that is written in digits: it has no sign and is finite. -/
def IsPlain (x : Float) : Prop := Decimal.IsUnsigned x ∧ x.isInf = false

/-- The lexemes of an aggregate of a column. -/
def Aggregation.lexemes (a : Aggregation) (f : Field) : List Lexeme :=
  .word a.function :: .symbol '(' :: (if a = .countDistinct then [.word "DISTINCT"] else []) ++
    [.name f.table, .symbol '.', .name f.column, .symbol ')']

/-- The operation of a formula as one of a query. -/
def ArithOp.binaryOp : ArithOp → BinaryOp
  | add => .plus
  | sub => .minus
  | mul => .mul
  | div => .div

/-- The expression is arithmetic, and these are its lexemes. -/
inductive Written : Expr → List Lexeme → Prop
  | number {x : Float} : IsPlain x → Written (.number x) [.number (numeral x)]
  | aggregate (a : Aggregation) (f : Field) : Written (.aggregate a (.field f)) (a.lexemes f)
  | binary (op : ArithOp) {a b : Expr} {ls ls' : List Lexeme} : Written a ls → Written b ls' →
      Written (.binary a op.binaryOp b) (ls ++ .symbol op.symbol :: ls')
  | nullIfZero {e : Expr} {ls : List Lexeme} : Written e ls →
      Written (.nullIfZero e)
        (.word "NULLIF" :: .symbol '(' :: ls ++ [.symbol ',', .number 0, .symbol ')'])
  | nested {e : Expr} {ls : List Lexeme} : Written e ls →
      Written (.nested e) (.symbol '(' :: ls ++ [.symbol ')'])

namespace Written

variable {d : Dialect} {e : Expr} {ls : List Lexeme}

open Lexeme (scan scan_append scan_cons)

/-- No value stands in arithmetic. -/
theorem values (h : Written e ls) : Piece.values (e.pieces d) = [] := by
  induction h with
  | number => rfl
  | aggregate a f => rfl
  | binary op _ _ iha ihb => simp [Expr.pieces, Piece.values_append, iha, Piece.values, ihb]
  | nullIfZero _ ih => simp [Expr.pieces, Piece.values_append, ih, Piece.values]
  | nested _ ih => simp [Expr.pieces, Piece.values_append, ih, Piece.values]

theorem text_toList (h : Written e ls) :
    (e.text d).toList = (e.pieces d).flatMap (Piece.chars d) := by
  rw [Expr.text, Piece.texts_eq d 1 h.values, String.toList_join, List.flatMap_map]
  rfl

/-- The text of a plain number is digits with or without a point, which stand for it. -/
theorem number_text {x : Float} (h : IsPlain x) :
    (formulaNumber x).toList ≠ [] ∧
      (∀ c, (formulaNumber x).toList.head? = some c → c.isDigit = true) ∧
      (∀ c ∈ (formulaNumber x).toList, c.isDigit = true ∨ c = '.') ∧
      Decimal.plainValue (formulaNumber x).toList = numeral x := by
  obtain ⟨⟨hnan, hsign⟩, hinf⟩ := h
  unfold formulaNumber numeral
  split
  · have hzero : ∀ c ∈ ['0'], c.isDigit = true := List.forall_mem_singleton.mpr rfl
    refine ⟨List.cons_ne_nil '0' [], fun c hc => ?_, fun c hc => .inl (hzero c hc), ?_⟩
    · cases hc
      rfl
    · rw [show "0".toList = ['0'] from rfl, Decimal.plainValue_whole hzero]
      simp [Decimal.ofDigits, Decimal.digitValue]
  · have htext : (Decimal.display x).toList =
        Decimal.running.positional (Decimal.shortest true x) := by
      unfold Decimal.display
      rw [if_neg (by rw [hnan]; exact Bool.false_ne_true),
        if_neg (by rw [hinf]; exact Bool.false_ne_true)]
      simp [Decimal.Layout.write, Decimal.running, hsign]
    rw [htext]
    obtain ⟨whole, fraction, hcs, hne, hwhole, hfraction⟩ :=
      Decimal.running_positional (Decimal.shortest true x)
    have hhead : ∃ c cs, whole = c :: cs := List.exists_cons_of_ne_nil hne
    refine ⟨?_, ?_, ?_, Decimal.Layout.plainValue_positional _ _⟩
    · simp [hcs, hne]
    · obtain ⟨c, cs, rfl⟩ := hhead
      intro c' hc'
      rw [hcs] at hc'
      cases hc'
      exact hwhole c List.mem_cons_self
    · intro c hc
      rw [hcs] at hc
      rcases List.mem_append.mp hc with hc | hc
      · exact .inl (hwhole c hc)
      · exact hfraction c hc

/-! ## Fixed words -/

theorem scan_function (a : Aggregation) (before : List Lexeme) :
    scan d ⟨before, .between⟩
        (a.function ++ "(" ++ if a = .countDistinct then "DISTINCT " else "").toList =
      ⟨(if a = .countDistinct then [.word "DISTINCT"] else []) ++
        .symbol '(' :: .word a.function :: before, .between⟩ := by
  cases a <;> cases d <;> rfl

theorem scan_operator {s : Lexeme.Scan} (h : s.Settled) (op : ArithOp) :
    scan d s (" " ++ op.binaryOp.sign ++ " ").toList =
      ⟨.symbol op.symbol :: s.finish, .between⟩ := by
  have hchars : (" " ++ op.binaryOp.sign ++ " ").toList = [' ', op.symbol, ' '] := by
    cases op <;> rfl
  rw [hchars, scan_cons, h.next rfl (by decide)]
  cases op <;> cases d <;> rfl

theorem scan_close {s : Lexeme.Scan} (h : s.Settled) :
    scan d s ")".toList = ⟨.symbol ')' :: s.finish, .between⟩ := by
  rw [show ")".toList = [')'] from rfl, scan_cons, h.next rfl (by decide)]
  cases d <;> rfl

theorem scan_nullIf_close {s : Lexeme.Scan} (h : s.Settled) :
    scan d s ", 0)".toList =
      ⟨.symbol ')' :: .number 0 :: .symbol ',' :: s.finish, .between⟩ := by
  have hzero : Decimal.plainValue ['0'] = 0 := by
    rw [Decimal.plainValue_whole (List.forall_mem_singleton.mpr rfl)]
    simp [Decimal.ofDigits, Decimal.digitValue]
  have hrest : scan d ⟨.symbol ',' :: s.finish, .between⟩ [' ', '0', ')'] =
      ⟨.symbol ')' :: .number (Decimal.plainValue ['0']) :: .symbol ',' :: s.finish, .between⟩ := by
    cases d <;> rfl
  rw [show ", 0)".toList = [',', ' ', '0', ')'] from rfl, scan_cons, h.next rfl (by decide),
    ← hzero, ← hrest]
  cases d <;> rfl

theorem scan_open (before : List Lexeme) :
    scan d ⟨before, .between⟩ "(".toList = ⟨.symbol '(' :: before, .between⟩ := by
  cases d <;> rfl

theorem scan_nullIf_open (before : List Lexeme) :
    scan d ⟨before, .between⟩ "NULLIF(".toList =
      ⟨.symbol '(' :: .word "NULLIF" :: before, .between⟩ := by
  cases d <;> rfl

/-! ## Whole expressions -/

/-- A scanner between lexemes goes over the expression and finds its lexemes. -/
theorem scan_pieces (h : Written e ls) (before : List Lexeme) :
    (scan d ⟨before, .between⟩ ((e.pieces d).flatMap (Piece.chars d))).Settled ∧
      (scan d ⟨before, .between⟩ ((e.pieces d).flatMap (Piece.chars d))).finish =
        ls.reverse ++ before := by
  induction h generalizing before with
  | number hx =>
    obtain ⟨hne, hhead, hall, hvalue⟩ := number_text hx
    simp only [Expr.pieces, List.flatMap_cons, List.flatMap_nil, List.append_nil, Piece.chars,
      Piece.text]
    rw [Lexeme.scan_number before hne hhead hall]
    refine ⟨.inr ⟨_, rfl⟩, ?_⟩
    simp [Lexeme.Scan.finish, hvalue]
  | aggregate a f =>
    have hclose : ∀ ls cs, scan d ⟨ls, .closed cs⟩ ")".toList =
        ⟨.symbol ')' :: .name (String.ofList cs.reverse) :: ls, .between⟩ := by
      intro ls cs
      cases d <;> rfl
    have hscan : scan d ⟨before, .between⟩
        (((Expr.aggregate a (.field f)).pieces d).flatMap (Piece.chars d)) =
          ⟨(a.lexemes f).reverse ++ before, .between⟩ := by
      simp only [Expr.pieces, List.flatMap_append, List.flatMap_cons, List.flatMap_nil,
        List.append_nil, scan_append]
      simp only [Piece.chars, Piece.text, scan_function]
      rw [Lexeme.scan_field, hclose]
      simp only [Aggregation.lexemes, List.reverse_reverse, String.ofList_toList]
      split <;> rfl
    rw [hscan]
    exact ⟨.inl rfl, rfl⟩
  | @binary op a b la lb _ _ iha ihb =>
    obtain ⟨hsettled, hfinish⟩ := iha before
    obtain ⟨hsettled', hfinish'⟩ := ihb (.symbol op.symbol :: (la.reverse ++ before))
    have hword : Piece.chars d (.word (" " ++ op.binaryOp.sign ++ " ")) =
        (" " ++ op.binaryOp.sign ++ " ").toList := rfl
    simp only [Expr.pieces, List.flatMap_append, List.flatMap_cons, scan_append]
    rw [hword, scan_operator hsettled, hfinish]
    refine ⟨hsettled', hfinish'.trans ?_⟩
    simp
  | @nullIfZero e ls _ ih =>
    obtain ⟨hsettled, hfinish⟩ := ih (.symbol '(' :: .word "NULLIF" :: before)
    have hopen : Piece.chars d (.word "NULLIF(") = "NULLIF(".toList := rfl
    have hclose : Piece.chars d (.word ", 0)") = ", 0)".toList := rfl
    simp only [Expr.pieces, List.flatMap_append, List.flatMap_cons, List.flatMap_nil,
      List.append_nil, scan_append]
    rw [hopen, hclose, scan_nullIf_open, scan_nullIf_close hsettled, hfinish]
    exact ⟨.inl rfl, by simp [Lexeme.Scan.finish]⟩
  | @nested e ls _ ih =>
    obtain ⟨hsettled, hfinish⟩ := ih (.symbol '(' :: before)
    have hopen : Piece.chars d (.word "(") = "(".toList := rfl
    have hclose : Piece.chars d (.word ")") = ")".toList := rfl
    simp only [Expr.pieces, List.flatMap_append, List.flatMap_cons, List.flatMap_nil,
      List.append_nil, scan_append]
    rw [hopen, hclose, scan_open, scan_close hsettled, hfinish]
    exact ⟨.inl rfl, by simp [Lexeme.Scan.finish]⟩

/-- The lexemes of a written expression. -/
theorem lexemes (h : Written e ls) : Lexeme.ofText d (e.text d) = ls := by
  rw [Lexeme.ofText, h.text_toList, (h.scan_pieces []).2]
  simp

end Written

end MetricLayer
