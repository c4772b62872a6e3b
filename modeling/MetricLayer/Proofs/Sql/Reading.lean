import MetricLayer.Proofs.Decimal.Positional
import MetricLayer.Schema.Field
import MetricLayer.Sql.Dialect
import MetricLayer.Vocabulary.Aggregation
import MetricLayer.Proofs.Vocabulary.Formula

/-!
# How a database reads arithmetic

A reader of the arithmetic in a query, independent of how queries are written here. `scan` cuts a
text into lexemes, and `readOperand` and `readOperator` read the lexemes from left to right: a product
is formed as soon as its right factor is there, and a sum when its right summand is complete.
`Arith.value` computes with nulls.

`Arith.Reads` is the grammar in the usual form, with a level for each precedence.

Results:
1. `Arith.Reads.read`: the reader finds the tree that the grammar gives.
2. `Arith.Reads.unique`: the grammar has one reading at most.
-/

namespace MetricLayer

/-! ## Values -/

namespace ArithOp

/-- The operation on two values; with a null there is no value, nor with a divisor of zero. -/
def apply (op : ArithOp) : Option Rat → Option Rat → Option Rat
  | some x, some y =>
    match op with
    | add => some (x + y)
    | sub => some (x - y)
    | mul => some (x * y)
    | div => if y = 0 then none else some (x / y)
  | _, _ => none

/-- The operation of a sign. -/
def ofSymbol? : Char → Option ArithOp
  | '+' => some add
  | '-' => some sub
  | '*' => some mul
  | '/' => some div
  | _ => none

@[simp] theorem ofSymbol?_symbol (op : ArithOp) : ofSymbol? op.symbol = some op := by
  cases op <;> rfl

end ArithOp

/-- Arithmetic over aggregates of columns. -/
inductive Arith where
  | aggregate (func : Aggregation) (column : Field)
  | number (x : Rat)
  /-- Null where the value is the number, else the value. -/
  | nullIf (e : Arith) (x : Rat)
  | binary (left : Arith) (op : ArithOp) (right : Arith)
  deriving DecidableEq

namespace Arith

/-- The value, given those of the aggregates. -/
def value (aggregates : Aggregation → Field → Option Rat) : Arith → Option Rat
  | aggregate func column => aggregates func column
  | number x => some x
  | nullIf e x => (e.value aggregates).filter (· ≠ x)
  | binary a op b => op.apply (a.value aggregates) (b.value aggregates)

end Arith

/-! ## Lexemes -/

/-- A part of a text that a database does not divide further. -/
inductive Lexeme where
  | word (s : String)
  | name (s : String)
  | number (x : Rat)
  | symbol (c : Char)
  deriving DecidableEq

namespace Lexeme

/-- What the scanner is in the middle of, with the characters of it so far, the last one first. -/
inductive Mode where
  | between
  | word (cs : List Char)
  | number (cs : List Char)
  /-- Inside a quoted name. -/
  | name (cs : List Char)
  /-- Behind a closing quote, which could be the first of two. -/
  | closed (cs : List Char)
  deriving DecidableEq

/-- How far the scanner has come: the lexemes so far, the last one first. -/
structure Scan where
  lexemes : List Lexeme := []
  mode : Mode := .between
  deriving DecidableEq

namespace Scan

/-- The lexemes when nothing more comes, the last one first. -/
def finish (s : Scan) : List Lexeme :=
  match s.mode with
  | .between => s.lexemes
  | .word cs => .word (String.ofList cs.reverse) :: s.lexemes
  | .number cs => .number (Decimal.plainValue cs.reverse) :: s.lexemes
  | .name _ => .symbol '"' :: s.lexemes
  | .closed cs => .name (String.ofList cs.reverse) :: s.lexemes

/-- The scanner behind the first character of a lexeme, or behind a blank. -/
def enter (d : Dialect) (lexemes : List Lexeme) (c : Char) : Scan :=
  if c.isWhitespace then ⟨lexemes, .between⟩
  else if c.isAlpha then ⟨lexemes, .word [c]⟩
  else if c.isDigit then ⟨lexemes, .number [c]⟩
  else if c = d.openQuote then ⟨lexemes, .name []⟩
  else ⟨.symbol c :: lexemes, .between⟩

/-- The scanner behind one more character. -/
def next (d : Dialect) (s : Scan) (c : Char) : Scan :=
  match s.mode with
  | .between => enter d s.lexemes c
  | .word cs => if c.isAlpha then ⟨s.lexemes, .word (c :: cs)⟩ else enter d s.finish c
  | .number cs =>
    if c.isDigit || c = '.' then ⟨s.lexemes, .number (c :: cs)⟩ else enter d s.finish c
  | .name cs => if c = d.closeQuote then ⟨s.lexemes, .closed cs⟩ else ⟨s.lexemes, .name (c :: cs)⟩
  | .closed cs => if c = d.closeQuote then ⟨s.lexemes, .name (c :: cs)⟩ else enter d s.finish c

end Scan

/-- The scanner behind the characters. -/
def scan (d : Dialect) (s : Scan) (cs : List Char) : Scan := cs.foldl (Scan.next d) s

/-- The lexemes of a text. -/
def ofText (d : Dialect) (text : String) : List Lexeme := (scan d {} text.toList).finish.reverse

end Lexeme

/-! ## Reading from left to right -/

namespace Arith

/-- What stands in front of the next operand within its parentheses and still waits for it. -/
structure Pending where
  sum : Option (Arith × ArithOp) := none
  product : Option (Arith × ArithOp) := none

/-- The operand, with what waits for it. -/
def attach (waiting : Option (Arith × ArithOp)) (operand : Arith) : Arith :=
  match waiting with
  | some (a, op) => .binary a op operand
  | none => operand

/-- What waits behind an operator: `product` is complete in front of it. -/
def wait (sum : Option (Arith × ArithOp)) (product : Arith) (op : ArithOp) : Pending :=
  if op.isTight then ⟨sum, some (product, op)⟩ else ⟨some (attach sum product, op), none⟩

/-- A parenthesis that is open: one around arithmetic, or that of `NULLIF`. -/
inductive Opening where
  | group
  | nullIf

/-- The aggregate function of a word. -/
def aggregation? (word : String) (distinct : Bool) : Option Aggregation :=
  Aggregation.list.find? fun a => a.function = word && (a = .countDistinct) == distinct

mutual

/-- Reads where an operand has to stand. -/
def readOperand (outer : List (Opening × Pending)) (p : Pending) : List Lexeme → Option Arith
  | .number x :: rest => readOperator outer p.sum (attach p.product (.number x)) rest
  | .symbol '(' :: rest => readOperand ((.group, p) :: outer) {} rest
  | .word "NULLIF" :: .symbol '(' :: rest => readOperand ((.nullIf, p) :: outer) {} rest
  | .word f :: .symbol '(' :: .name t :: .symbol '.' :: .name c :: .symbol ')' :: rest =>
    match aggregation? f false with
    | some a => readOperator outer p.sum (attach p.product (.aggregate a ⟨t, c⟩)) rest
    | none => none
  | .word f :: .symbol '(' :: .word "DISTINCT" :: .name t :: .symbol '.' :: .name c ::
      .symbol ')' :: rest =>
    match aggregation? f true with
    | some a => readOperator outer p.sum (attach p.product (.aggregate a ⟨t, c⟩)) rest
    | none => none
  | _ => none

/-- Reads behind an operand: `product` is complete and `sum` waits for it. -/
def readOperator (outer : List (Opening × Pending)) (sum : Option (Arith × ArithOp))
    (product : Arith) : List Lexeme → Option Arith
  | [] => if outer.isEmpty then some (attach sum product) else none
  | .symbol ')' :: rest =>
    match outer with
    | (.group, p) :: outer =>
      readOperator outer p.sum (attach p.product (attach sum product)) rest
    | _ => none
  | .symbol ',' :: .number x :: .symbol ')' :: rest =>
    match outer with
    | (.nullIf, p) :: outer =>
      readOperator outer p.sum (attach p.product (.nullIf (attach sum product) x)) rest
    | _ => none
  | .symbol c :: rest =>
    match ArithOp.ofSymbol? c with
    | some op => readOperand outer (wait sum product op) rest
    | none => none
  | _ => none

end

/-- The arithmetic of a text, if the text is arithmetic. -/
def read (d : Dialect) (text : String) : Option Arith := readOperand [] {} (Lexeme.ofText d text)

/-! ## The grammar -/

/-- A level of the grammar. -/
inductive Level where
  | sum
  | product
  | operand

/-- The lexemes are arithmetic of the level, with the tree: a sum of products of operands, grouped to
the left. -/
inductive Reads : Level → List Lexeme → Arith → Prop
  | number {x : Rat} : Reads .operand [.number x] (.number x)
  | aggregate {f t c : String} {a : Aggregation} : aggregation? f false = some a →
      Reads .operand [.word f, .symbol '(', .name t, .symbol '.', .name c, .symbol ')']
        (.aggregate a ⟨t, c⟩)
  | distinct {f t c : String} {a : Aggregation} : aggregation? f true = some a →
      Reads .operand
        [.word f, .symbol '(', .word "DISTINCT", .name t, .symbol '.', .name c, .symbol ')']
        (.aggregate a ⟨t, c⟩)
  | group {ls : List Lexeme} {e : Arith} : Reads .sum ls e →
      Reads .operand (.symbol '(' :: ls ++ [.symbol ')']) e
  | nullIf {ls : List Lexeme} {e : Arith} {x : Rat} : Reads .sum ls e →
      Reads .operand
        (.word "NULLIF" :: .symbol '(' :: ls ++ [.symbol ',', .number x, .symbol ')']) (.nullIf e x)
  | factor {ls : List Lexeme} {e : Arith} : Reads .operand ls e → Reads .product ls e
  | times {ls ls' : List Lexeme} {a b : Arith} {op : ArithOp} : op.isTight = true →
      Reads .product ls a → Reads .operand ls' b →
        Reads .product (ls ++ .symbol op.symbol :: ls') (.binary a op b)
  | summand {ls : List Lexeme} {e : Arith} : Reads .product ls e → Reads .sum ls e
  | plus {ls ls' : List Lexeme} {a b : Arith} {op : ArithOp} : op.isTight = false →
      Reads .sum ls a → Reads .product ls' b →
        Reads .sum (ls ++ .symbol op.symbol :: ls') (.binary a op b)

theorem aggregation?_ne {f : String} {distinct : Bool} {a : Aggregation}
    (h : aggregation? f distinct = some a) : f ≠ "NULLIF" := by
  have := List.find?_some h
  simp only [Bool.and_eq_true, decide_eq_true_eq] at this
  rw [← this.1]
  cases a <;> decide

theorem readOperator_symbol (outer : List (Opening × Pending)) (sum : Option (Arith × ArithOp))
    (product : Arith) (op : ArithOp) (rest : List Lexeme) :
    readOperator outer sum product (.symbol op.symbol :: rest) =
      readOperand outer (wait sum product op) rest := by
  cases op <;> rfl

/-- How far the reader comes with lexemes of the level: an operand goes into the product in front of
it, and a product is complete when something looser comes. -/
def Level.Reaches (level : Level) (ls : List Lexeme) (e : Arith) : Prop :=
  match level with
  | .operand => ∀ outer p rest,
      readOperand outer p (ls ++ rest) = readOperator outer p.sum (attach p.product e) rest
  | .product => ∀ outer sum rest,
      readOperand outer ⟨sum, none⟩ (ls ++ rest) = readOperator outer sum e rest
  | .sum => ∃ sum product, attach sum product = e ∧ ∀ outer rest,
      readOperand outer {} (ls ++ rest) = readOperator outer sum product rest

theorem Reads.reaches {level : Level} {ls : List Lexeme} {e : Arith} (h : Reads level ls e) :
    level.Reaches ls e := by
  induction h with
  | number =>
    intro outer p rest
    rfl
  | @aggregate f t c a hf =>
    intro outer p rest
    simp [readOperand, hf, aggregation?_ne hf]
  | @distinct f t c a hf =>
    intro outer p rest
    simp [readOperand, hf, aggregation?_ne hf]
  | group _ ih =>
    obtain ⟨sum, product, rfl, hread⟩ := ih
    intro outer p rest
    simp only [List.cons_append, List.append_assoc, readOperand, hread]
    rfl
  | nullIf _ ih =>
    obtain ⟨sum, product, rfl, hread⟩ := ih
    intro outer p rest
    simp only [List.cons_append, List.append_assoc, readOperand, hread]
    rfl
  | factor _ ih => exact fun outer sum rest => ih outer ⟨sum, none⟩ rest
  | @times ls ls' a b op htight _ _ iha ihb =>
    intro outer sum rest
    rw [List.append_assoc, iha, List.cons_append, readOperator_symbol, ihb]
    simp [wait, htight, attach]
  | @summand ls e _ ih => exact ⟨none, e, rfl, fun outer rest => ih outer none rest⟩
  | @plus ls ls' a b op htight _ _ iha ihb =>
    obtain ⟨sum, product, rfl, hread⟩ := iha
    refine ⟨some (attach sum product, op), b, rfl, fun outer rest => ?_⟩
    rw [List.append_assoc, hread, List.cons_append, readOperator_symbol, wait, htight]
    exact ihb outer _ rest

/-- The reader finds the tree that the grammar gives. -/
theorem Reads.read {ls : List Lexeme} {e : Arith} (h : Reads .sum ls e) :
    readOperand [] {} ls = some e := by
  obtain ⟨sum, product, rfl, hread⟩ := h.reaches
  simpa [readOperator] using hread [] []

/-- The grammar has one reading at most. -/
theorem Reads.unique {ls : List Lexeme} {a b : Arith} (ha : Reads .sum ls a)
    (hb : Reads .sum ls b) : a = b :=
  Option.some.inj (ha.read.symm.trans hb.read)

end Arith

end MetricLayer
