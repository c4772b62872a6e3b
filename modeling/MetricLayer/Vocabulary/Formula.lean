import MetricLayer.Decimal.Reader
import MetricLayer.Text.Blank
import MetricLayer.Text.Letter

/-!
# Formulas of calculated metrics

A formula combines metrics, written in square brackets, and numbers by `+`, `-`, `*`, `/` and
parentheses. `*` and `/` bind tighter than `+` and `-`, and all four group to the left. Parentheses
are kept as `Formula.group`, so the tree can be written back as it stands.

`Formula.parse` reads a text in two steps: `tokens` and then the grammar.
-/

namespace MetricLayer

/-- An arithmetic operation. -/
inductive ArithOp where
  | add
  | sub
  | mul
  | div
  deriving DecidableEq, Repr

/-- A formula over metrics that are referred to by name. -/
inductive Formula where
  | metric (name : String)
  | number (x : Float)
  | binary (left : Formula) (op : ArithOp) (right : Formula)
  | group (inner : Formula)
  deriving DecidableEq, Repr

/-- Why a text is not a formula. -/
inductive FormulaError where
  /-- No token begins after so many bytes; the text from there on is given. -/
  | noToken (offset : Nat) (rest : String)
  /-- The digits are not ASCII digits. -/
  | badNumber (digits : String)
  | endOfFormula
  | missingParenthesis
  | unexpected (symbol : Char)
  | trailing (source : String)
  | empty
  deriving DecidableEq, Repr

/-- The text of a formula error. -/
def FormulaError.message : FormulaError → String
  | .noToken offset rest => s!"unexpected input at offset {offset}: '" ++ rest ++ "'"
  | .badNumber digits => "bad number '" ++ digits ++ "': invalid float literal"
  | .endOfFormula => "unexpected end of formula"
  | .missingParenthesis => "missing ')'"
  | .unexpected c => "unexpected '" ++ String.ofList [c] ++ "'"
  | .trailing source => "trailing input in formula '" ++ source ++ "'"
  | .empty => "empty formula"

namespace Formula

/-- A token: a reference to a metric, a number or a symbol. -/
inductive Token where
  | ref (name : String)
  | number (x : Float)
  | symbol (c : Char)
  deriving DecidableEq, Repr

/-- The character is a symbol of formulas. -/
def isSymbol (c : Char) : Bool := "-+*/()".toList.contains c

/-- The digits at the start of the text: whole digits, and a point with digits behind it. -/
def numberPrefix (cs : List Char) : List Char :=
  let whole := cs.takeWhile Text.isDecimalDigit
  match cs.drop whole.length with
  | '.' :: r =>
    let fraction := r.takeWhile Text.isDecimalDigit
    if fraction.isEmpty then whole else whole ++ '.' :: fraction
  | _ => whole

/-- The token at the start of a text without leading blanks, and what follows it: nothing if no
token begins there. -/
def nextToken? (cs : List Char) : Option (Except FormulaError Token × List Char) :=
  match cs with
  | [] => none
  | c :: r =>
    if c = '[' then
      let name := r.takeWhile (· ≠ ']')
      let rest := r.drop name.length
      if name.isEmpty || rest.isEmpty then none
      else some (.ok (.ref (Text.trim (String.ofList name))), rest.drop 1)
    else if Text.isDecimalDigit c then
      let digits := numberPrefix cs
      let token := match Decimal.readUnsigned? digits with
        | some x => .ok (.number x)
        | none => .error (.badNumber (String.ofList digits))
      some (token, cs.drop digits.length)
    else if isSymbol c then some (.ok (.symbol c), r)
    else none

/-- The number of bytes of the characters. -/
def byteLength (cs : List Char) : Nat := cs.foldr (fun c n => c.utf8Size + n) 0

/-- The tokens of a text that begins `offset` bytes into the formula; `fuel` exceeds its length. -/
def tokensFrom : Nat → Nat → List Char → Except FormulaError (List Token)
  | 0, offset, cs => .error (.noToken offset (String.ofList cs))
  | fuel + 1, offset, cs =>
    let body := cs.dropWhile Text.isBlank
    if body.isEmpty then .ok []
    else match nextToken? body with
      | none => .error (.noToken offset (String.ofList cs))
      | some (token, rest) => do
        let t ← token
        let ts ← tokensFrom fuel (offset + (byteLength cs - byteLength rest)) rest
        pure (t :: ts)

/-- The tokens of a text. -/
def tokens (source : String) : Except FormulaError (List Token) :=
  tokensFrom (source.toList.length + 1) 0 source.toList

/-- The operation of a symbol between sums. -/
def sumOp? (c : Char) : Option ArithOp :=
  if c = '+' then some .add else if c = '-' then some .sub else none

/-- The operation of a symbol between products. -/
def productOp? (c : Char) : Option ArithOp :=
  if c = '*' then some .mul else if c = '/' then some .div else none

mutual

/-- A sum of products. -/
def readSum : Nat → List Token → Except FormulaError (Formula × List Token)
  | 0, _ => .error .endOfFormula
  | fuel + 1, ts => do
    let (left, ts) ← readProduct fuel ts
    readSumTail fuel left ts

/-- The further summands behind `left`. -/
def readSumTail : Nat → Formula → List Token → Except FormulaError (Formula × List Token)
  | 0, left, ts => .ok (left, ts)
  | fuel + 1, left, ts =>
    match ts with
    | .symbol c :: rest =>
      match sumOp? c with
      | some op => do
        let (right, ts) ← readProduct fuel rest
        readSumTail fuel (.binary left op right) ts
      | none => .ok (left, ts)
    | _ => .ok (left, ts)

/-- A product of factors. -/
def readProduct : Nat → List Token → Except FormulaError (Formula × List Token)
  | 0, _ => .error .endOfFormula
  | fuel + 1, ts => do
    let (left, ts) ← readFactor fuel ts
    readProductTail fuel left ts

/-- The further factors behind `left`. -/
def readProductTail : Nat → Formula → List Token → Except FormulaError (Formula × List Token)
  | 0, left, ts => .ok (left, ts)
  | fuel + 1, left, ts =>
    match ts with
    | .symbol c :: rest =>
      match productOp? c with
      | some op => do
        let (right, ts) ← readFactor fuel rest
        readProductTail fuel (.binary left op right) ts
      | none => .ok (left, ts)
    | _ => .ok (left, ts)

/-- A reference, a number or a sum in parentheses. -/
def readFactor : Nat → List Token → Except FormulaError (Formula × List Token)
  | 0, _ => .error .endOfFormula
  | fuel + 1, ts =>
    match ts with
    | [] => .error .endOfFormula
    | .ref name :: rest => .ok (.metric name, rest)
    | .number x :: rest => .ok (.number x, rest)
    | .symbol c :: rest =>
      if c = '(' then do
        let (inner, ts) ← readSum fuel rest
        match ts with
        | .symbol ')' :: rest => .ok (.group inner, rest)
        | _ => .error .missingParenthesis
      else .error (.unexpected c)

end

/-- The formula of a nonempty list of tokens. The steps that a token allows are at most three levels
of the grammar, so four times their number suffices. -/
def ofTokens (source : String) (ts : List Token) : Except FormulaError Formula :=
  if ts.isEmpty then .error .empty
  else match readSum (4 * ts.length + 4) ts with
    | .error e => .error e
    | .ok (formula, rest) => if rest.isEmpty then .ok formula else .error (.trailing source)

/-- The formula written in a text. -/
def parse (source : String) : Except FormulaError Formula := do
  let ts ← tokens source
  ofTokens source ts

/-- The names of the metrics, in order and with repetitions. -/
def names : Formula → List String
  | metric name => [name]
  | number _ => []
  | binary left _ right => left.names ++ right.names
  | group inner => inner.names

/-- The names of the metrics, each once, in the order in which they first occur. -/
def references (f : Formula) : List String := f.names.eraseDups

/-- The formula with other names for its metrics. -/
def rename (f : String → String) : Formula → Formula
  | metric name => metric (f name)
  | number x => number x
  | binary left op right => binary (left.rename f) op (right.rename f)
  | group inner => group (inner.rename f)

end Formula

end MetricLayer
