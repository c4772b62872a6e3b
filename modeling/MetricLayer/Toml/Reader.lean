import MetricLayer.Json.Reader
import MetricLayer.Toml.Document
import MetricLayer.Toml.Moment

/-!
# Reading documents of tables

The text of a document is a sequence of lines. A line holds a header in brackets, a name with a
value, or nothing, and may end in a comment. Values are texts in one of four quotations, numbers,
truth values, moments, lists and inline tables. Lists and inline tables may be spread over lines,
and may end in a comma. Every reader takes the characters at hand and gives what it read together
with what follows; `parse?` reads a whole document. Values that are nested deeper than `depthLimit`,
and names of more parts, are refused.
-/

namespace MetricLayer.Toml

/-- What a reader gives. -/
abbrev Result (α : Type) := Option (α × List Char)

/-- White space inside a line. -/
def isSpace (c : Char) : Bool := c = ' ' || c = '\t'

/-- The characters without leading white space. -/
def skipSpace (cs : List Char) : List Char := cs.dropWhile isSpace

/-- A control character other than a tab. -/
def isControl (c : Char) : Bool := (c < ' ' && c != '\t') || c = '\x7f'

/-- The rest of a line after a comment, if there is one. -/
def skipComment? : List Char → Option (List Char)
  | '#' :: cs =>
    let body := cs.takeWhile (· ≠ '\n')
    let rest := cs.drop body.length
    let body := if body.getLast? = some '\r' && !rest.isEmpty then body.dropLast else body
    if body.any isControl then none else some rest
  | cs => some cs

/-- The characters after the end of a line. -/
def skipLineEnd? : List Char → Option (List Char)
  | [] => some []
  | '\n' :: cs => some cs
  | '\r' :: '\n' :: cs => some cs
  | _ => none

/-- White space, comments and line ends; `fuel` exceeds the length. -/
def skipBlankLines? : Nat → List Char → Option (List Char)
  | 0, cs => some cs
  | fuel + 1, cs =>
    match skipComment? (skipSpace cs) with
    | none => none
    | some ('\n' :: r) => skipBlankLines? fuel r
    | some ('\r' :: '\n' :: r) => skipBlankLines? fuel r
    | some r => some r

/-- The character of a code point in exactly so many hexadecimal digits. -/
def readCodePoint? (count : Nat) (cs : List Char) : Result Char :=
  let digits := cs.take count
  match digits.foldlM (fun n c => (Json.hexDigit? c).map (16 * n + ·)) 0 with
  | none => none
  | some n =>
    if digits.length = count ∧ (n < 0xD800 ∨ (0xDFFF < n ∧ n < 0x110000)) then
      some (Char.ofNat n, cs.drop count)
    else none

/-- The character of an escape and what follows it, the backslash having been read. -/
def readEscape? : List Char → Result Char
  | 'b' :: cs => some ('\x08', cs)
  | 't' :: cs => some ('\t', cs)
  | 'n' :: cs => some ('\n', cs)
  | 'f' :: cs => some ('\x0c', cs)
  | 'r' :: cs => some ('\r', cs)
  | 'e' :: cs => some ('\x1b', cs)
  | '"' :: cs => some ('"', cs)
  | '\\' :: cs => some ('\\', cs)
  | 'x' :: cs => readCodePoint? 2 cs
  | 'u' :: cs => readCodePoint? 4 cs
  | 'U' :: cs => readCodePoint? 8 cs
  | _ => none

/-- A text in double quotes on one line, `acc` holding, reversed, what was read. -/
def readBasic? : Nat → List Char → List Char → Result String
  | 0, _, _ => none
  | fuel + 1, acc, cs =>
    match cs with
    | '"' :: r => some (String.ofList acc.reverse, r)
    | '\\' :: r =>
      match readEscape? r with
      | some (c, r) => readBasic? fuel (c :: acc) r
      | none => none
    | c :: r => if isControl c then none else readBasic? fuel (c :: acc) r
    | [] => none

/-- A text in single quotes on one line. -/
def readLiteral? (cs : List Char) : Result String :=
  let body := cs.takeWhile (· ≠ '\'')
  match cs.drop body.length with
  | '\'' :: r => if body.any isControl then none else some (String.ofList body, r)
  | _ => none

/-- The closing quotes of a text over several lines: up to two quotes in front of the last three
belong to the text. -/
def closing? (q : Char) (cs : List Char) : Result (List Char) :=
  let n := (cs.takeWhile (· = q)).length
  if n < 3 then none
  else
    let extra := min (n - 3) 2
    some (List.replicate extra q, cs.drop (extra + 3))

/-- The characters without leading white space and line ends. -/
def skipWhite : List Char → List Char
  | '\r' :: '\n' :: cs => skipWhite cs
  | c :: cs => if isSpace c || c = '\n' then skipWhite cs else c :: cs
  | [] => []

/-- A text in three double quotes. A backslash at the end of a line joins the lines. -/
def readLongBasic? : Nat → List Char → List Char → Result String
  | 0, _, _ => none
  | fuel + 1, acc, cs =>
    match closing? '"' cs with
    | some (extra, r) => some (String.ofList (acc.reverse ++ extra), r)
    | none =>
      match cs with
      | '\\' :: r =>
        match skipLineEnd? (skipSpace r) with
        | some r' => readLongBasic? fuel acc (skipWhite r')
        | none =>
          match readEscape? r with
          | some (c, r) => readLongBasic? fuel (c :: acc) r
          | none => none
      | '\r' :: '\n' :: r => readLongBasic? fuel ('\n' :: '\r' :: acc) r
      | c :: r => if isControl c && c != '\n' then none else readLongBasic? fuel (c :: acc) r
      | [] => none

/-- A text in three single quotes. -/
def readLongLiteral? : Nat → List Char → List Char → Result String
  | 0, _, _ => none
  | fuel + 1, acc, cs =>
    match closing? '\'' cs with
    | some (extra, r) => some (String.ofList (acc.reverse ++ extra), r)
    | none =>
      match cs with
      | '\r' :: '\n' :: r => readLongLiteral? fuel ('\n' :: '\r' :: acc) r
      | c :: r => if isControl c && c != '\n' then none else readLongLiteral? fuel (c :: acc) r
      | [] => none

/-- The characters without the line end right behind opening quotes. -/
def dropFirstLineEnd : List Char → List Char
  | '\n' :: cs => cs
  | '\r' :: '\n' :: cs => cs
  | cs => cs

/-- A text in one of the four quotations. -/
def readText? (cs : List Char) : Result String :=
  match cs with
  | '"' :: '"' :: '"' :: r => readLongBasic? (cs.length + 1) [] (dropFirstLineEnd r)
  | '\'' :: '\'' :: '\'' :: r => readLongLiteral? (cs.length + 1) [] (dropFirstLineEnd r)
  | '"' :: r => readBasic? (cs.length + 1) [] r
  | '\'' :: r => readLiteral? r
  | _ => none

/-- A character of a name without quotes. -/
def isBareChar (c : Char) : Bool := c.isAlphanum || c = '_' || c = '-'

/-- One part of a name. -/
def readNamePart? (cs : List Char) : Result String :=
  match cs with
  | '"' :: r => readBasic? (cs.length + 1) [] r
  | '\'' :: r => readLiteral? r
  | _ =>
    let bare := cs.takeWhile isBareChar
    if bare.isEmpty then none else some (String.ofList bare, cs.drop bare.length)

/-- How deep values may be nested, and how many parts a name may have. -/
def depthLimit : Nat := 80

/-- A name of parts with points between them, which has at most so many parts. -/
def readParts? : Nat → List Char → Result (List String)
  | 0, _ => none
  | count + 1, cs =>
    match readNamePart? (skipSpace cs) with
    | none => none
    | some (part, r) =>
      match skipSpace r with
      | '.' :: r => (readParts? count r).map fun (parts, r) => (part :: parts, r)
      | r => some ([part], r)

/-- A name. -/
def readName? (cs : List Char) : Result (List String) := readParts? depthLimit cs

/-- The digits without the underscores between them; every underscore stands between two digits. -/
def joinDigits? (isDigit : Char → Bool) (cs : List Char) : Option (List Char) :=
  let groups := String.ofList cs |>.splitOn "_"
  if groups.all fun g => !g.isEmpty && g.toList.all isDigit then some (cs.filter (· ≠ '_'))
  else none

/-- A whole number that fits 128 bits, with or without a sign. -/
def intValue? (n : Int) : Option Json :=
  if -(bitValues 127 : Int) ≤ n ∧ n < bitValues 128 then some (.int n) else none

/-- The digits of a number do not begin with a zero that could be left out. -/
def noLeadingZero (ds : List Char) : Bool := ds.length ≤ 1 || ds.head? != some '0'

/-- A number in digits of a base, after the mark of the base. -/
def basedValue? (base : Nat) (cs : List Char) : Option Json :=
  let isDigit (c : Char) : Bool := (Json.hexDigit? c).any (· < base)
  (joinDigits? isDigit cs).bind fun ds =>
    intValue? (ds.foldl (fun n c => base * n + (Json.hexDigit? c).getD 0) 0 : Nat)

/-- A number in decimal digits, after its sign. -/
def decimalValue? (negative : Bool) (cs : List Char) : Option Json := do
  let whole := cs.takeWhile fun c => c.isDigit || c = '_'
  let rest := cs.drop whole.length
  let ds ← joinDigits? Char.isDigit whole
  if !noLeadingZero ds then none
  if rest.isEmpty then
    let n := Decimal.ofDigits ds
    intValue? (if negative then -n else n)
  else
    let (fraction, rest) ← match rest with
      | '.' :: r =>
        let f := r.takeWhile fun c => c.isDigit || c = '_'
        (joinDigits? Char.isDigit f).map (·, r.drop f.length)
      | r => some ([], r)
    let exponent ← match rest with
      | [] => some 0
      | c :: r =>
        if c = 'e' ∨ c = 'E' then
          let (negative, r) := Decimal.readSign r
          (joinDigits? Char.isDigit r).map fun e =>
            if negative then -(Decimal.ofDigits e : Int) else Decimal.ofDigits e
        else none
    let x := Decimal.nearest (Decimal.ofDigits (ds ++ fraction)) (exponent - fraction.length)
    if x.isInf then none else pure (.float (if negative then -x else x))

/-- The value of a word that stands without quotes. -/
def wordValue? (cs : List Char) : Option Json :=
  match String.ofList cs with
  | "true" => some (.bool true)
  | "false" => some (.bool false)
  | "inf" | "+inf" => some (.float (1 / 0))
  | "-inf" => some (.float (-(1 / 0)))
  | "nan" | "+nan" | "-nan" => some (.float (0 / 0))
  | _ =>
    match cs with
    | '0' :: 'x' :: r => basedValue? 16 r
    | '0' :: 'o' :: r => basedValue? 8 r
    | '0' :: 'b' :: r => basedValue? 2 r
    | _ =>
      let (negative, r) := Decimal.readSign cs
      decimalValue? negative r

/-- A character of a word that stands without quotes. -/
def isWordChar (c : Char) : Bool := c.isAlphanum || c = '_' || c = '-' || c = '+' || c = '.'

/-- The name of a member of an inline table, up to the value behind the equals sign. -/
def readMemberName? (cs : List Char) : Result (List String) :=
  match readName? cs with
  | none => none
  | some (path, r) =>
    match skipBlankLines? (r.length + 1) r with
    | some ('=' :: r) => (skipBlankLines? (r.length + 1) r).map (path, ·)
    | _ => none

mutual

/-- A value in which lists and inline tables are nested at most `depth` deep; `fuel` exceeds the
length. -/
def readValue? : Nat → Nat → List Char → Result Json
  | 0, _, _ => none
  | fuel + 1, depth, cs =>
    match cs with
    | '[' :: r =>
      match depth with
      | 0 => none
      | depth + 1 => (readItems? fuel depth [] r).map fun (items, r) => (.arr items, r)
    | '\x7b' :: r =>
      match depth with
      | 0 => none
      | depth + 1 => (readInline? fuel depth [] r).map fun (ms, r) => (.obj (membersToJson ms), r)
    | '"' :: _ => (readText? cs).map fun (s, r) => (.str s, r)
    | '\'' :: _ => (readText? cs).map fun (s, r) => (.str s, r)
    | _ =>
      match readMoment? cs with
      | some moment => some moment
      | none =>
        let word := cs.takeWhile isWordChar
        (wordValue? word).map (·, cs.drop word.length)

/-- The items of a list up to its closing bracket, `acc` holding, reversed, those read. -/
def readItems? : Nat → Nat → List Json → List Char → Result (List Json)
  | 0, _, _, _ => none
  | fuel + 1, depth, acc, cs =>
    match skipBlankLines? (cs.length + 1) cs with
    | none => none
    | some (']' :: r) => some (acc.reverse, r)
    | some r =>
      match readValue? fuel depth r with
      | none => none
      | some (j, r) =>
        match skipBlankLines? (r.length + 1) r with
        | some (',' :: r) => readItems? fuel depth (j :: acc) r
        | some (']' :: r) => some ((j :: acc).reverse, r)
        | _ => none

/-- The members of an inline table up to its closing brace, `acc` holding those read. They may be
spread over lines like the items of a list; only the parts of one name stand together. -/
def readInline? : Nat → Nat → Members → List Char → Result Members
  | 0, _, _, _ => none
  | fuel + 1, depth, acc, cs =>
    match skipBlankLines? (cs.length + 1) cs with
    | none => none
    | some ('\x7d' :: r) => some (acc, r)
    | some r =>
      match readMemberName? r with
      | none => none
      | some (path, r) =>
        match readValue? fuel depth r with
        | none => none
        | some (j, r) =>
          match acc.insert? path j with
          | none => none
          | some acc =>
            match skipBlankLines? (r.length + 1) r with
            | some (',' :: r) => readInline? fuel depth acc r
            | some ('\x7d' :: r) => some (acc, r)
            | _ => none

end

/-- What a line holds, if it is not blank, without its comment and its end. -/
def readLine? (cs : List Char) : Result Line :=
  match cs with
  | '[' :: '[' :: r =>
    match readName? r with
    | some (path, ']' :: ']' :: r) => some (.item path, r)
    | _ => none
  | '[' :: r =>
    match readName? r with
    | some (path, ']' :: r) => some (.header path, r)
    | _ => none
  | _ =>
    match readName? cs with
    | some (path, '=' :: r) =>
      (readValue? (cs.length + 1) depthLimit (skipSpace r)).map fun (j, r) => (.member path j, r)
    | _ => none

/-- All lines; `fuel` exceeds the length. -/
def readLines? : Nat → List Char → Option (List Line)
  | 0, _ => none
  | fuel + 1, cs =>
    match skipBlankLines? (cs.length + 1) cs with
    | none => none
    | some [] => some []
    | some r =>
      match readLine? r with
      | none => none
      | some (line, r) =>
        match (skipComment? (skipSpace r)).bind skipLineEnd? with
        | none => none
        | some r => (readLines? fuel r).map (line :: ·)

/-- The document written in a text. -/
def parse? (s : String) : Option Json :=
  let cs := s.toList
  let cs := if cs.head? = some '\ufeff' then cs.drop 1 else cs
  (readLines? (cs.length + 1) cs).bind ofLines?

end MetricLayer.Toml
