import MetricLayer.Decimal.Reader
import MetricLayer.Json.Basic

/-!
# Reading data trees

`Json.parse?` reads one tree and nothing after it. The last of several members with one name
counts. Whole numbers that fit 64 bits (signed or unsigned) are whole; every other number is a
decimal, `-0` among them, and one beyond the range of binary numbers is refused. Trees nest less
than `depthLimit` deep.
-/

namespace MetricLayer.Json

/-- The nesting depth that is refused. -/
def depthLimit : Nat := 128

/-- White space between tokens. -/
def isSpace (c : Char) : Bool := c = ' ' || c = '\n' || c = '\t' || c = '\r'

/-- The value of a hexadecimal digit. -/
def hexDigit? (c : Char) : Option Nat :=
  if c.isDigit then some (c.toNat - '0'.toNat)
  else if 'a' ≤ c && c ≤ 'f' then some (c.toNat - 'a'.toNat + 10)
  else if 'A' ≤ c && c ≤ 'F' then some (c.toNat - 'A'.toNat + 10)
  else none

/-- The value of four hexadecimal digits. -/
def hex4? (a b c d : Char) : Option Nat := do
  let a ← hexDigit? a
  let b ← hexDigit? b
  let c ← hexDigit? c
  let d ← hexDigit? d
  pure (((a * 16 + b) * 16 + c) * 16 + d)

/-- The character that a one-letter escape stands for. -/
def escape? : Char → Option Char
  | '"' => some '"'
  | '\\' => some '\\'
  | '/' => some '/'
  | 'b' => some '\x08'
  | 'f' => some '\x0c'
  | 'n' => some '\n'
  | 'r' => some '\r'
  | 't' => some '\t'
  | _ => none

/-- The character of a pair of surrogates. -/
def ofSurrogates (high low : Nat) : Char :=
  Char.ofNat (0x10000 + (high - 0xD800) * 0x400 + (low - 0xDC00))

/-- The rest of a string after its opening quote, `acc` holding, reversed, what was read. A pair of
surrogates makes one character; a lone one is refused. -/
def readString? (acc : List Char) : List Char → Option (String × List Char)
  | [] => none
  | '"' :: cs => some (String.ofList acc.reverse, cs)
  | '\\' :: 'u' :: a :: b :: c :: d :: cs =>
    match hex4? a b c d with
    | none => none
    | some unit =>
      if unit < 0xD800 ∨ 0xDFFF < unit then readString? (Char.ofNat unit :: acc) cs
      else if 0xDC00 ≤ unit then none
      else match cs with
        | '\\' :: 'u' :: a :: b :: c :: d :: cs =>
          match hex4? a b c d with
          | none => none
          | some low =>
            if 0xDC00 ≤ low ∧ low ≤ 0xDFFF then
              readString? (ofSurrogates unit low :: acc) cs
            else none
        | _ => none
  | '\\' :: c :: cs =>
    match escape? c with
    | none => none
    | some x => readString? (x :: acc) cs
  | c :: cs => if c < ' ' then none else readString? (c :: acc) cs

/-- The largest leading part of the digits whose value fits 64 bits, as a number, and the number of
digits that are left. -/
def leadingDigits (start : Nat) : List Char → Nat × Nat
  | [] => (start, 0)
  | c :: cs =>
    let next := 10 * start + Decimal.digitValue c
    if next < bitValues 64 then leadingDigits next cs else (start, cs.length + 1)

/-- The number `significand · 10^scale` by steps of at most `10^308`, each rounded; nothing if it is
too large. `fuel` bounds the steps. -/
def scaleBy? (significand : Float) (scale : Int) : Nat → Option Float
  | 0 => some significand
  | fuel + 1 =>
    if scale.natAbs ≤ 308 then
      let power := Float.ofScientific 1 false scale.natAbs
      let scaled := if 0 ≤ scale then significand * power else significand / power
      if scaled.isInf then none else some scaled
    else if significand == 0 then some significand
    else if 0 ≤ scale then none
    else scaleBy? (significand / 1e308) (scale + 308) fuel

/-- A decimal in scientific form: its sign, whole digits, fraction digits and exponent. The digits
that fit 64 bits make the significand, and the rest only counts. -/
def decimal? (negative : Bool) (whole fraction : List Char) (exponent : Int) : Option Json :=
  let (start, dropped) := leadingDigits 0 whole
  let (significand, ignored) := leadingDigits start fraction
  let scale := (dropped : Int) - (fraction.length - ignored : Nat) + exponent
  let exact := if significand = 0 then some 0
    else if scale < -1000 then some 0
    else scaleBy? (Float.ofNat significand) scale 4
  exact.map fun x => float (if negative then -x else x)

/-- The exponent part of a number, if there is one. -/
def readScale? : List Char → Option (Option Int × List Char)
  | c :: cs =>
    if c = 'e' ∨ c = 'E' then
      let (negative, ds) := Decimal.readSign cs
      let n := Decimal.ofDigits (ds.takeWhile Char.isDigit)
      if (ds.takeWhile Char.isDigit).isEmpty then none
      else some (some (if negative then -n else n), ds.dropWhile Char.isDigit)
    else some (none, c :: cs)
  | [] => some (none, [])

/-- A number after its sign: no leading zeros, and digits on both sides of a point. -/
def readNumber? (negative : Bool) (cs : List Char) : Option (Json × List Char) := do
  let whole := cs.takeWhile Char.isDigit
  let rest := cs.dropWhile Char.isDigit
  if whole.isEmpty || (whole.head? == some '0' && whole.length ≠ 1) then none
  let (fraction, rest) ← match rest with
    | '.' :: r =>
      if (r.takeWhile Char.isDigit).isEmpty then none
      else some (some (r.takeWhile Char.isDigit), r.dropWhile Char.isDigit)
    | r => some (none, r)
  let (exponent, rest) ← readScale? rest
  let n := Decimal.ofDigits whole
  if fraction.isNone && exponent.isNone && !negative && n < bitValues 64 then pure (int n, rest)
  else if fraction.isNone && exponent.isNone && negative && 0 < n && n ≤ bitValues 63 then
    pure (int (-n), rest)
  else
    let x ← decimal? negative whole (fraction.getD []) (exponent.getD 0)
    pure (x, rest)

mutual

/-- A tree, which nests less than `depth` deep; `fuel` exceeds the number of characters. -/
def readValue? : Nat → Nat → List Char → Option (Json × List Char)
  | 0, _, _ => none
  | fuel + 1, depth, cs =>
    match cs.dropWhile isSpace with
    | 'n' :: 'u' :: 'l' :: 'l' :: r => some (null, r)
    | 't' :: 'r' :: 'u' :: 'e' :: r => some (bool true, r)
    | 'f' :: 'a' :: 'l' :: 's' :: 'e' :: r => some (bool false, r)
    | '"' :: r => (readString? [] r).map fun (s, r) => (str s, r)
    | '-' :: r => readNumber? true r
    | '[' :: r =>
      if depth ≤ 1 then none else
      match r.dropWhile isSpace with
      | ']' :: r => some (arr [], r)
      | r => (readItems? fuel (depth - 1) [] r).map fun (xs, r) => (arr xs, r)
    | '\x7b' :: r =>
      if depth ≤ 1 then none else
      match r.dropWhile isSpace with
      | '\x7d' :: r => some (obj [], r)
      | r => (readMembers? fuel (depth - 1) [] r).map fun (kvs, r) => (obj kvs, r)
    | r => readNumber? false r

/-- The items of an array up to its closing bracket, `acc` holding, reversed, those read. -/
def readItems? : Nat → Nat → List Json → List Char → Option (List Json × List Char)
  | 0, _, _, _ => none
  | fuel + 1, depth, acc, cs =>
    match readValue? fuel depth cs with
    | none => none
    | some (x, r) =>
      match r.dropWhile isSpace with
      | ',' :: r => readItems? fuel depth (x :: acc) r
      | ']' :: r => some ((x :: acc).reverse, r)
      | _ => none

/-- The members of an object up to its closing brace, `acc` holding those read. -/
def readMembers? : Nat → Nat → List (String × Json) → List Char →
    Option (List (String × Json) × List Char)
  | 0, _, _, _ => none
  | fuel + 1, depth, acc, cs =>
    match cs.dropWhile isSpace with
    | '"' :: r =>
      match readString? [] r with
      | none => none
      | some (name, r) =>
        match r.dropWhile isSpace with
        | ':' :: r =>
          match readValue? fuel depth r with
          | none => none
          | some (x, r) =>
            match r.dropWhile isSpace with
            | ',' :: r => readMembers? fuel depth (put name x acc) r
            | '\x7d' :: r => some (put name x acc, r)
            | _ => none
        | _ => none
    | _ => none

end

/-- The tree written in a text, which holds nothing else but white space. -/
def parse? (s : String) : Option Json :=
  let cs := s.toList
  match readValue? (cs.length + 1) depthLimit cs with
  | some (j, rest) => if rest.all isSpace then some j else none
  | none => none

end MetricLayer.Json
