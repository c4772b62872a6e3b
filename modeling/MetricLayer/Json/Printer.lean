import MetricLayer.Decimal.Shortest
import MetricLayer.Json.Basic

/-!
# Writing data trees

Members are written in the order in which the tree holds them. The compact form has no white space;
the indented form puts every item and member on a line of its own.
-/

namespace MetricLayer.Json

/-- The lowercase hexadecimal digits. -/
def hexChar (n : Nat) : Char := if n < 10 then Char.ofNat (48 + n) else Char.ofNat (87 + n)

/-- A character inside a string. -/
def escapeChar (c : Char) : List Char :=
  if c = '"' then ['\\', '"']
  else if c = '\\' then ['\\', '\\']
  else if c = '\x08' then ['\\', 'b']
  else if c = '\x0c' then ['\\', 'f']
  else if c = '\n' then ['\\', 'n']
  else if c = '\r' then ['\\', 'r']
  else if c = '\t' then ['\\', 't']
  else if c < ' ' then ['\\', 'u', '0', '0', hexChar (c.toNat / 16), hexChar (c.toNat % 16)]
  else [c]

/-- A text between quotes. -/
def quote (s : String) : String := String.ofList ('"' :: s.toList.flatMap escapeChar ++ ['"'])

/-- A number; what is not finite has no written form and becomes `null`. -/
def writeFloat (x : Float) : String :=
  if x.isNaN || x.isInf then "null" else Decimal.wire.write x

mutual

/-- The compact form. -/
def render : Json → String
  | null => "null"
  | bool true => "true"
  | bool false => "false"
  | int n => toString n
  | float x => writeFloat x
  | str s => quote s
  | arr items => "[" ++ renderItems items ++ "]"
  | obj members => "\x7b" ++ renderMembers members ++ "\x7d"

def renderItems : List Json → String
  | [] => ""
  | [x] => x.render
  | x :: y :: rest => x.render ++ "," ++ renderItems (y :: rest)

def renderMembers : List (String × Json) → String
  | [] => ""
  | [(k, v)] => quote k ++ ":" ++ v.render
  | (k, v) :: kv :: rest => quote k ++ ":" ++ v.render ++ "," ++ renderMembers (kv :: rest)

end

/-- A line break and the indentation of a depth. -/
def newline (depth : Nat) : String := "\n" ++ String.ofList (List.replicate (2 * depth) ' ')

mutual

/-- The indented form of a tree that stands at a depth. -/
def renderIndented (depth : Nat) : Json → String
  | arr [] => "[]"
  | obj [] => "\x7b\x7d"
  | arr (x :: xs) =>
    "[" ++ newline (depth + 1) ++ x.renderIndented (depth + 1) ++ indentedItems (depth + 1) xs ++
      newline depth ++ "]"
  | obj ((k, v) :: rest) =>
    "\x7b" ++ newline (depth + 1) ++ quote k ++ ": " ++ v.renderIndented (depth + 1) ++
      indentedMembers (depth + 1) rest ++ newline depth ++ "\x7d"
  | leaf => leaf.render

def indentedItems (depth : Nat) : List Json → String
  | [] => ""
  | x :: xs => "," ++ newline depth ++ x.renderIndented depth ++ indentedItems depth xs

def indentedMembers (depth : Nat) : List (String × Json) → String
  | [] => ""
  | (k, v) :: rest =>
    "," ++ newline depth ++ quote k ++ ": " ++ v.renderIndented depth ++ indentedMembers depth rest

end

end MetricLayer.Json
