import MetricLayer.Text.Blank
import MetricLayer.Text.Folding
import MetricLayer.Text.Letter

/-!
# Text patterns

A `Pattern` describes a piece of text and names some of its parts by numbered groups. Among the ways
in which it can match at a place, the first one counts: the left alternative before the right one,
and a repetition with as many turns as possible, or as few if it is not greedy. `Pattern.find`
looks for the first place from the left at which there is a match.

A `Cursor` is a place in a text. It knows the character in front, so that a pattern can ask for the
edge of a word, and counts characters from the start of the text.
-/

namespace MetricLayer

/-- A pattern over characters. -/
inductive Pattern where
  /-- The empty text. -/
  | empty
  /-- One character of a class. -/
  | char (p : Char → Bool)
  /-- One pattern and then the other. -/
  | seq (a b : Pattern)
  /-- One pattern or else the other. -/
  | alt (a b : Pattern)
  /-- Any number of turns, as many as possible if `greedy` and else as few as possible. -/
  | many (greedy : Bool) (a : Pattern)
  /-- The pattern, whose piece of text is remembered under the number. -/
  | group (n : Nat) (a : Pattern)
  /-- The start of the text. -/
  | start
  /-- The end of the text. -/
  | stop
  /-- The edge of a word: a word character on one side only. -/
  | edge

/-- A place in a text. -/
structure Cursor where
  offset : Nat
  before : Option Char
  rest : List Char
  deriving DecidableEq, Repr

/-- The characters from `start` up to, and without, `stop`. -/
structure Span where
  start : Nat
  stop : Nat
  deriving DecidableEq, Repr

/-- The pieces of text remembered for the groups, the latest first. -/
abbrev Groups := List (Nat × Span)

namespace Cursor

/-- The start of a text. -/
def ofText (cs : List Char) : Cursor := ⟨0, none, cs⟩

/-- Exactly one of the characters around the place is a word character. -/
def atEdge (c : Cursor) : Bool :=
  (c.before.any Text.isWordChar) != (c.rest.head?.any Text.isWordChar)

/-- The place `n` characters further on. -/
def skip (c : Cursor) : Nat → Cursor
  | 0 => c
  | n + 1 => match c.rest with
    | [] => c
    | x :: xs => skip ⟨c.offset + 1, some x, xs⟩ n

end Cursor

namespace Span

/-- The number of characters. -/
def length (s : Span) : Nat := s.stop - s.start

/-- The characters of the text in the span. -/
def of (s : Span) (cs : List Char) : List Char := (cs.drop s.start).take s.length

/-- The text in the span. -/
def text (s : Span) (cs : List Char) : String := String.ofList (s.of cs)

end Span

namespace Pattern

variable {α : Type}

/-- Turns of `step`, each of which has to move on; `fuel` bounds their number. -/
def turns (greedy : Bool)
    (step : Cursor → Groups → (Cursor → Groups → Option α) → Option α) :
    Nat → Cursor → Groups → (Cursor → Groups → Option α) → Option α
  | 0, c, g, k => k c g
  | fuel + 1, c, g, k =>
    let more := fun (_ : Unit) => step c g fun c' g' =>
      if c.offset < c'.offset then turns greedy step fuel c' g' k else none
    if greedy then (more ()).or (k c g) else (k c g).or (more ())

/-- Matches the pattern at a place and then does `k`; the first way for which `k` succeeds
counts. -/
def run : Pattern → Cursor → Groups → (Cursor → Groups → Option α) → Option α
  | empty, c, g, k => k c g
  | char p, c, g, k => match c.rest with
    | [] => none
    | x :: xs => if p x then k ⟨c.offset + 1, some x, xs⟩ g else none
  | seq a b, c, g, k => a.run c g fun c' g' => b.run c' g' k
  | alt a b, c, g, k => (a.run c g k).or (b.run c g k)
  | many greedy a, c, g, k => turns greedy a.run c.rest.length c g k
  | group n a, c, g, k => a.run c g fun c' g' => k c' ((n, ⟨c.offset, c'.offset⟩) :: g')
  | start, c, g, k => if c.before.isNone then k c g else none
  | stop, c, g, k => if c.rest.isEmpty then k c g else none
  | edge, c, g, k => if c.atEdge then k c g else none

/-- A match: the piece of text, its groups and the place behind it. -/
structure Match where
  span : Span
  groups : Groups
  after : Cursor
  deriving DecidableEq, Repr

namespace Match

/-- The piece of text of a group, if the group took part. -/
def group? (m : Match) (n : Nat) : Option Span := m.groups.lookup n

/-- The text of a group, empty if the group took no part. -/
def groupText (m : Match) (n : Nat) (cs : List Char) : String :=
  ((m.group? n).map (·.text cs)).getD ""

end Match

/-- The match at a place. -/
def matchAt (p : Pattern) (c : Cursor) : Option Match :=
  p.run c [] fun c' g => some ⟨⟨c.offset, c'.offset⟩, g, c'⟩

/-- The first match at or after a place. -/
def findFrom (p : Pattern) (offset : Nat) (before : Option Char) : List Char → Option Match
  | [] => p.matchAt ⟨offset, before, []⟩
  | x :: xs => (p.matchAt ⟨offset, before, x :: xs⟩).or (findFrom p (offset + 1) (some x) xs)

/-- The first match in a text. -/
def find (p : Pattern) (cs : List Char) : Option Match := p.findFrom 0 none cs

/-- The matches from a place on, each looked for behind the one before it; `fuel` bounds their
number. -/
def findAllFrom (p : Pattern) : Nat → Cursor → List Match
  | 0, _ => []
  | fuel + 1, c =>
    match p.findFrom c.offset c.before c.rest with
    | none => []
    | some m =>
      m :: findAllFrom p fuel (if m.span.start < m.span.stop then m.after else m.after.skip 1)

/-- All matches in a text that do not overlap, from left to right. -/
def findAll (p : Pattern) (cs : List Char) : List Match :=
  p.findAllFrom (cs.length + 1) (Cursor.ofText cs)

/-! ## Building patterns -/

/-- All of the patterns, one after the other. -/
def all : List Pattern → Pattern
  | [] => empty
  | [p] => p
  | p :: ps => seq p (all ps)

/-- The first of the patterns that leads to a match. -/
def anyOf : List Pattern → Pattern
  | [] => char fun _ => false
  | [p] => p
  | p :: ps => alt p (anyOf ps)

/-- The pattern or nothing, preferably the pattern. -/
def optional (p : Pattern) : Pattern := alt p empty

/-- One or more turns, as many as possible. -/
def some1 (p : Pattern) : Pattern := seq p (many true p)

/-- The text as it is. -/
def exactly (s : String) : Pattern := all (s.toList.map fun c => char (· == c))

/-- The text in any letter case. -/
def folded (cs : List Char) : Pattern := all (cs.map fun c => char (Text.sameFolded c))

/-- The text in any letter case. -/
def word (s : String) : Pattern := folded s.toList

/-- One of the words in any letter case. -/
def words (ws : List String) : Pattern := anyOf (ws.map word)

/-- A character of the list. -/
def oneOf (s : String) : Pattern := char fun c => s.toList.contains c

/-- A character that is not in the list. -/
def noneOf (s : String) : Pattern := char fun c => !s.toList.contains c

/-- Blanks, as many as possible. -/
def blanks : Pattern := many true (char Text.isBlank)

/-- At least one blank. -/
def gap : Pattern := some1 (char Text.isBlank)

/-- The words in any letter case with gaps between them. -/
def phrase (s : String) : Pattern :=
  all ((s.toList.splitOn ' ').map folded |>.intersperse gap)

/-- One of the phrases. -/
def phrases (ws : List String) : Pattern := anyOf (ws.map phrase)

end Pattern

end MetricLayer
