import MetricLayer.Question.Phrase
import MetricLayer.Question.Reading

/-!
# Groupings of a question

"By" and phrases like it introduce the names of dimensions. The names are separated by commas and
"and", and go on until a word that begins another phrase or the end of a sentence.
-/

namespace MetricLayer

namespace Grouping

/-- The words that end the names. -/
def stopWords : List String :=
  ["for", "where", "with", "in", "over", "during", "last", "past", "this", "top", "vs", "versus",
    "compared", "sorted", "ordered", "order", "limit", "from", "since", "when"]

/-- The character stands between words. -/
def isBreak (c : Char) : Bool := Text.isBlank c || c = ','

/-- The character ends a sentence. -/
def isEnd (c : Char) : Bool := c = '.' || c = '?' || c = ';'

/-- The words with the break behind each, `word` being, reversed, the word that is being read. -/
def tokensFrom (word : List Char) : List Char → List (List Char)
  | [] => if word.isEmpty then [] else [word.reverse]
  | c :: cs =>
    if isBreak c then (c :: word).reverse :: tokensFrom [] cs else tokensFrom (c :: word) cs

/-- The characters without those of the class at the end. -/
def trimEndWhile (p : Char → Bool) (cs : List Char) : List Char := (cs.reverse.dropWhile p).reverse

/-- The names read so far, and the words of the one that is being read. -/
structure Names where
  names : List String := []
  current : List String := []

/-- The name that is being read is complete. -/
def Names.close (n : Names) : Names :=
  if n.current.isEmpty then n else ⟨n.names ++ [String.intercalate " " n.current], []⟩

/-- Adds a word of a name. -/
def Names.add (n : Names) (word : String) : Names := { n with current := n.current ++ [word] }

/-- Reads the names from the words; the number counts the characters of the words read so far. -/
def readNames : Names → Nat → List (List Char) → List String × Nat
  | n, consumed, [] => (n.close.names, consumed)
  | n, consumed, token :: tokens =>
    let word := trimEndWhile isBreak (token.dropWhile isBreak)
    let lowered := Text.lower (String.ofList word)
    if !word.isEmpty && stopWords.contains lowered then (n.close.names, consumed)
    else
      let n := if word.isEmpty then n
        else if lowered = "and" then n.close
        else n.add (String.ofList (trimEndWhile isEnd word))
      let n := if token.contains ',' then n.close else n
      let consumed := consumed + token.length
      if word.getLast?.any isEnd then (n.close.names, consumed) else readNames n consumed tokens

/-- The names at the start of a text, and how many characters they take. -/
def names (cs : List Char) : List String × Nat := readNames {} 0 (tokensFrom [] cs)

/-- Reads the groupings one after the other; `fuel` bounds their number. -/
def readAll : Nat → Reading → Reading
  | 0, r => r
  | fuel + 1, r =>
    match Phrase.grouping.find r.rest with
    | none => r
    | some m =>
      let (names, consumed) := names (r.rest.drop m.span.stop)
      let mentions := names.map fun name => ({ name, confidence := 0.9 } : DimensionMention)
      let request := { r.request with dimensions := r.request.dimensions ++ mentions }
      readAll fuel (({ r with request } : Reading).blank [⟨m.span.start, m.span.stop + consumed⟩])

end Grouping

namespace Reading

/-- Reads the groupings. Each one takes a word out of the text, so there are no more of them than
characters. -/
def groupings (r : Reading) : Reading := Grouping.readAll (r.size + 1) r

end Reading

end MetricLayer
