import MetricLayer.Question.Phrase
import MetricLayer.Question.Reading
import MetricLayer.Vocabulary.Dictionary

/-!
# Metrics of a question

The names and synonyms of the dictionary's metrics are looked for one after the other, long ones
first. If none is found, the phrase that the question begins with counts as one, with little
confidence.

A name without words matches without taking anything out of the text. It would be found for ever, so
`readAll?` gives nothing then.
-/

namespace MetricLayer

namespace MetricTerm

/-- The phrase in the forms that are looked for: as it is written, and as a term. -/
def forms (phrase : String) : List String :=
  [Text.lower phrase, Term.ofPhrase phrase].filter (!·.isEmpty)

/-- The one phrase is looked for before the other: it takes more bytes, or comes first in order. -/
def before (a b : String) : Bool :=
  b.utf8ByteSize < a.utf8ByteSize || (a.utf8ByteSize = b.utf8ByteSize && a ≤ b)

/-- The phrases of the dictionary's metrics in the order in which they are looked for. -/
def phrases (d : Dictionary) : List String :=
  let written := d.metrics.flatMap fun m => m.definition.name :: m.definition.synonyms
  (written.flatMap forms).eraseDups.mergeSort before

/-- The patterns of the dictionary's metrics. -/
def patterns (d : Dictionary) : List Pattern :=
  (phrases d).map fun p => Phrase.metric (Text.words p)

/-- The aggregation that is named at the end of a text. -/
def aggregation? (cs : List Char) : Option Aggregation :=
  (Phrase.aggregation.find cs).bind fun m => Aggregation.ofText? (m.groupText 1 cs)

/-- Reads all places of one pattern; nothing if a match takes nothing out of the text. Each place
takes a word, so a `fuel` above the number of characters is enough. -/
def readAll? (p : Pattern) : Nat → Reading → Option Reading
  | 0, r => some r
  | fuel + 1, r =>
    match p.find r.rest with
    | none => some r
    | some m =>
      if m.span.start < m.span.stop then
        let mention : MetricMention :=
          { name := Text.trim (m.span.text r.rest)
            aggregation := aggregation? (r.rest.take m.span.start) }
        let request := { r.request with metrics := r.request.metrics ++ [mention] }
        readAll? p fuel (({ r with request } : Reading).blank [m.span])
      else none

/-- The words that do not belong to the phrase at the start. -/
def fillers : List String := ["the", "of", "all", "my", "our", "total", "me"]

/-- The phrase that a question begins with. -/
def leadPhrase? (cs : List Char) : Option String :=
  (Phrase.lead.find cs).bind fun m =>
    let ws := (Text.words (m.groupText 1 cs)).filter fun w => !fillers.contains (Text.lower w)
    if ws.isEmpty then none else some (String.intercalate " " ws)

end MetricTerm

namespace Reading

/-- Reads the places of all patterns. -/
def metricTerms? : List Pattern → Reading → Option Reading
  | [], r => some r
  | p :: ps, r => (MetricTerm.readAll? p (r.size + 1) r).bind (metricTerms? ps)

/-- Takes the phrase at the start for a metric if there is no other. -/
def leadMetric (r : Reading) : Reading :=
  if r.request.metrics.isEmpty then
    match MetricTerm.leadPhrase? r.rest with
    | some name => { r with request := { r.request with metrics := [{ name, confidence := 0.5 }] } }
    | none => r
  else r

end Reading

end MetricLayer
