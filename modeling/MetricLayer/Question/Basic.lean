import MetricLayer.Question.Condition
import MetricLayer.Question.Grouping
import MetricLayer.Question.MetricTerm

/-!
# From a question to a request

A question is a text that somebody types. Its phrases are read in a fixed order: comparisons, the
period, the limit, conditions, the sort, groupings and last the metrics. What cannot be placed is
left to the mapping, which asks about it.
-/

namespace MetricLayer

/-- Why a question gives no request. -/
inductive QuestionError where
  | empty
  /-- Whoever reads questions cannot be reached. -/
  | unavailable (reason : String)
  /-- A metric of the dictionary has a name or synonym without words, which is found for ever. -/
  | endless
  deriving DecidableEq, Repr

/-- The text of the error. -/
def QuestionError.message : QuestionError → String
  | empty => "Nothing to extract from an empty question"
  | unavailable reason => "Extractor unavailable: " ++ reason
  | endless => "A metric has a name without words"

namespace Reading

/-- The comparison of a unit. -/
def comparisonOf (unit : String) : Comparison :=
  match Text.lower unit with
  | "year" => .yearOverYear
  | "month" => .monthOverMonth
  | _ => .previousPeriod

/-- The comparison of a short phrase. -/
def shortComparisonOf (phrase : String) : Comparison :=
  if (Text.lower phrase).toList.head? = some 'y' then .yearOverYear else .monthOverMonth

/-- The comparisons of a text with their places. -/
def comparisonsIn (cs : List Char) : List (Comparison × Span) :=
  (Phrase.comparison.findAll cs).map (fun m => (comparisonOf (m.groupText 1 cs), m.span)) ++
    (Phrase.shortComparison.findAll cs).map fun m =>
      (shortComparisonOf (m.groupText 1 cs), m.span)

/-- The comparison at the end of the list, unless it is there. -/
def addComparison (cs : List Comparison) (c : Comparison) : List Comparison :=
  if cs.contains c then cs else cs ++ [c]

/-- Reads the comparisons. -/
def comparisons (r : Reading) : Reading :=
  let found := comparisonsIn r.rest
  let request := { r.request with
    comparisons := (found.map Prod.fst).foldl addComparison r.request.comparisons }
  ({ r with request } : Reading).blank (found.map Prod.snd)

/-- Reads the period. -/
def period (r : Reading) : Reading :=
  match Phrase.period.find r.rest with
  | none => r
  | some m =>
    let text := Text.lower (Text.collapse (m.groupText 1 r.rest))
    let request := { r.request with timeRange := some { period := some text } }
    ({ r with request } : Reading).blank [m.span]

/-- The number of a limit, if it is written in ASCII digits and fits into 32 bits. -/
def limitNumber? (digits : String) : Option Nat :=
  if digits.toList.all Char.isDigit then
    let n := digits.toList.foldl (fun n c => n * 10 + (c.toNat - '0'.toNat)) 0
    if n < bitValues 32 then some n else none
  else none

/-- The direction that the word for a limit stands for. -/
def rankingOf (word : String) : Option Direction :=
  match Text.lower word with
  | "top" => some .desc
  | "bottom" => some .asc
  | _ => none

/-- Reads the limit, and the direction that it stands for. -/
def limit (r : Reading) : Reading × Option Direction :=
  match Phrase.limit.find r.rest with
  | none => (r, none)
  | some m =>
    match limitNumber? (m.groupText 2 r.rest) with
    | none => (r, none)
    | some n =>
      let request := { r.request with limit := some n }
      (({ r with request } : Reading).blank [m.span], rankingOf (m.groupText 1 r.rest))

/-- Reads the sort. -/
def sort (r : Reading) : Reading :=
  match Phrase.sort.find r.rest with
  | none => r
  | some m =>
    let word := Text.lower (m.groupText 2 r.rest)
    let direction := if "asc".toList.isPrefixOf word.toList then .asc else .desc
    let mention : SortMention := ⟨Text.trim (m.groupText 1 r.rest), direction⟩
    let stop := (((m.group? 2).or (m.group? 1)).map Span.stop).getD m.span.stop
    let request := { r.request with sortBy := some mention }
    ({ r with request } : Reading).blank [⟨m.span.start, stop⟩]

/-- Sorts by the first metric if a limit stands for a direction and nothing else is said. -/
def rank (direction : Option Direction) (r : Reading) : Reading :=
  match r.request.sortBy, direction, r.request.metrics with
  | none, some d, m :: _ => { r with request := { r.request with sortBy := some ⟨m.name, d⟩ } }
  | _, _, _ => r

/-- The least confidence of the mentions. -/
def confidence (r : Request) : Float :=
  (r.metrics.map (·.confidence) ++ r.dimensions.map (·.confidence) ++
    r.filters.map (·.confidence)).foldl (fun a b => if b < a then b else a) 1

end Reading

/-- The request of a question. -/
def Dictionary.request (d : Dictionary) (question : String) : Except QuestionError Request :=
  if Text.isBlankText question then .error .empty
  else
    let (r, ranking) := (Reading.ofText question).comparisons.period.limit
    match Reading.metricTerms? (MetricTerm.patterns d) r.filters.sort.groupings with
    | none => .error .endless
    | some r =>
      let request := ((r.leadMetric).rank ranking).request
      .ok { request with overallConfidence := Reading.confidence request }

end MetricLayer
