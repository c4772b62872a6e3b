import MetricLayer.Report.Mapping

/-!
# Applying responses

A response to a conflict changes the request so that the next mapping can do better: it pins an
entry to the mentions of a phrase, adds a mention, replaces a refused value, or decides between
filters that exclude each other. A response that fits nothing is refused.
-/

namespace MetricLayer

/-- Why a response is refused. -/
inductive ResponseError where
  | blank
  | noSuchValue (term value : String)
  | termUnused (entity : EntityKind) (term : String)
  | filtersGone
  deriving DecidableEq, Repr

/-- The text of the error. -/
def ResponseError.message : ResponseError → String
  | blank => "empty response"
  | noSuchValue term value => "no filter on '" ++ term ++ "' has the value '" ++ value ++ "'"
  | termUnused entity term => "no " ++ entity.name ++ " uses the term '" ++ term ++ "'"
  | filtersGone => "the conflicting filters are no longer present"

/-- Two phrases are the same term. -/
def sameTerm (a b : String) : Bool := Term.ofPhrase a == Term.ofPhrase b

/-- The items with a change made to those that satisfy the test. -/
def changeWhere {α : Type} (p : α → Bool) (f : α → α) (xs : List α) : List α :=
  xs.map fun x => if p x then f x else x

namespace FilterValues

/-- The items of a text with commas between them, without blanks around them. -/
def splitCommas (s : String) : List String :=
  ((s.toList.splitOn ',').map fun item => Text.trim (String.ofList item)).filter (!·.isEmpty)

/-- The values after a refused one is replaced: where it is one of the values, that one, and where
it is all of them in one text, all of them. -/
def replace? (v : FilterValues) (refused answer : String) : Option FilterValues :=
  if v.toList.contains refused then
    some (ofList (v.toList.map fun x => if x = refused then answer else x))
  else if v.text = refused then some (ofList (splitCommas answer))
  else Option.none

end FilterValues

namespace Request

/-! ## Pinning an entry -/

/-- The mentioned metrics of a phrase, pinned to an entry. -/
def pinMetrics (term answer : String) (r : Request) : Request :=
  { r with
    metrics := changeWhere (sameTerm ·.name term) ({ · with pinned := some answer }) r.metrics }

/-- The mentioned dimensions of a phrase, pinned to an entry. -/
def pinDimensions (term answer : String) (r : Request) : Request :=
  { r with dimensions :=
      changeWhere (sameTerm ·.name term) ({ · with pinned := some answer }) r.dimensions }

/-- The mentioned filters of a phrase, pinned to an entry. -/
def pinFilters (term answer : String) (r : Request) : Request :=
  { r with filters :=
      changeWhere (sameTerm ·.field term) ({ · with pinned := some answer }) r.filters }

/-- The sort by a phrase, which then names the entry. -/
def nameSort (term answer : String) (r : Request) : Request :=
  { r with sortBy := r.sortBy.map fun s =>
      if sameTerm s.field term then { s with field := answer } else s }

/-- The request with a metric that is pinned to an entry. -/
def addMetric (name answer : String) (r : Request) : Request :=
  { r with metrics := r.metrics ++ [{ name, pinned := some answer }] }

/-- The request with a dimension that is pinned to an entry. -/
def addDimension (name answer : String) (r : Request) : Request :=
  { r with dimensions := r.dimensions ++ [{ name, pinned := some answer }] }

/-- Pins the answer to everything that uses the phrase of the conflict. What a reported conflict is
about is added if it was not mentioned. The phrase of a dimension means the same in filters and the
sort, also when no dimension is mentioned by it and the response is refused. -/
def pin (r : Request) (c : Conflict) (answer : String) : Request × Option ResponseError :=
  let unused := some (ResponseError.termUnused c.entity c.term)
  match c.entity with
  | .metric =>
    if r.metrics.any (sameTerm ·.name c.term) then (r.pinMetrics c.term answer, none)
    else if c.reported then (r.addMetric c.term answer, none)
    else (r, unused)
  | .dimension =>
    let elsewhere (r : Request) := (r.pinFilters c.term answer).nameSort c.term answer
    if r.dimensions.any (sameTerm ·.name c.term) then
      (elsewhere (r.pinDimensions c.term answer), none)
    else if c.reported then (elsewhere (r.addDimension c.term answer), none)
    else (elsewhere r, unused)
  | .filter =>
    if r.filters.any (sameTerm ·.field c.term) then (r.pinFilters c.term answer, none)
    else (r, unused)
  | .sort =>
    if r.sortBy.any (sameTerm ·.field c.term) then (r.nameSort c.term answer, none) else (r, unused)
  | .timeRange => ({ r with timeRange := some { period := some answer } }, none)

/-! ## Values -/

/-- The filter with the refused value replaced, if it has it. -/
def replaceValue? (term refused answer : String) (f : FilterMention) : Option FilterMention :=
  if sameTerm f.field term then (f.value.replace? refused answer).map ({ f with value := · })
  else none

/-- Replaces a refused value in all filters of the phrase that have it. -/
def replaceValues (r : Request) (c : Conflict) (answer : String) :
    Request × Option ResponseError :=
  let refused := c.value.getD ""
  let change := replaceValue? c.term refused answer
  if r.filters.any fun f => (change f).isSome then
    ({ r with filters := r.filters.map fun f => (change f).getD f }, none)
  else (r, some (.noSuchValue c.term refused))

/-! ## Filters that exclude each other -/

/-- The filter is one that the conflict is about. -/
def isInvolved (c : Conflict) (f : FilterMention) : Bool := c.suggestions.contains f.describe

/-- The filters where only the first involved one with a property stays, changed, of those that are
involved. -/
def keepFirst (involved p : FilterMention → Bool) (change : FilterMention → FilterMention) :
    List FilterMention → List FilterMention
  | [] => []
  | f :: fs =>
    if involved f then
      if p f then change f :: fs.filter (!involved ·) else keepFirst involved p change fs
    else f :: keepFirst involved p change fs

/-- The values of the filters, each once. -/
def allValues (fs : List FilterMention) : List String :=
  (fs.flatMap (·.value.toList)).eraseDups

/-- Decides between the filters that the conflict is about: all their values, the one with the
answered condition or value, or the answer as a new value. -/
def decideFilters (r : Request) (c : Conflict) (answer : String) :
    Request × Option ResponseError :=
  let involved := isInvolved c
  let chosen (f : FilterMention) := Text.eqIgnoringAsciiCase f.describe answer
  let hasValue (f : FilterMention) := f.value.toList.any (Text.eqIgnoringAsciiCase · answer)
  let group := r.filters.filter involved
  if group.isEmpty then (r, some .filtersGone)
  else
    let filters :=
      if Text.eqIgnoringAsciiCase answer Mapping.mergeOption then
        keepFirst involved (fun _ => true)
          (fun f => { f with operator := "in", value := .many (allValues group), negated := false })
          r.filters
      else if group.any chosen then r.filters.filter fun f => !involved f || chosen f
      else if group.any hasValue then keepFirst involved hasValue id r.filters
      else
        keepFirst involved (fun _ => true)
          (fun f => { f with operator := "equals", value := .one answer, negated := false })
          r.filters
    ({ r with filters }, none)

/-! ## Any response -/

/-- The request after a response to a conflict, and why the response is refused if it is. -/
def respond (r : Request) (c : Conflict) (response : String) : Request × Option ResponseError :=
  let answer := Text.trim response
  if answer.isEmpty then (r, some .blank)
  else
    match c.kind with
    | .ambiguous | .unknown => r.pin c answer
    | .missingRequired =>
      match c.entity with
      | .dimension => (r.addDimension answer answer, none)
      | _ => (r.addMetric answer answer, none)
    | .invalidValue => r.replaceValues c answer
    | .conflicting => r.decideFilters c answer

end Request

end MetricLayer
