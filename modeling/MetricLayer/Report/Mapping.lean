import MetricLayer.Decimal.Fixed
import MetricLayer.Report.Basic
import MetricLayer.Report.TimeRange
import MetricLayer.Text.Order
import MetricLayer.Vocabulary.Dictionary

/-!
# From a request to a report

Every mention of a request either becomes part of the report or raises a conflict. The parts are
collected in a `Draft`, in the order in which they are mentioned, and put into their final order at
the end. Terms of metrics and dimensions are looked up among the entries of their own kind; the
terms of filters and sorts may mean either kind.
-/

namespace MetricLayer.Mapping

/-- What a request is resolved against. -/
structure Context where
  dictionary : Dictionary
  schema : Schema
  settings : MappingSettings
  today : Date

/-- The parts of a report as they are collected. -/
structure Draft where
  metrics : List ReportMetric := []
  dimensions : List ReportDimension := []
  conflicts : List Conflict := []
  warnings : List MappingWarning := []
  deriving DecidableEq, Repr

namespace Draft

/-- The draft with a conflict, which is raised once only. -/
def raise (d : Draft) (c : Conflict) : Draft := { d with conflicts := c.insert d.conflicts }

/-- The draft with a warning. -/
def warn (d : Draft) (w : MappingWarning) : Draft := { d with warnings := d.warnings ++ [w] }

/-- The metric of the name. -/
def metric? (d : Draft) (name : String) : Option ReportMetric := d.metrics.find? (·.name = name)

/-- The draft has a metric that is shown. -/
def hasVisibleMetric (d : Draft) : Bool := d.metrics.any (!·.hidden)

end Draft

/-- What a request becomes: a report, which counts only if no conflict is open. -/
structure Outcome where
  report : Report
  conflicts : List Conflict
  warnings : List MappingWarning
  deriving DecidableEq, Repr

namespace Outcome

/-- No conflict is open. -/
def isResolved (o : Outcome) : Bool := o.conflicts.isEmpty

end Outcome

namespace Context

variable (ctx : Context)

/-! ## Terms -/

/-- The entry of exactly the name, compared as a term. -/
def exactName? (kind : EntityKind) (name : String) : Option String :=
  match kind with
  | .metric => (ctx.dictionary.metric? name).map (·.definition.name)
  | .dimension => (ctx.dictionary.dimension? name).map (·.definition.name)
  | _ => none

/-- The entries of the kind that the phrase may mean. -/
def lookup (kind : EntityKind) (phrase : String) : List Candidate :=
  ctx.dictionary.lookup ctx.settings kind phrase

/-- The conflict about a phrase that means no entry of the kind. -/
def unknown (kind entity : EntityKind) (term : String) : Conflict :=
  .make .unknown entity term ("'" ++ term ++ "' is not a known " ++ kind.name)
    (ctx.dictionary.closest kind term ctx.settings.maxSuggestions) none

/-- The scores are so close that neither match is better. -/
def tied (a b : Float) : Bool := (a - b).abs < 1e-9

/-- The best candidate, if it is better than the next one and certain enough. -/
def choose (best : Candidate) (others : List Candidate) (entity : EntityKind) (term : String)
    (confidence : Float) : Except Conflict String :=
  let isTied := others.head?.any fun next => tied best.score next.score
  let score := best.score * confidence
  if isTied || score < ctx.settings.confidenceThreshold then
    let message :=
      if isTied then "'" ++ term ++ "' matches several " ++ best.kind.name ++ "s equally well"
      else "'" ++ term ++ "' is not a confident match for " ++ best.name ++ " (confidence " ++
        Decimal.fixed 2 score ++ ")"
    .error (.make .ambiguous entity term message
      (((best :: others).take ctx.settings.maxSuggestions).map (·.name)) none)
  else .ok best.name

/-- The conflict about an answer, raised on the phrase that the question was about. -/
def answeredWith (c : Conflict) (term answer : String) : Conflict :=
  { c.forTerm term with
    message := "Answer '" ++ answer ++ "' for '" ++ term ++ "': " ++ c.message }

/-- The entry of the kind that a phrase means. -/
def resolvePhrase (kind entity : EntityKind) (term : String) (confidence : Float) :
    Except Conflict String :=
  match ctx.lookup kind term with
  | [] => .error (ctx.unknown kind entity term)
  | best :: others => ctx.choose best others entity term confidence

/-- The entry of the kind that a mention means. An entry that was chosen for it counts first by its
exact name and then as a phrase. -/
def resolve (kind entity : EntityKind) (term : String) (confidence : Float)
    (pinned : Option String) : Except Conflict String :=
  match pinned with
  | none => ctx.resolvePhrase kind entity term confidence
  | some answer =>
    match ctx.exactName? kind answer with
    | some name => .ok name
    | none => match ctx.resolvePhrase kind entity answer 1 with
      | .ok name => .ok name
      | .error c => .error (answeredWith c term answer)

/-- The kind besides the preferred one. -/
def otherKind : EntityKind → EntityKind
  | .metric => .dimension
  | _ => .metric

/-- The score of the best candidate. -/
def topScore (cs : List Candidate) : Float := (cs.head?.map (·.score)).getD 0

/-- The metric or dimension that a phrase means. The preferred kind wins unless the other one has a
better match. -/
def resolveFieldPhrase (entity prefer : EntityKind) (term : String) (confidence : Float) :
    Except Conflict (EntityKind × String) :=
  let preferred := ctx.lookup prefer term
  let alternative := ctx.lookup (otherKind prefer) term
  let (kind, candidates) :=
    if !preferred.isEmpty && topScore preferred ≥ topScore alternative then (prefer, preferred)
    else (otherKind prefer, alternative)
  if preferred.isEmpty && alternative.isEmpty then .error (ctx.unknown prefer entity term)
  else match candidates with
    | [] => .error (ctx.unknown prefer entity term)
    | best :: others => (ctx.choose best others entity term confidence).map (kind, ·)

/-- The metric or dimension that a mention means. -/
def resolveField (entity prefer : EntityKind) (term : String) (confidence : Float)
    (pinned : Option String) : Except Conflict (EntityKind × String) :=
  match pinned with
  | none => ctx.resolveFieldPhrase entity prefer term confidence
  | some answer =>
    match [prefer, otherKind prefer].findSome? fun k => (ctx.exactName? k answer).map (k, ·) with
    | some r => .ok r
    | none => match ctx.resolveFieldPhrase entity prefer answer 1 with
      | .ok r => .ok r
      | .error c => .error (answeredWith c term answer)

/-! ## Metrics and dimensions -/

/-- A metric that is mentioned again: a hidden one is shown, and an aggregation that is named now
counts. -/
def mentionAgain (term : String) (aggregation : Option Aggregation) (m : ReportMetric) :
    ReportMetric :=
  { m with
    term := if m.hidden then term else m.term
    hidden := false
    aggregation := aggregation.getD m.aggregation }

/-- Changes the metric of the name. -/
def updateMetric (name : String) (f : ReportMetric → ReportMetric) (d : Draft) : Draft :=
  { d with metrics := d.metrics.map fun m => if m.name = name then f m else m }

/-- Adds a metric and those that it is calculated from. Every metric is added once, so `fuel` more
than the number of metrics in the dictionary is enough. -/
def addMetric : Nat → String → String → Option Aggregation → Bool → Draft → Draft
  | 0, _, _, _, _, d => d
  | fuel + 1, name, term, aggregation, hidden, d =>
    match ctx.dictionary.metric? name with
    | none => d.raise (ctx.unknown .metric .metric name)
    | some entry =>
      let m := entry.definition
      if (d.metric? m.name).isSome then
        if hidden then d else updateMetric m.name (mentionAgain term aggregation) d
      else
        match m.field, m.field.bind ctx.schema.canonical? with
        | some f, none =>
          d.raise (.make .unknown .metric term
            ("Metric '" ++ m.name ++ "' uses " ++ f.text ++ ", which is not in the schema") [] none)
        | _, field =>
          let added : ReportMetric :=
            { term, name := m.name, field, aggregation := aggregation.getD m.aggregation
              type := m.type, formula := entry.formula, hidden }
          let references := (entry.formula.map Formula.references).getD []
          references.foldl (fun d r =>
            if (ctx.dictionary.metric? r).isSome then addMetric fuel r r none true d
            else d.raise (.make .unknown .metric r
              ("Formula for '" ++ m.name ++ "' references unknown metric '" ++ r ++ "'") [] none))
            { d with metrics := d.metrics ++ [added] }

/-- Adds a metric and those that it is calculated from. -/
def includeMetric (name term : String) (aggregation : Option Aggregation) (hidden : Bool)
    (d : Draft) : Draft :=
  ctx.addMetric (ctx.dictionary.metrics.length + 1) name term aggregation hidden d

/-- Adds a dimension, once. -/
def includeDimension (name term : String) (d : Draft) : Draft :=
  match ctx.dictionary.dimension? name with
  | none => d.raise (ctx.unknown .dimension .dimension name)
  | some entry =>
    let x := entry.definition
    if d.dimensions.any (·.name = x.name) then d
    else match ctx.schema.canonical? x.field with
      | some field =>
        { d with
          dimensions := d.dimensions ++ [⟨term, x.name, field, x.grain, x.isDate⟩] }
      | none =>
        d.raise (.make .unknown .dimension term
          ("Dimension '" ++ x.name ++ "' uses " ++ x.field.text ++ ", which is not in the schema")
          [] none)

/-- Adds a mentioned metric. -/
def addMetricMention (d : Draft) (m : MetricMention) : Draft :=
  match ctx.resolve .metric .metric m.name m.confidence m.pinned with
  | .ok name => ctx.includeMetric name m.name m.aggregation false d
  | .error c => d.raise c

/-- Adds a mentioned dimension. -/
def addDimensionMention (d : Draft) (x : DimensionMention) : Draft :=
  match ctx.resolve .dimension .dimension x.name x.confidence x.pinned with
  | .ok name => ctx.includeDimension name x.name d
  | .error c => d.raise c

/-! ## Filters -/

/-- The target of a filter and the type of its values. -/
def filterTarget (f : FilterMention) (kind : EntityKind) (name : String) (d : Draft) :
    Draft × Option (FilterTarget × DataType) :=
  match kind with
  | .metric =>
    let d := ctx.includeMetric name f.field none true d
    (d, (d.metric? name).map fun m => (.metric m, m.type))
  | _ =>
    match ctx.dictionary.dimension? name with
    | none => (d, none)
    | some entry =>
      match ctx.schema.canonical? entry.definition.field with
      | some field =>
        (d, some (.column field, ((ctx.schema.column? field).map (·.type)).getD .unknown))
      | none =>
        (d.raise (.make .unknown .filter f.field
          ("Dimension '" ++ name ++ "' uses " ++ entry.definition.field.text ++
            ", which is not in the schema") [] none), none)

/-- How many values an operator takes, in words. -/
def arityText (op : Operator) : String :=
  match op.maxValues with
  | some max =>
    if max = op.minValues then toString op.minValues
    else toString op.minValues ++ "-" ++ toString max
  | none => "at least " ++ toString op.minValues

/-- The conflict about a wrong number of values. -/
def arityConflict (f : FilterMention) (op : Operator) : Conflict :=
  .make .invalidValue .filter f.field
    ("'" ++ op.name ++ "' on '" ++ f.field ++ "' expects " ++ arityText op ++ " value(s), got " ++
      toString f.value.toList.length) [] (some f.value.text)

/-- The conflict about a value that does not suit the type. -/
def valueConflict (f : FilterMention) (value : String) (e : LiteralError) : Conflict :=
  .make .invalidValue .filter f.field ("Invalid value for '" ++ f.field ++ "': " ++ e.message) []
    (some value)

/-- The conflicts about values that do not suit the type. -/
def valueConflicts (f : FilterMention) (type : DataType) : List Conflict :=
  f.value.toList.filterMap fun value =>
    match Literal.coerce type value with
    | .ok _ => none
    | .error e => some (valueConflict f value e)

/-- The values as values of the type, those that do not suit it left out. -/
def coercedValues (f : FilterMention) (type : DataType) : List Literal :=
  f.value.toList.filterMap fun value => (Literal.coerce type value).toOption

/-- The type that the values of a filter are read as: a piece of text is looked for as it is. -/
def valueType (op : Operator) (type : DataType) : DataType := if op.isPattern then .string else type

/-- Maps a mentioned filter, if it has a target and values that suit it. -/
def mapFilter (f : FilterMention) (d : Draft) : Draft × Option ReportFilter :=
  match ctx.resolveField .filter .dimension f.field f.confidence f.pinned with
  | .error c => (d.raise c, none)
  | .ok (kind, name) =>
    let d := if f.operator?.isNone then d.warn (.operator f.operator f.field) else d
    let op := f.operator?.getD .equals
    match ctx.filterTarget f kind name d with
    | (d, none) => (d, none)
    | (d, some (target, type)) =>
      if !op.takes f.value.toList.length then (d.raise (arityConflict f op), none)
      else match valueConflicts f (valueType op type) with
        | [] =>
          (d, some ⟨f.field, target, type, op, coercedValues f (valueType op type), f.negated⟩)
        | cs => (cs.foldl Draft.raise d, none)

/-- Maps the mentioned filters; each mapped one keeps its mention. -/
def mapFilters : List FilterMention → Draft → Draft × List (FilterMention × ReportFilter)
  | [], d => (d, [])
  | f :: fs, d =>
    let (d, mapped) := ctx.mapFilter f d
    let (d, rest) := mapFilters fs d
    (d, (mapped.map (f, ·)).toList ++ rest)

end Context

/-! ## Filters that exclude each other -/

/-- The operator of a filter after its negation, where that is an operator. -/
def effectiveOperator (f : ReportFilter) : Operator :=
  if f.negated then
    match f.operator with
    | .equals => .notEquals
    | .notEquals => .equals
    | .in => .notIn
    | .notIn => .in
    | .isNull => .isNotNull
    | .isNotNull => .isNull
    | op => op
  else f.operator

/-- The lists hold the same values in the same order. -/
def sameValues : List Literal → List Literal → Bool
  | [], [] => true
  | a :: as, b :: bs => a.same b && sameValues as bs
  | _, _ => false

/-- The filters, which have one target, cannot both hold. -/
def incompatible (a b : ReportFilter) : Bool :=
  match effectiveOperator a, effectiveOperator b with
  | .equals, .equals => !sameValues a.values b.values
  | .equals, .notEquals => sameValues a.values b.values
  | .notEquals, .equals => sameValues a.values b.values
  | .isNull, .isNotNull => true
  | .isNotNull, .isNull => true
  | _, _ => false

/-- Two of the filters cannot both hold. -/
def anyIncompatible : List ReportFilter → Bool
  | [] => false
  | f :: fs => fs.any (incompatible f) || anyIncompatible fs

/-- The option that keeps all values of filters that exclude each other. -/
def mergeOption : String := "all"

/-- The conflict about the filters of one target, if they exclude each other. -/
def conflictingFilters? (group : List (FilterMention × ReportFilter)) : Option Conflict :=
  match group with
  | [] => none
  | (_, first) :: _ =>
    if anyIncompatible (group.map (·.2)) then
      let options := (group.map (·.1.describe)).eraseDups
      let mergeable := group.all fun (_, f) => f.operator = .equals && !f.negated
      some (.make .conflicting .filter first.term
        ("Filters on '" ++ first.term ++ "' cannot all hold: " ++
          String.intercalate " and " options)
        (options ++ if mergeable then [mergeOption] else []) none)
    else none

/-- The targets of the filters, each once, in order. -/
def targetKeys (fs : List (FilterMention × ReportFilter)) : List String :=
  (fs.map (·.2.targetKey)).eraseDups.mergeSort fun a b => decide (a ≤ b)

/-- The conflicts about filters that exclude each other, in the order of their targets. -/
def filterConflicts (fs : List (FilterMention × ReportFilter)) : List Conflict :=
  (targetKeys fs).filterMap fun key => conflictingFilters? (fs.filter (·.2.targetKey = key))

/-! ## The whole request -/

namespace Context

variable (ctx : Context)

/-- Maps a mentioned sort. What it names becomes part of the report. -/
def mapSort (s : SortMention) (d : Draft) : Draft × Option ReportSort :=
  match ctx.resolveField .sort .metric s.field 1 none with
  | .error c => (d.raise c, none)
  | .ok (kind, name) =>
    match kind with
    | .metric =>
      (ctx.includeMetric name s.field none false d, some ⟨s.field, .metric name, s.direction⟩)
    | _ => (ctx.includeDimension name s.field d, some ⟨s.field, .dimension name, s.direction⟩)

/-- The request asks for something that only makes sense with a metric. -/
def needsMetric (r : Request) : Bool :=
  !r.dimensions.isEmpty || r.sortBy.isSome || r.limit.isSome || !r.comparisons.isEmpty

/-- The conflict about a request without a metric. -/
def missingMetric : Conflict :=
  .make .missingRequired .metric "" "No metric was specified in the query"
    ((ctx.dictionary.metrics.take ctx.settings.maxSuggestions).map (·.definition.name)) none

/-- The days of the report and what was settled by a default. -/
def timeRange (r : Request) : Option DayRange × List MappingWarning :=
  match r.timeRange with
  | some t =>
    let (range, warning) := t.resolve ctx.today
    (some range, warning.toList)
  | none =>
    if r.comparisons.isEmpty then (none, [])
    else (RelativePeriod.standard.range? ctx.today, [.noTimeRange])

/-- The comparisons in their order, each once. -/
def orderedComparisons (cs : List Comparison) : List Comparison :=
  [.yearOverYear, .monthOverMonth, .previousPeriod].filter cs.contains

end Context

/-- The parts of a filter that its place is decided by: target, operator, negation, values. -/
def filterKey (f : ReportFilter) : String × Nat × Bool × List String :=
  (f.targetKey, f.operator.rank, f.negated, f.values.map Literal.display)

/-- Filters by target, then operator, negation and values. -/
def filterBefore (a b : ReportFilter) : Bool :=
  let (ta, oa, na, va) := filterKey a
  let (tb, ob, nb, vb) := filterKey b
  let byValues := (!na && nb) || (na == nb && Text.listLe va vb)
  ta < tb || (ta == tb && (oa < ob || (oa == ob && byValues)))

/-- The report of a request with the conflicts that are open. -/
def Context.map (ctx : Context) (r : Request) : Outcome :=
  let d : Draft := r.conflicts.foldl
    (fun d c => d.raise ({ c with reported := true } : Conflict).ensureId) {}
  let d := r.metrics.foldl ctx.addMetricMention d
  let firstShown := (d.metrics.find? (!·.hidden)).map (·.name)
  let d := r.dimensions.foldl ctx.addDimensionMention d
  let (d, filters) := ctx.mapFilters r.filters d
  let d := (filterConflicts filters).foldl Draft.raise d
  let (d, sort) := match r.sortBy with
    | some s => ctx.mapSort s d
    | none => (d, firstShown.map fun name => ⟨name, .metric name, .desc⟩)
  let d := if r.metrics.isEmpty && !d.hasVisibleMetric && Context.needsMetric r then
      d.raise ctx.missingMetric
    else d
  let (timeRange, warnings) := ctx.timeRange r
  { report :=
      { metrics := d.metrics.mergeSort fun a b => decide (a.name ≤ b.name)
        dimensions := d.dimensions.mergeSort fun a b => decide (a.name ≤ b.name)
        filters := (filters.map (·.2)).mergeSort filterBefore
        sort
        limit := r.limit
        timeRange
        comparisons := Context.orderedComparisons r.comparisons }
    conflicts := d.conflicts
    warnings := d.warnings ++ warnings }

end MetricLayer.Mapping
