import MetricLayer.Digest.Sha256
import MetricLayer.Json.Printer
import MetricLayer.Request.Kind
import MetricLayer.Schema.Basic
import MetricLayer.Settings.Basic
import MetricLayer.Vocabulary.Cycle
import MetricLayer.Vocabulary.Definition
import MetricLayer.Vocabulary.Formula
import MetricLayer.Vocabulary.Similarity
import MetricLayer.Vocabulary.Term

/-!
# Dictionaries

A `Dictionary` is a vocabulary without faults: the terms of its metrics differ, and so do those of
its dimensions; every metric has a field or a formula; formulas can be read and do not run in
circles.

`Dictionary.lookup` scores every entry against a phrase by the first rung of a ladder that fits. The
two topmost rungs are read off an index of the terms, the others are tried entry by entry.
-/

namespace MetricLayer

/-- The terms by which an entry is known. -/
structure Terms where
  name : String
  synonyms : List String
  deriving DecidableEq, Repr

namespace Terms

/-- The terms of a name and its synonyms. -/
def ofNames (name : String) (synonyms : List String) : Terms :=
  ⟨Term.ofPhrase name, synonyms.map Term.ofPhrase⟩

/-- All of the terms, the name first. -/
def all (t : Terms) : List String := t.name :: t.synonyms

end Terms

/-- A metric with its terms and its formula. -/
structure MetricEntry where
  definition : MetricDefinition
  terms : Terms
  formula : Option Formula
  deriving DecidableEq, Repr

/-- A dimension with its terms. -/
structure DimensionEntry where
  definition : DimensionDefinition
  terms : Terms
  deriving DecidableEq, Repr

/-- Why there is no dictionary. -/
inductive DictionaryError where
  | duplicateName (kind : EntityKind) (name : String)
  | missingField (metric : String)
  | invalidFormula (metric : String) (reason : FormulaError)
  | cyclicFormula (metric : String)
  /-- The text of the definition cannot be read. -/
  | unreadable
  /-- The file of the definition cannot be read. -/
  | file (reason : String)
  deriving DecidableEq, Repr

namespace DictionaryError

/-- The word for the kind of error. -/
def kind : DictionaryError → String
  | duplicateName .. => "duplicate_name"
  | missingField _ => "missing_field"
  | invalidFormula .. => "invalid_formula"
  | cyclicFormula _ => "cyclic_formula"
  | unreadable => "parse"
  | file _ => "io"

/-- The text of the error. -/
def message : DictionaryError → String
  | duplicateName kind name => "Duplicate " ++ kind.name ++ " name: " ++ name
  | missingField metric => "Metric '" ++ metric ++ "' has neither a field nor a formula"
  | invalidFormula metric reason =>
    "Invalid formula for metric '" ++ metric ++ "': " ++ reason.message
  | cyclicFormula metric => "Formula for metric '" ++ metric ++ "' is cyclic"
  | unreadable => "Failed to parse dictionary definition: TOML parse error"
  | file reason => "Failed to read dictionary definition: " ++ reason

end DictionaryError

namespace DictionaryDefinition

/-- The first entry whose term occurs before it; `seen` holds the terms before. -/
def firstRepeated? (seen : List String) : List (String × Terms) → Option String
  | [] => none
  | (name, terms) :: rest =>
    if seen.contains terms.name then some name else firstRepeated? (terms.name :: seen) rest

/-- The metrics with their terms. -/
def metricTerms (d : DictionaryDefinition) : List (MetricDefinition × Terms) :=
  d.metrics.map fun m => (m, .ofNames m.name m.synonyms)

/-- The name of the metric that a reference in a formula means; a reference to no metric stays as it
is written. -/
def resolve (metrics : List (MetricDefinition × Terms)) (reference : String) : String :=
  let term := Term.ofPhrase reference
  match metrics.find? (·.2.name = term) with
  | some (m, _) => m.name
  | none => reference

/-- A metric as an entry of the dictionary. -/
def metricEntry (metrics : List (MetricDefinition × Terms)) (m : MetricDefinition) (terms : Terms) :
    Except DictionaryError MetricEntry :=
  match m.formula, m.field with
  | some source, _ =>
    match Formula.parse source with
    | .ok f => .ok ⟨m, terms, some (f.rename (resolve metrics))⟩
    | .error e => .error (.invalidFormula m.name e)
  | none, some _ => .ok ⟨m, terms, none⟩
  | none, none => .error (.missingField m.name)

/-- The graph in which a metric has edges to the metrics of its formula. The formulas are visited in
the order of the names `visits`. -/
def formulaGraph (visits : List String) (entries : List MetricEntry) : Cycle.Graph :=
  let names := entries.map (·.definition.name)
  { nodes := names
    sources := visits
    targets := fun name => match entries.find? (·.definition.name = name) with
      | some e => ((e.formula.map Formula.references).getD []).filter names.contains
      | none => [] }

/-- The entries of the dictionary that the definition describes. Repeated metrics are found first,
then repeated dimensions, then metrics without a value, then circles. The formulas are kept in a hash
map, which gives them in the order `visits`. -/
def entriesVisiting (visits : List String) (d : DictionaryDefinition) :
    Except DictionaryError (List MetricEntry × List DimensionEntry) := do
  let metrics := d.metricTerms
  let dimensions := d.dimensions.map fun x => (⟨x, .ofNames x.name x.synonyms⟩ : DimensionEntry)
  match firstRepeated? [] (metrics.map fun (m, t) => (m.name, t)) with
  | some name => throw (.duplicateName .metric name)
  | none => pure ()
  match firstRepeated? [] (dimensions.map fun x => (x.definition.name, x.terms)) with
  | some name => throw (.duplicateName .dimension name)
  | none => pure ()
  let entries ← metrics.mapM fun (m, t) => metricEntry metrics m t
  match Cycle.cyclic? (formulaGraph visits entries) with
  | some name => throw (.cyclicFormula name)
  | none => pure (entries, dimensions)

/-- The entries of the dictionary that the definition describes, where the formulas are visited in
the order of the metrics. Only the metric that a circle is named by depends on the order. -/
def entries (d : DictionaryDefinition) :
    Except DictionaryError (List MetricEntry × List DimensionEntry) :=
  d.entriesVisiting (d.metrics.map (·.name))

end DictionaryDefinition

/-- A vocabulary without faults, with the terms of its entries at hand. -/
structure Dictionary where
  definition : DictionaryDefinition
  metrics : List MetricEntry
  dimensions : List DimensionEntry
  built : definition.entries = .ok (metrics, dimensions)

/-- An entry that a phrase may mean, with the score of the match. -/
structure Candidate where
  kind : EntityKind
  name : String
  score : Float
  deriving DecidableEq, Repr

/-- The rungs of the ladder, from the best match to the weakest. -/
inductive Rung where
  /-- The term is the name. -/
  | name
  /-- The term is a synonym. -/
  | synonym
  /-- The term contains the name as whole words. -/
  | containsName
  /-- The term contains a synonym as whole words. -/
  | containsSynonym
  /-- The name contains the term. -/
  | inName
  /-- A synonym contains the term. -/
  | inSynonym
  /-- The name or a synonym is similar to the term. -/
  | similar (similarity : Float)
  deriving DecidableEq, Repr

namespace Rung

/-- The score of a match. -/
def score : Rung → Float
  | name => 1
  | synonym => 0.9
  | containsName => 0.8
  | containsSynonym => 0.7
  | inName => 0.6
  | inSynonym => 0.5
  | similar x => x * 0.4

/-- The greatest similarity of the term to a term of the entry. -/
def bestSimilarity (term : String) (t : Terms) : Float :=
  t.all.foldl (fun best candidate =>
    let x := Similarity.similarity term candidate
    if best < x then x else best) 0

/-- The rung of an entry that is known by the term. -/
def exact (term : String) (t : Terms) : Rung := if t.name = term then name else synonym

/-- The first of the other rungs that fits. -/
def below? (settings : MappingSettings) (term : String) (t : Terms) : Option Rung :=
  let within (s : String) : Bool := Term.occursIn term.toList s.toList
  if Term.hasPhrase term t.name then some containsName
  else if t.synonyms.any (Term.hasPhrase term) then some containsSynonym
  else if within t.name then some inName
  else if t.synonyms.any within then some inSynonym
  else
    let best := bestSimilarity term t
    if settings.fuzzyMatching && best ≥ settings.fuzzyMinSimilarity then some (similar best)
    else none

end Rung

/-- The places of entries by the terms that they are known by. -/
structure TermIndex where
  groups : List (String × List Nat)
  deriving DecidableEq, Repr

namespace TermIndex

/-- The places of the entries that are known by the term. -/
def places (ix : TermIndex) (term : String) : List Nat := (ix.groups.lookup term).getD []

/-- The places with another one, once. -/
def addOnce (i : Nat) (places : List Nat) : List Nat :=
  if places.contains i then places else places ++ [i]

/-- The groups with the place among those of the term. -/
def putIn (term : String) (i : Nat) : List (String × List Nat) → List (String × List Nat)
  | [] => [(term, [i])]
  | (t, places) :: rest =>
    if term = t then (t, addOnce i places) :: rest else (t, places) :: putIn term i rest

/-- The index with the place under the term. -/
def put (ix : TermIndex) (term : String) (i : Nat) : TermIndex := ⟨putIn term i ix.groups⟩

/-- The index of entries in order, each under all of its terms. -/
def ofTerms (ts : List Terms) : TermIndex :=
  ts.zipIdx.foldl (fun ix (t, i) => t.all.foldl (·.put · i) ix) ⟨[]⟩

end TermIndex

/-- A field of the dictionary that the schema does not have as it is used. -/
inductive DictionaryIssue where
  | unknownMetricField (metric : String) (field : Field)
  | unknownDimensionField (dimension : String) (field : Field)
  | notADate (dimension : String) (field : Field)
  | unknownReference (metric reference : String)
  deriving DecidableEq, Repr

/-- The text of an issue. -/
def DictionaryIssue.message : DictionaryIssue → String
  | unknownMetricField m f => "metric '" ++ m ++ "' references unknown field " ++ f.text
  | unknownDimensionField d f => "dimension '" ++ d ++ "' references unknown field " ++ f.text
  | notADate d f => "date dimension '" ++ d ++ "' references non-date field " ++ f.text
  | unknownReference m r => "metric '" ++ m ++ "' formula references unknown metric '" ++ r ++ "'"

namespace Dictionary

/-- The dictionary that a definition describes. -/
def ofDefinition (d : DictionaryDefinition) : Except DictionaryError Dictionary :=
  match h : d.entries with
  | .ok (metrics, dimensions) => .ok ⟨d, metrics, dimensions, h⟩
  | .error e => .error e

/-- The dictionary without entries. -/
def empty : Dictionary := ⟨{}, [], [], rfl⟩

instance : Inhabited Dictionary := ⟨empty⟩

/-- The metric of a name, compared as a term. -/
def metric? (d : Dictionary) (name : String) : Option MetricEntry :=
  let term := Term.ofPhrase name
  d.metrics.find? (·.terms.name = term)

/-- The dimension of a name, compared as a term. -/
def dimension? (d : Dictionary) (name : String) : Option DimensionEntry :=
  let term := Term.ofPhrase name
  d.dimensions.find? (·.terms.name = term)

/-- The formula of a metric. -/
def formula? (d : Dictionary) (name : String) : Option Formula := (d.metric? name).bind (·.formula)

/-- The names and terms of the entries of a kind. -/
def entriesOf (d : Dictionary) : EntityKind → List (String × Terms)
  | .metric => d.metrics.map fun m => (m.definition.name, m.terms)
  | .dimension => d.dimensions.map fun x => (x.definition.name, x.terms)
  | _ => []

/-- The order of matches: the higher score first, then by name. -/
def rankedBefore (a b : Float × String) : Bool := b.1 < a.1 || (a.1 == b.1 && a.2 ≤ b.2)

/-- The entries of the kind by their terms. -/
def index (d : Dictionary) (kind : EntityKind) : TermIndex :=
  .ofTerms ((d.entriesOf kind).map (·.2))

/-- The entries of the kind that are known by the term. -/
def hits (d : Dictionary) (kind : EntityKind) (term : String) : List Candidate :=
  ((d.index kind).places term).filterMap fun i =>
    (d.entriesOf kind)[i]?.map fun (name, t) => ⟨kind, name, (Rung.exact term t).score⟩

/-- The candidates, and an entry that is not among them if a rung below fits it. -/
def scanOne (settings : MappingSettings) (kind : EntityKind) (term : String)
    (found : List Candidate) (entry : String × Terms) : List Candidate :=
  if found.any (·.name = entry.1) then found
  else match Rung.below? settings term entry.2 with
    | some r => if 0 < r.score then found ++ [⟨kind, entry.1, r.score⟩] else found
    | none => found

/-- The entries of the kind that the phrase may mean, the best first. -/
def lookup (d : Dictionary) (settings : MappingSettings) (kind : EntityKind) (phrase : String) :
    List Candidate :=
  let term := Term.ofPhrase phrase
  if term.isEmpty then []
  else
    ((d.entriesOf kind).foldl (scanOne settings kind term) (d.hits kind term)).mergeSort fun a b =>
      rankedBefore (a.score, a.name) (b.score, b.name)

/-- The names of the best matches. -/
def suggestions (d : Dictionary) (settings : MappingSettings) (kind : EntityKind)
    (phrase : String) : List String :=
  ((d.lookup settings kind phrase).take settings.maxSuggestions).map (·.name)

/-- The `n` names that are most similar to the phrase, however little. -/
def closest (d : Dictionary) (kind : EntityKind) (phrase : String) (n : Nat) : List String :=
  let term := Term.ofPhrase phrase
  let scored := (d.entriesOf kind).map fun (name, terms) => (Rung.bestSimilarity term terms, name)
  ((scored.mergeSort rankedBefore).take n).map (·.2)

/-- What the schema lacks for the dictionary. -/
def issues (d : Dictionary) (s : Schema) : List DictionaryIssue :=
  let metricFields := d.metrics.filterMap fun m => m.definition.field.bind fun f =>
    if (s.column? f).isNone then some (.unknownMetricField m.definition.name f) else none
  let dimensionFields := d.dimensions.filterMap fun x =>
    match s.column? x.definition.field with
    | none => some (.unknownDimensionField x.definition.name x.definition.field)
    | some c =>
      if x.definition.isDate && !c.type.isTemporal then
        some (.notADate x.definition.name x.definition.field)
      else none
  let references := d.metrics.flatMap fun m =>
    (((m.formula.map Formula.references).getD []).filter fun r => (d.metric? r).isNone).map
      (.unknownReference m.definition.name)
  metricFields ++ dimensionFields ++ references

/-- The texts of what the schema lacks, in order. -/
def issueTexts (d : Dictionary) (s : Schema) : List String :=
  ((d.issues s).map (·.message)).mergeSort fun a b => decide (a ≤ b)

/-- The digest of the whole definition. -/
def fingerprint (d : Dictionary) : String := Sha256.digest d.definition.toJson.render

end Dictionary

end MetricLayer
