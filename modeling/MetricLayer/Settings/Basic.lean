import MetricLayer.Decimal.Shortest
import MetricLayer.Schema.Graph
import MetricLayer.Sql.Dialect

/-!
# Settings

What an operator can adjust, section by section, with what is wrong about settings that nothing can
work with.
-/

namespace MetricLayer

/-- How terms are matched. -/
structure MappingSettings where
  /-- A match below this confidence is ambiguous. -/
  confidenceThreshold : Float := 0.6
  fuzzyMatching : Bool := true
  /-- The least similarity of a fuzzy match. -/
  fuzzyMinSimilarity : Float := 0.7
  /-- The greatest number of candidates that are offered. -/
  maxSuggestions : Nat := 5
  deriving DecidableEq, Repr

/-- How queries are written. -/
structure TranslationSettings where
  dialect : Dialect := .postgres
  /-- The greatest number of rows, requested or not. -/
  rowCap : Nat := 10000
  /-- The greatest number of joins between two tables. -/
  maxJoinDepth : Nat := 6
  /-- Queries are read again after they are written. -/
  validateSql : Bool := true
  joinTieBreak : TieBreak := .preferJoined
  deriving DecidableEq, Repr

/-- How translations are kept. -/
structure CacheSettings where
  enabled : Bool := true
  /-- The greatest number of entries. -/
  capacity : Nat := 1000
  /-- How long a translation lives whose time range reaches today. -/
  liveTtlSeconds : Nat := 300
  /-- How long any other translation lives. -/
  historicalTtlSeconds : Nat := 86400
  deriving DecidableEq, Repr

/-- Which improvements of a query are tried. -/
structure OptimizerSettings where
  enabled : Bool := true
  materializedViews : Bool := true
  indexHints : Bool := true
  deriving DecidableEq, Repr

/-- Where the definitions are. -/
structure SourceSettings where
  schemaPath : Option String := none
  dictionaryPath : Option String := none
  deriving DecidableEq, Repr

/-- All settings. -/
structure Settings where
  mapping : MappingSettings := {}
  translation : TranslationSettings := {}
  cache : CacheSettings := {}
  optimizer : OptimizerSettings := {}
  sources : SourceSettings := {}
  deriving DecidableEq, Repr

/-- Why there are no settings. -/
inductive SettingsError where
  | fileNotFound (path : String)
  /-- The file of the settings cannot be read. -/
  | file (reason : String)
  /-- The text of the settings cannot be read. -/
  | unreadable
  | thresholdRange (value : Float)
  | similarityRange (value : Float)
  | zeroRowCap
  | zeroJoinDepth
  | zeroCapacity
  | missingVariable (name : String)
  deriving DecidableEq, Repr

namespace SettingsError

/-- The word for the kind of error. -/
def kind : SettingsError → String
  | fileNotFound _ => "file_not_found"
  | file _ => "io"
  | unreadable => "parse"
  | missingVariable _ => "missing_env_var"
  | _ => "invalid_config"

/-- The text of the error. -/
def message : SettingsError → String
  | fileNotFound path => "Config file not found: " ++ path
  | file reason => "Failed to read config file: " ++ reason
  | unreadable => "Failed to parse config file: TOML parse error"
  | thresholdRange x =>
    "Invalid configuration: mapping.confidence_threshold must be within [0, 1], got " ++
      Decimal.display x
  | similarityRange x =>
    "Invalid configuration: mapping.fuzzy_min_similarity must be within [0, 1], got " ++
      Decimal.display x
  | zeroRowCap => "Invalid configuration: translation.row_cap must be positive"
  | zeroJoinDepth => "Invalid configuration: translation.max_join_depth must be positive"
  | zeroCapacity => "Invalid configuration: cache.capacity must be positive"
  | missingVariable name => "Missing environment variable: " ++ name

end SettingsError

namespace Settings

/-- The number lies between 0 and 1. -/
def isFraction (x : Float) : Bool := 0 ≤ x && x ≤ 1

/-- The first setting that nothing can work with. -/
def fault? (s : Settings) : Option SettingsError :=
  if !isFraction s.mapping.confidenceThreshold then
    some (.thresholdRange s.mapping.confidenceThreshold)
  else if !isFraction s.mapping.fuzzyMinSimilarity then
    some (.similarityRange s.mapping.fuzzyMinSimilarity)
  else if s.translation.rowCap = 0 then some .zeroRowCap
  else if s.translation.maxJoinDepth = 0 then some .zeroJoinDepth
  else if s.cache.capacity = 0 then some .zeroCapacity
  else none

end Settings

end MetricLayer
