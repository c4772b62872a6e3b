import MetricLayer.Json.Decode
import MetricLayer.Settings.Basic

/-!
# Settings as data trees

Every section and every setting may be left out; what is left out has its default.
-/

namespace MetricLayer

open Json (ofOption)

/-- The bound of numbers that count or measure. -/
def wordBound : Nat := bitValues 64

/-- The mapping section. -/
def MappingSettings.toJson (s : MappingSettings) : Json :=
  .obj [("confidence_threshold", .float s.confidenceThreshold),
    ("fuzzy_matching", .bool s.fuzzyMatching),
    ("fuzzy_min_similarity", .float s.fuzzyMinSimilarity),
    ("max_suggestions", .ofNat s.maxSuggestions)]

/-- The mapping section from a tree. -/
def MappingSettings.ofJson? (rigor : Json.Rigor) (j : Json) : Option MappingSettings := do
  let r ← j.fields? rigor ["confidence_threshold", "fuzzy_matching", "fuzzy_min_similarity",
    "max_suggestions"]
  let d : MappingSettings := {}
  pure
    { confidenceThreshold := ← r.defaulted "confidence_threshold" d.confidenceThreshold
        Json.asFloat?
      fuzzyMatching := ← r.defaulted "fuzzy_matching" d.fuzzyMatching Json.asBool?
      fuzzyMinSimilarity := ← r.defaulted "fuzzy_min_similarity" d.fuzzyMinSimilarity Json.asFloat?
      maxSuggestions := ← r.defaulted "max_suggestions" d.maxSuggestions
        (Json.asNatBelow? wordBound) }

/-- The translation section. -/
def TranslationSettings.toJson (s : TranslationSettings) : Json :=
  .obj [("dialect", .str s.dialect.name), ("row_cap", .ofNat s.rowCap),
    ("max_join_depth", .ofNat s.maxJoinDepth), ("validate_sql", .bool s.validateSql),
    ("join_tie_break", .str s.joinTieBreak.name)]

/-- The translation section from a tree. -/
def TranslationSettings.ofJson? (rigor : Json.Rigor) (j : Json) : Option TranslationSettings := do
  let r ← j.fields? rigor ["dialect", "row_cap", "max_join_depth", "validate_sql", "join_tie_break"]
  let d : TranslationSettings := {}
  pure
    { dialect := ← r.defaulted "dialect" d.dialect (Json.asWord? rigor Dialect.ofName?)
      rowCap := ← r.defaulted "row_cap" d.rowCap (Json.asNatBelow? (bitValues 32))
      maxJoinDepth := ← r.defaulted "max_join_depth" d.maxJoinDepth (Json.asNatBelow? wordBound)
      validateSql := ← r.defaulted "validate_sql" d.validateSql Json.asBool?
      joinTieBreak := ← r.defaulted "join_tie_break" d.joinTieBreak
        (Json.asWord? rigor TieBreak.ofName?) }

/-- The cache section. -/
def CacheSettings.toJson (s : CacheSettings) : Json :=
  .obj [("enabled", .bool s.enabled), ("capacity", .ofNat s.capacity),
    ("live_ttl_seconds", .ofNat s.liveTtlSeconds),
    ("historical_ttl_seconds", .ofNat s.historicalTtlSeconds)]

/-- The cache section from a tree. -/
def CacheSettings.ofJson? (rigor : Json.Rigor) (j : Json) : Option CacheSettings := do
  let r ← j.fields? rigor ["enabled", "capacity", "live_ttl_seconds", "historical_ttl_seconds"]
  let d : CacheSettings := {}
  pure
    { enabled := ← r.defaulted "enabled" d.enabled Json.asBool?
      capacity := ← r.defaulted "capacity" d.capacity (Json.asNatBelow? wordBound)
      liveTtlSeconds := ← r.defaulted "live_ttl_seconds" d.liveTtlSeconds
        (Json.asNatBelow? wordBound)
      historicalTtlSeconds := ← r.defaulted "historical_ttl_seconds" d.historicalTtlSeconds
        (Json.asNatBelow? wordBound) }

/-- The optimizer section. -/
def OptimizerSettings.toJson (s : OptimizerSettings) : Json :=
  .obj [("enabled", .bool s.enabled), ("materialized_views", .bool s.materializedViews),
    ("index_hints", .bool s.indexHints)]

/-- The optimizer section from a tree. -/
def OptimizerSettings.ofJson? (rigor : Json.Rigor) (j : Json) : Option OptimizerSettings := do
  let r ← j.fields? rigor ["enabled", "materialized_views", "index_hints"]
  let d : OptimizerSettings := {}
  pure
    { enabled := ← r.defaulted "enabled" d.enabled Json.asBool?
      materializedViews := ← r.defaulted "materialized_views" d.materializedViews Json.asBool?
      indexHints := ← r.defaulted "index_hints" d.indexHints Json.asBool? }

/-- The sources section. -/
def SourceSettings.toJson (s : SourceSettings) : Json :=
  .obj [("schema_path", ofOption .str s.schemaPath),
    ("dictionary_path", ofOption .str s.dictionaryPath)]

/-- The sources section from a tree. -/
def SourceSettings.ofJson? (rigor : Json.Rigor) (j : Json) : Option SourceSettings := do
  let r ← j.fields? rigor ["schema_path", "dictionary_path"]
  pure
    { schemaPath := ← r.omissible "schema_path" Json.asText?
      dictionaryPath := ← r.omissible "dictionary_path" Json.asText? }

/-- All sections. -/
def Settings.toJson (s : Settings) : Json :=
  .obj [("mapping", s.mapping.toJson), ("translation", s.translation.toJson),
    ("cache", s.cache.toJson), ("optimizer", s.optimizer.toJson), ("sources", s.sources.toJson)]

/-- All sections from a tree. -/
def Settings.ofJson? (rigor : Json.Rigor) (j : Json) : Option Settings := do
  let r ← j.fields? rigor ["mapping", "translation", "cache", "optimizer", "sources"]
  pure
    { mapping := ← r.defaulted "mapping" {} (MappingSettings.ofJson? rigor)
      translation := ← r.defaulted "translation" {} (TranslationSettings.ofJson? rigor)
      cache := ← r.defaulted "cache" {} (CacheSettings.ofJson? rigor)
      optimizer := ← r.defaulted "optimizer" {} (OptimizerSettings.ofJson? rigor)
      sources := ← r.defaulted "sources" {} (SourceSettings.ofJson? rigor) }

end MetricLayer
