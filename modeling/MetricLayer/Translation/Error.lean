/-!
# Why there is no translation

The failures of a request after its words are understood. A failure may come wrapped because it
happened under the store of translations; `TranslationError.surfaced` takes the wrapping off where
the failure lies in the request or the schema.
-/

namespace MetricLayer

/-- Why there is no translation. -/
inductive TranslationError where
  /-- No relationships connect the tables. -/
  | noJoinPath (source target : String)
  /-- There is nothing to select. -/
  | emptyProjection
  | invalidValue (field value reason : String)
  /-- The answers belong to questions about other definitions. -/
  | staleClarification (expected actual : String)
  | schemaUnavailable (reason : String)
  /-- The failure happened while the store computed a translation. -/
  | underCache (inner : TranslationError)
  | cancelled
  | extraction (reason : String)
  deriving DecidableEq, Repr

namespace TranslationError

/-- The word for the kind of failure. -/
def kind : TranslationError → String
  | noJoinPath .. => "no_join_path"
  | emptyProjection => "empty_projection"
  | invalidValue .. => "invalid_value"
  | staleClarification .. => "stale_clarification_context"
  | schemaUnavailable _ => "schema_unavailable"
  | underCache _ => "cache_compute_failed"
  | cancelled => "cancelled"
  | extraction _ => "extraction_failed"

/-- The text of the failure. -/
def message : TranslationError → String
  | noJoinPath source target => "No relationship path from '" ++ source ++ "' to '" ++ target ++ "'"
  | emptyProjection => "Query has nothing to select: no metrics or dimensions were mapped"
  | invalidValue field value reason =>
    "Invalid value '" ++ value ++ "' for '" ++ field ++ "': " ++ reason
  | staleClarification expected actual =>
    "Clarification context is stale (expected " ++ expected ++ ", current " ++ actual ++ ")"
  | schemaUnavailable reason => "Schema unavailable: " ++ reason
  | underCache inner => "Translation failed: " ++ inner.message
  | cancelled => "Translation cancelled"
  | extraction reason => "Entity extraction failed: " ++ reason

/-- The failure without its wrappings. -/
def root : TranslationError → TranslationError
  | underCache inner => inner.root
  | e => e

/-- The failure lies in the request or the schema, so another attempt fails the same way. -/
def isStructural : TranslationError → Bool
  | noJoinPath .. | emptyProjection | invalidValue .. | schemaUnavailable _ => true
  | _ => false

/-- The failure as it is told: without its wrappings if it is structural. -/
def surfaced : TranslationError → TranslationError
  | underCache inner => if inner.root.isStructural then inner.surfaced else underCache inner
  | e => e

theorem root_root (e : TranslationError) : e.root.root = e.root := by
  induction e with
  | underCache _ ih => exact ih
  | _ => rfl

/-- A structural failure surfaces as its root. -/
theorem surfaced_eq_root {e : TranslationError} (h : e.root.isStructural = true) :
    e.surfaced = e.root := by
  induction e with
  | underCache inner ih => simp only [root] at h; simp [surfaced, root, h, ih h]
  | _ => rfl

end TranslationError

end MetricLayer
