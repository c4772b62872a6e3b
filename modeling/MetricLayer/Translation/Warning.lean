import MetricLayer.Calendar.DayRange
import MetricLayer.Schema.Field
import MetricLayer.Sql.Render

/-!
# Warnings of a translation

What a translation left out or changed, short of failing.
-/

namespace MetricLayer

/-- Why a query was not moved to a view. -/
inductive ViewError where
  | noCounterpart (field : Field) (view : String)
  | render (e : RenderError)
  /-- A parser does not read the statement over the view. -/
  | unread (reason : String)
  deriving DecidableEq, Repr

/-- The text of a view error. -/
def ViewError.message : ViewError → String
  | noCounterpart field view =>
    "column " ++ field.text ++ " has no counterpart in view '" ++ view ++ "'"
  | render e => "rewritten query failed to render: " ++ e.message
  | unread reason => "rewritten query did not re-parse: " ++ reason

/-- Something that a translation left out or changed. -/
inductive TranslationWarning where
  | noDateColumn
  | limitAboveCap (requested cap : Nat)
  /-- The sort names nothing that is selected. -/
  | sortUnknown (term : String)
  | comparisonSkipped (c : Comparison)
  | viewSkipped (view : String) (reason : ViewError)
  deriving DecidableEq, Repr

/-- The text of a warning. -/
def TranslationWarning.message : TranslationWarning → String
  | noDateColumn => "No date column is available for the time range; it was not applied"
  | limitAboveCap requested cap =>
    "Limit " ++ toString requested ++ " exceeds the row cap; using " ++ toString cap
  | sortUnknown term =>
    "Sort on '" ++ term ++ "' does not match a selected field; using the default order"
  | comparisonSkipped c =>
    "Comparison '" ++ c.name ++ "' needs a time range on a date column; skipped"
  | viewSkipped view reason => "Optimizer skipped view '" ++ view ++ "': " ++ reason.message

end MetricLayer
