import MetricLayer.Json.Basic
import MetricLayer.Request.Conflict

/-!
# Prompts

The question that is asked about a conflict, with the options that are offered.
-/

namespace MetricLayer

/-- How a question is answered. -/
inductive PromptKind where
  /-- By one of the options. -/
  | selection
  /-- By any text; the options are hints. -/
  | freeText
  /-- By the condition that counts. -/
  | confirmation
  deriving DecidableEq, Repr

/-- The word for the kind. -/
def PromptKind.name : PromptKind → String
  | selection => "selection"
  | freeText => "free_text"
  | confirmation => "confirmation"

/-- A question about a conflict. -/
structure Prompt where
  kind : PromptKind
  question : String
  options : List String
  conflictId : String
  deriving DecidableEq, Repr

namespace Prompt

/-- The question with its options in brackets. -/
def text (p : Prompt) : String :=
  p.question ++
    if p.options.isEmpty then "" else " [" ++ String.intercalate " | " p.options ++ "]"

/-- A prompt as a tree. -/
def toJson (p : Prompt) : Json :=
  .obj [("kind", .str p.kind.name), ("question", .str p.question),
    ("options", Json.ofList .str p.options), ("conflict_id", .str p.conflictId)]

end Prompt

/-- The word by which questions call a part of a request. -/
def EntityKind.noun : EntityKind → String
  | metric => "metric"
  | dimension => "dimension"
  | filter | sort => "field"
  | timeRange => "time period"

namespace Conflict

/-- How the question about a conflict is answered. -/
def promptKind (c : Conflict) : PromptKind :=
  match c.kind with
  | .ambiguous | .missingRequired => .selection
  | .unknown | .invalidValue => .freeText
  | .conflicting => .confirmation

/-- The question about a conflict. -/
def question (c : Conflict) : String :=
  let noun := c.entity.noun
  match c.kind with
  | .ambiguous =>
    "Did you mean one of these " ++ noun ++ "s when you specified '" ++ c.term ++ "'?"
  | .unknown =>
    "The " ++ noun ++ " '" ++ c.term ++ "' is not recognized. Which " ++ noun ++ " did you mean?"
  | .missingRequired => "Which " ++ noun ++ " would you like to see?"
  | .invalidValue =>
    "The value '" ++ c.value.getD "" ++ "' is not valid for '" ++ c.term ++
      "'. Please enter a valid value:"
  | .conflicting => c.message ++ ". Which condition should apply?"

/-- The prompt about a conflict. -/
def prompt (c : Conflict) : Prompt := ⟨c.promptKind, c.question, c.suggestions, c.id⟩

end Conflict

end MetricLayer
