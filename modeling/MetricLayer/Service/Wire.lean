import MetricLayer.Request.Wire
import MetricLayer.Service.Basic
import MetricLayer.Translation.Wire

/-!
# Responses as data trees

A response is only handed out. The id of the request stands in front of its members.
-/

namespace MetricLayer

open Json (ofList ofOption)

/-- The members of a response. -/
def Response.members (r : Response) : List (String × Json) :=
  [("state", .str r.state.name), ("needs_clarification", .bool r.needsClarification),
    ("sql", ofOption (fun t => .str t.statement.sql) r.translation),
    ("parameters",
      .arr ((r.translation.map fun t => t.statement.parameters.map Parameter.toJson).getD [])),
    ("prompts", ofList Prompt.toJson r.prompts), ("conflicts", ofList Conflict.toJson r.conflicts),
    ("entities", r.request.toJson), ("translation", ofOption Translation.toJson r.translation),
    ("warnings", ofList (fun w => .str w.message) r.warnings)]

/-- A response without the id of its request. -/
def Response.toJson (r : Response) : Json := .obj r.members

end MetricLayer
