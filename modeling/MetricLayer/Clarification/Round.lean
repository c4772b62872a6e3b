import MetricLayer.Clarification.Prompt
import MetricLayer.Clarification.Response
import MetricLayer.Clarification.State
import MetricLayer.Translation.Error

/-!
# Rounds of clarification

A round maps a request and asks about the conflicts that are open. No state is kept between rounds:
the round hands out the request with its conflicts and a stamp of the definitions, and the answers
come back with it. Answers to questions about other definitions are refused.
-/

namespace MetricLayer

namespace Stamp

/-- The first characters that take exactly so many bytes, if the text has them. -/
def takeBytes? : Nat → List Char → Option (List Char)
  | 0, _ => some []
  | _, [] => none
  | n, c :: cs => if c.utf8Size ≤ n then (takeBytes? (n - c.utf8Size) cs).map (c :: ·) else none

/-- The first 16 bytes of a fingerprint, or all of it if they do not end with a character. -/
def short (fingerprint : String) : String :=
  match takeBytes? 16 fingerprint.toList with
  | some cs => String.ofList cs
  | none => fingerprint

/-- The stamp of a dictionary and a schema. -/
def ofFingerprints (dictionary schema : String) : String := short dictionary ++ "/" ++ short schema

end Stamp

/-- Responses by the ids of the conflicts that they answer. -/
abbrev Responses := List (String × String)

namespace Responses

/-- Puts a response in the order of the ids; the last response to an id counts. -/
def insert (id response : String) : Responses → Responses
  | [] => [(id, response)]
  | (i, r) :: rest =>
    if id = i then (id, response) :: rest
    else if id < i then (id, response) :: (i, r) :: rest
    else (i, r) :: insert id response rest

/-- The responses in the order of their ids, one for each id. -/
def ordered (rs : Responses) : Responses := rs.foldl (fun acc (id, r) => insert id r acc) []

end Responses

/-- Something about a round that went another way than the answers asked for. -/
inductive RoundWarning where
  | notOpen (id : String)
  | refused (id : String) (reason : ResponseError)
  | mapping (w : MappingWarning)
  | stillOpen (id : String)
  deriving DecidableEq, Repr

/-- The text of a warning. -/
def RoundWarning.message : RoundWarning → String
  | notOpen id => "No open conflict with id '" ++ id ++ "'; response ignored"
  | refused id reason => "Response to '" ++ id ++ "' not applied: " ++ reason.message
  | mapping w => w.message
  | stillOpen id => "Conflict '" ++ id ++ "' is still unresolved after the response"

/-- What a round hands out. -/
structure Round where
  state : ClarificationState
  /-- The request with the open conflicts and the stamp. -/
  request : Request
  outcome : Mapping.Outcome
  prompts : List Prompt
  warnings : List RoundWarning
  deriving DecidableEq, Repr

namespace Round

/-- There are questions to answer. -/
def needsClarification (r : Round) : Bool := r.state = .needsClarification

end Round

/-- What the responses have done so far. -/
structure Answered where
  request : Request
  /-- The ids of the conflicts whose response was not refused. -/
  ids : List String := []
  warnings : List RoundWarning := []
  deriving DecidableEq, Repr

namespace Answered

/-- Applies the response to one of the conflicts. -/
def step (conflicts : List Conflict) (a : Answered) (response : String × String) : Answered :=
  let (id, text) := response
  match conflicts.find? (·.id = id) with
  | none => { a with warnings := a.warnings ++ [.notOpen id] }
  | some c =>
    match a.request.respond c text with
    | (request, none) => { a with request, ids := a.ids ++ [id] }
    | (request, some e) => { a with request, warnings := a.warnings ++ [.refused id e] }

/-- Applies all responses, in the order of their ids. -/
def all (r : Request) (responses : Responses) : Answered :=
  responses.ordered.foldl (step r.conflicts) { request := r }

/-- The request with only those conflicts that came with it and are not answered; all others are
found again by the next mapping. -/
def openRequest (a : Answered) : Request :=
  { a.request with
    conflicts := a.request.conflicts.filter fun c => c.reported && !a.ids.contains c.id }

end Answered

namespace Mapping.Context

variable (ctx : Mapping.Context)

/-- The stamp of the definitions. -/
def stamp : String := Stamp.ofFingerprints ctx.dictionary.fingerprint ctx.schema.fingerprint

/-- Maps a request and asks about the open conflicts. -/
def round (r : Request) (state : ClarificationState) (warnings : List RoundWarning) : Round :=
  let outcome := ctx.map r
  { state := state.advance !outcome.conflicts.isEmpty
    request := { r with conflicts := outcome.conflicts, snapshot := some ctx.stamp }
    outcome
    prompts := outcome.conflicts.map Conflict.prompt
    warnings := warnings ++ outcome.warnings.map .mapping }

/-- The first round. -/
def begin (r : Request) : Round := ctx.round r .mapped []

/-- The round after responses to the questions of an earlier one. -/
def apply (r : Request) (responses : Responses) : Except TranslationError Round :=
  match r.snapshot with
  | some expected =>
    if expected = ctx.stamp then .ok (continued r responses)
    else .error (.staleClarification expected ctx.stamp)
  | none => .ok (continued r responses)
where
  /-- The round after responses, the stamp being the current one. -/
  continued (r : Request) (responses : Responses) : Round :=
    let answered := Answered.all r responses
    let round := ctx.round answered.openRequest .clarified answered.warnings
    { round with
      warnings := round.warnings ++
        ((round.outcome.conflicts.filter fun c => answered.ids.contains c.id).map
          (RoundWarning.stillOpen ·.id)) }

end Mapping.Context

end MetricLayer
