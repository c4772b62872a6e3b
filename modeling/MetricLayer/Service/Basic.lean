import MetricLayer.Clarification.Round
import MetricLayer.Question.Basic
import MetricLayer.Store.Shared
import MetricLayer.Translation.View

/-!
# The service

The service reads a question, maps the request and translates the report, unless there are questions
to ask first. It keeps a schema that can be replaced, a shared store of translations and nothing
about a request: a clarification goes on from the request that the response handed out.

A request that gets as far as the store becomes a `Job`, whose translation is made from the schema
that was current when the request was mapped. `Service.handle` serves one request from start to end;
`ServiceEvent` and `Service.run` let requests and everything else interleave.
-/

namespace MetricLayer

/-- What somebody asks of the service. -/
inductive Ask where
  | question (text : String)
  | request (r : Request)
  /-- Responses to the questions about a request that was handed out. -/
  | responses (request : Request) (rs : Responses)

/-- Something about a response that went another way than was asked for. -/
inductive ResponseWarning where
  | round (w : RoundWarning)
  | translation (w : TranslationWarning)
  deriving DecidableEq, Repr

/-- The text of a warning. -/
def ResponseWarning.message : ResponseWarning → String
  | round w => w.message
  | translation w => w.message

/-- What the service answers: questions, or a translation. -/
structure Response where
  state : ClarificationState
  /-- The request, to be handed back with responses. -/
  request : Request
  prompts : List Prompt
  translation : Option Translation
  warnings : List ResponseWarning
  deriving Repr

namespace Response

/-- There are questions to answer. -/
def needsClarification (r : Response) : Bool := r.translation.isNone

/-- The open conflicts. -/
def conflicts (r : Response) : List Conflict :=
  if r.needsClarification then r.request.conflicts else []

/-- The response that asks the questions of a round. -/
def ofRound (r : Round) : Response :=
  { state := r.state, request := r.request, prompts := r.prompts, translation := none
    warnings := r.warnings.map .round }

/-- The response to a round without questions. -/
def ofTranslation (r : Round) (t : Translation) : Response :=
  { state := r.state, request := r.request, prompts := [], translation := some t
    warnings := r.warnings.map .round ++ t.warnings.map .translation }

end Response

/-- A request that is being translated: its round and its caller in the shared store. -/
structure Job where
  round : Round
  caller : Nat

/-- The service. -/
structure Service where
  settings : Settings
  dictionary : Dictionary
  /-- How questions are read. -/
  read : String → Except QuestionError Request
  schema : Schema
  /-- How often there has been a schema. -/
  version : Nat
  shared : SharedStore Translation
  jobs : List Job

namespace SchemaError

/-- The failure of a request for which there is no schema. -/
def asTranslationError (e : SchemaError) : TranslationError := .schemaUnavailable e.message

end SchemaError

/-- The translation of a report with all improvements, made without the store. -/
def Report.finalTranslation (r : Report) (s : Schema) (settings : Settings) :
    Computed Translation :=
  (r.translate s settings.translation).map (·.optimize s settings.optimizer)

namespace Service

/-- The service with a first schema, if there is one. -/
def start (settings : Settings) (dictionary : Dictionary)
    (read : String → Except QuestionError Request) (schema : Except SchemaError Schema)
    (now : Instant) : Except TranslationError Service :=
  match schema with
  | .error e => .error e.asTranslationError
  | .ok schema =>
    .ok
      { settings, dictionary, read, schema
        version := 1
        shared := .start settings.cache now
        jobs := [] }

variable (s : Service)

/-- What requests are mapped against now. -/
def context : Mapping.Context :=
  { dictionary := s.dictionary, schema := s.schema, settings := s.settings.mapping
    today := s.shared.today }

/-- The first round of a question. -/
def questionRound (text : String) : Except TranslationError Round :=
  match s.read text with
  | .error e => .error (.extraction e.message)
  | .ok r =>
    .ok (s.context.begin (if r.question.isEmpty then { r with question := text } else r))

/-- The round that answers a request. -/
def round : Ask → Except TranslationError Round
  | .question text => s.questionRound text
  | .request r => .ok (s.context.begin r)
  | .responses r rs => s.context.apply r rs

/-- The service with a job that translates the report of a round. -/
def addJob (r : Round) : Service :=
  let report := r.outcome.report
  let translated := report.finalTranslation s.schema s.settings
  { s with
    shared := s.shared.step
      (.arrive (report.key s.context.stamp) report.timeRange (some translated))
    jobs := s.jobs ++ [⟨r, s.shared.callers.length⟩] }

/-- How far a request has come. -/
inductive Progress where
  | answered (result : Except TranslationError Response)
  | working (job : Nat)

/-- Takes a request up to the store. -/
def submit (ask : Ask) (cancelled : Bool) : Service × Progress :=
  if cancelled then (s, .answered (.error .cancelled))
  else
    match s.round ask with
    | .error e => (s, .answered (.error e))
    | .ok r =>
      if r.needsClarification then (s, .answered (.ok (.ofRound r)))
      else (s.addJob r, .working s.jobs.length)

/-- The answer of a job that is done. -/
def answer? (job : Nat) : Option (Except TranslationError Response) :=
  s.jobs[job]?.bind fun j =>
    (s.shared.result? j.caller).map fun
      | .ok t => .ok (.ofTranslation j.round t)
      | .error e => .error e.surfaced

/-- Serves a request from start to end. -/
def handle (ask : Ask) (cancelled : Bool) : Service × Except TranslationError Response :=
  match s.submit ask cancelled with
  | (s, .answered result) => (s, result)
  | (s, .working job) =>
    let s := { s with shared := s.shared.settle }
    (s, (s.answer? job).getD (.error .cancelled))

/-- The entries that match a phrase, or else those that come close. -/
def suggestions (kind : EntityKind) (phrase : String) : List String :=
  let found := s.dictionary.suggestions s.settings.mapping kind phrase
  if found.isEmpty then s.dictionary.closest kind phrase s.settings.mapping.maxSuggestions
  else found

/-- Puts another schema in place. -/
def replaceSchema (schema : Schema) : Service := { s with schema, version := s.version + 1 }

/-- What happens to the shared store. -/
def store (e : Event Translation) : Service := { s with shared := s.shared.step e }

/-- Puts another schema in place, if there is one, and empties the store. -/
def refresh (schema : Except SchemaError Schema) : Service × Except TranslationError Nat :=
  match schema with
  | .error e => (s, .error e.asTranslationError)
  | .ok schema =>
    let s := (s.replaceSchema schema).store .clear
    (s, .ok s.version)

end Service

/-- What can happen to a service. Jobs are numbered in the order in which they were submitted. A
refresh that gets a schema puts it in place and then clears the store, and in between everything
else can happen; a refresh that gets none changes nothing. -/
inductive ServiceEvent where
  | submit (ask : Ask) (cancelled : Bool)
  /-- The job takes its next step in the store. -/
  | act (job : Nat)
  /-- The job notices that it was cancelled. -/
  | quit (job : Nat)
  | cancel (job : Nat)
  | drop (job : Nat)
  | clear
  | advance (seconds : Nat)
  | setDate (d : Date)
  | replaceSchema (s : Schema)

namespace Service

/-- Lets something happen to the caller of a job, if there is the job. -/
def forJob (s : Service) (job : Nat) (e : Nat → Event Translation) : Service :=
  match s.jobs[job]? with
  | some j => s.store (e j.caller)
  | none => s

/-- What an event makes of the service. -/
def step (s : Service) : ServiceEvent → Service
  | .submit ask cancelled => (s.submit ask cancelled).1
  | .act job => s.forJob job .act
  | .quit job => s.forJob job .quit
  | .cancel job => s.forJob job .cancel
  | .drop job => s.forJob job .drop
  | .clear => s.store .clear
  | .advance seconds => s.store (.advance seconds)
  | .setDate d => s.store (.setDate d)
  | .replaceSchema schema => s.replaceSchema schema

/-- What a list of events makes of the service. -/
def run (s : Service) (events : List ServiceEvent) : Service := events.foldl step s

end Service

end MetricLayer
