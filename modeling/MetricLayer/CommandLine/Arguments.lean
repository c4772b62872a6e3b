import MetricLayer.CommandLine.Basic

/-!
# Reading the arguments

Arguments are read from left to right, and the first one that decides counts: a request for help, or
a fault. Options can stand before and after the words of a command; after `--` there are only words.
What is missing is noticed at the end.
-/

namespace MetricLayer

/-- What a single argument is, by its spelling. -/
inductive Argument where
  | word (s : String)
  /-- Two hyphens: only words follow. -/
  | separator
  | plain (s : Switch)
  | valued (s : Switch) (value : String)
  /-- The value is the next argument. -/
  | awaiting (s : Switch)
  | fault (e : UsageError)
  deriving DecidableEq, Repr

namespace Argument

/-- The argument is an option with a value behind its name or none. -/
def ofSwitch (known : List Switch) (argument : String) (isNamed : Switch → Bool)
    (value : Option (List Char)) : Argument :=
  match known.find? isNamed, value with
  | none, _ => fault (.unexpected argument)
  | some s, none => if s.hasValue then awaiting s else plain s
  | some s, some v =>
    if s.hasValue then valued s (String.ofList v) else fault (.unexpected argument)

/-- What an argument is where these options are known. The value of a word option follows after an
equals sign, and the value of a letter follows at once or after an equals sign. -/
def ofText (known : List Switch) (argument : String) : Argument :=
  match argument.toList with
  | ['-', '-'] => separator
  | '-' :: '-' :: r =>
    let name := r.takeWhile (· ≠ '=')
    let value := if name.length < r.length then some (r.drop (name.length + 1)) else none
    ofSwitch known argument (·.long = String.ofList name) value
  | '-' :: c :: r =>
    let value := match r with
      | [] => none
      | '=' :: v => some v
      | v => some v
    match ofSwitch known argument (·.short? = some c) value with
    -- a letter without a value decides alone, whatever letters stand behind it
    | fault e => ((known.find? fun s => s.short? = some c && !s.hasValue).map plain).getD (fault e)
    | a => a
  | _ => word argument

/-- The arguments that a list consists of, up to the first fault. -/
def ofTexts (known : List Switch) : List String → List Argument
  | [] => []
  | t :: rest =>
    match ofText known t with
    | separator => rest.map word
    | fault e => [fault e]
    | awaiting s =>
      match rest with
      | [] => [fault (.noValue s)]
      | v :: rest =>
        match ofText [] v with
        | word v => valued s v :: ofTexts known rest
        | _ => [fault (.noValue s)]
    | a => a :: ofTexts known rest

end Argument

/-- What has been read of a command. -/
structure Given where
  settingsPath : Option String := none
  responses : List String := []
  dialect : Option Dialect := none
  asJson : Bool := false
  words : List String := []

namespace Given

/-- The dialect that an option names. -/
def dialect? : String → Option Dialect
  | "postgres" => some .postgres
  | "tsql" => some .tSql
  | "duckdb" => some .duckDb
  | _ => none

/-- The kind of entries that a word names. -/
def kind? : String → Option EntityKind
  | "metric" => some .metric
  | "dimension" => some .dimension
  | _ => none

/-- Adds an option with a value. -/
def addValued (g : Given) (value : String) : Switch → Except UsageError Given
  | .config =>
    if value.isEmpty then .error (.noValue .config)
    else if g.settingsPath.isSome then .error (.repeated .config)
    else .ok { g with settingsPath := some value }
  | .respond => .ok { g with responses := g.responses ++ [value] }
  | .dialect =>
    if g.dialect.isSome then .error (.repeated .dialect)
    else match dialect? value with
      | some d => .ok { g with dialect := some d }
      | none => .error (.badValue value)
  | s => .error (.unexpected s.long)

/-- Adds a word of the command. -/
def addWord (name : CommandName) (g : Given) (word : String) : Except UsageError Given :=
  if g.words.length < name.wordCount then
    if name = .suggest && g.words.isEmpty && (kind? word).isNone then .error (.badValue word)
    else .ok { g with words := g.words ++ [word] }
  else .error (.unexpected word)

/-- The command that has been read, if nothing is missing. -/
def command? (g : Given) : CommandName → Option Command
  | .translate =>
    match g.words with
    | [question] => some (.translate question g.responses g.dialect g.asJson)
    | _ => none
  | .tables => some .tables
  | .suggest =>
    match g.words with
    | [kind, phrase] => (kind? kind).map (.suggest · phrase)
    | _ => none
  | .help => none

/-- Reads the arguments of a command; `outer` is the path that was given in front of it. -/
def read (name : CommandName) (outer : Option String) :
    Given → List Argument → Except UsageError Invocation
  | g, [] =>
    match g.command? name with
    | some c => .ok (.run (g.settingsPath.or outer) c)
    | none => .error .tooFew
  | g, a :: rest =>
    match a with
    | .word w => do read name outer (← g.addWord name w) rest
    | .valued s v => do read name outer (← g.addValued v s) rest
    | .plain .json =>
      if g.asJson then .error (.repeated .json) else read name outer { g with asJson := true } rest
    | .plain .help => .ok (.help (some name))
    | .plain s => .error (.unexpected s.long)
    | .fault e => .error e
    | .awaiting s => .error (.noValue s)
    | .separator => read name outer g rest

end Given

namespace Invocation

/-- The help that the words after `help` ask for. -/
def ofHelpWords : List String → Except UsageError Invocation
  | [] => .ok (.help none)
  | [w] =>
    match CommandName.ofText? w with
    | some name => .ok (.help (some name))
    | none => .error (.unknownCommand w)
  | w :: _ :: _ => .error (.unknownCommand w)

/-- What the arguments from the command on ask for. -/
def ofCommand (path : Option String) (w : String) (rest : List String) :
    Except UsageError Invocation :=
  match CommandName.ofText? w with
  | none => .error (.unknownCommand w)
  | some .help => ofHelpWords rest
  | some name => Given.read name path {} (Argument.ofTexts (Switch.ofCommand name) rest)

/-- What the arguments ask for, `path` being the path of the settings so far. -/
def ofArgumentsFrom (path : Option String) : List String → Except UsageError Invocation
  | [] => .error .noCommand
  | t :: rest =>
    match Argument.ofText Switch.ofProgram t with
    | .word w => ofCommand path w rest
    | .separator => .error ((rest.head?.map UsageError.unexpected).getD .noCommand)
    | .plain .help => .ok (.help none)
    | .plain .version => .ok .version
    | .plain s => .error (.unexpected s.long)
    | .fault e => .error e
    | .valued s v =>
      match Given.addValued { settingsPath := path } v s with
      | .ok g => ofArgumentsFrom g.settingsPath rest
      | .error e => .error e
    | .awaiting s =>
      match rest with
      | [] => .error (.noValue s)
      | v :: rest =>
        match Argument.ofText [] v with
        | .word v =>
          match Given.addValued { settingsPath := path } v s with
          | .ok g => ofArgumentsFrom g.settingsPath rest
          | .error e => .error e
        | _ => .error (.noValue s)

/-- What the arguments ask for. -/
def ofArguments (arguments : List String) : Except UsageError Invocation :=
  ofArgumentsFrom none arguments

end Invocation

end MetricLayer
