import MetricLayer.CommandLine.Arguments
import MetricLayer.CommandLine.Output
import MetricLayer.Sources

/-!
# Running a command

A command sees its surroundings, the environment and the files, through functions that may have
effects, so it runs in any monad; in `Id` it is a plain function. Settings that cannot be used are
replaced by the default ones with a warning, while a definition that cannot be used ends the
command.
-/

namespace MetricLayer

/-- What a command sees around it. -/
structure Surroundings (m : Type → Type) where
  today : Date
  /-- The id that a response gets. -/
  requestId : String
  /-- The value of an environment variable. -/
  environment : String → m (Option String)
  /-- The text of the file with a path. -/
  read : String → m FileText

namespace Surroundings

variable {m : Type → Type} [Monad m] (s : Surroundings m)

/-- The values of the variables, by name. -/
def valuesOf (names : List String) : m (List (String × Option String)) :=
  names.mapM fun name => do pure (name, ← s.environment name)

/-! ## Settings -/

/-- The directory of the user's settings. -/
def configDirectory? : m (Option String) := do
  match ← s.environment "XDG_CONFIG_HOME" with
  | some d => if d.startsWith "/" then pure (some d) else underHome
  | none => underHome
where
  /-- The directory under the home directory. -/
  underHome : m (Option String) := do
    match ← s.environment "HOME" with
    | some home => pure (if home.isEmpty then none else some (home ++ "/.config"))
    | none => pure none

/-- The settings of a file, unless there is no such file. -/
def settingsIfPresent (path : String) : m (Option (Except SettingsError Settings)) := do
  match ← s.read path with
  | .error f => pure (if f.isAbsent then none else some (Settings.ofFile path (.error f)))
  | .ok text => pure (some (Settings.ofDocument text))

/-- The settings of the first file that is there, or else the default ones. -/
def firstSettings : List String → m (Except SettingsError Settings)
  | [] => pure (.ok {})
  | path :: rest => do
    match ← s.settingsIfPresent path with
    | some r => pure r
    | none => firstSettings rest

/-- The settings: of the given file, of the file that the environment names, or of a file in one of
the usual places. -/
def settings (path : Option String) : m (Except SettingsError Settings) := do
  match path with
  | some path => pure (Settings.ofFile path (← s.read path))
  | none =>
    match ← s.environment "NLQ_CONFIG" with
    | some path => pure (Settings.ofFile path (← s.read path))
    | none =>
      let directory ← s.configDirectory?
      s.firstSettings ("nlq.toml" :: (directory.map (· ++ "/nlq/config.toml")).toList)

/-! ## The service -/

/-- The dictionary of a file, or the sample one; the error is a message. -/
def dictionary (path : Option String) : m (Except String Dictionary) := do
  match path with
  | none => pure ((Dictionary.ofDefinition Gaming.dictionaryDefinition).mapError (·.message))
  | some path =>
    pure ((Dictionary.ofFile (← s.read path)).mapError fun e =>
      "dictionary '" ++ path ++ "': " ++ e.message)

/-- The schema of a file, or the sample one. -/
def schema (path : Option String) : m (Except SchemaError Schema) := do
  match path with
  | none => pure (Schema.ofDefinition Gaming.schemaDefinition)
  | some path => pure (Schema.ofFile (← s.read path))

/-- The service over the definitions that the settings name; the error is a message. -/
def service (settings : Settings) : m (Except String Service) := do
  let values ← s.valuesOf settings.sources.variableNames
  let expand (path : Option String) : Except String (Option String) :=
    (SourceSettings.expandPath (fun name => (values.lookup name).join) path).mapError (·.message)
  match expand settings.sources.dictionaryPath with
  | .error e => pure (.error e)
  | .ok path =>
    match ← s.dictionary path with
    | .error e => pure (.error e)
    | .ok dictionary =>
      match expand settings.sources.schemaPath with
      | .error e => pure (.error e)
      | .ok path =>
        let schema ← s.schema path
        pure ((Service.start settings dictionary dictionary.request schema
          (.ofDate s.today)).mapError (·.message))

end Surroundings

namespace Responses

/-- The id and the value of an argument, which the last equals sign divides. -/
def split? (pair : String) : Option (String × String) :=
  let value := (pair.toList.reverse.takeWhile (· ≠ '=')).reverse
  if value.length < pair.length then
    some (String.ofList (pair.toList.take (pair.length - value.length - 1)), String.ofList value)
  else none

/-- The responses of the arguments; the error is the first argument that is none. -/
def ofPairs : List String → Except String Responses
  | [] => .ok []
  | pair :: rest =>
    match split? pair with
    | some r => (ofPairs rest).map (r :: ·)
    | none => .error pair

end Responses

namespace Service

/-- Translates a question, and goes on with the responses if there are prompts. -/
def translate (s : Service) (question : String) (rs : Responses) :
    Except TranslationError Response :=
  match s.handle (.question question) false with
  | (_, .error e) => .error e
  | (s, .ok first) =>
    if first.needsClarification && !rs.isEmpty then (s.handle (.responses first.request rs) false).2
    else .ok first

end Service

namespace Command

/-- The settings for a command, which may ask for a dialect of its own. -/
def settings (c : Command) (s : Settings) : Settings :=
  match c with
  | translate _ _ (some dialect) _ => { s with translation := { s.translation with dialect } }
  | _ => s

/-- What a command gives. -/
def output (c : Command) (requestId : String) (s : Service) : Output :=
  match c with
  | translate question responses _ asJson =>
    match Responses.ofPairs responses with
    | .error pair => .failure ("Invalid --respond '" ++ pair ++ "': expected ID=VALUE")
    | .ok rs =>
      match s.translate question rs with
      | .error e => .ofTranslationError e
      | .ok r => if asJson then .ofResponseJson requestId r else .ofResponse r
  | tables => .ofSchema s.version s.schema
  | suggest kind phrase => .ofSuggestions kind phrase (s.suggestions kind phrase)

end Command

namespace Invocation

variable {m : Type → Type} [Monad m]

/-- Does what the arguments ask for. -/
def output (s : Surroundings m) : Invocation → m Output
  | help none => pure { lines := Help.program }
  | help (some name) => pure { lines := Help.ofCommand name }
  | version => pure { lines := [Help.version] }
  | run path c => do
    let (settings, warnings) := match ← s.settings path with
      | .ok settings => (settings, [])
      | .error e => (({} : Settings), ["Warning: " ++ e.message ++ "; using default settings"])
    let output := match ← s.service (c.settings settings) with
      | .ok service => c.output s.requestId service
      | .error e => .failure ("Error: " ++ e)
    pure { output with complaints := warnings ++ output.complaints }

end Invocation

end MetricLayer
