import MetricLayer.Request.Kind
import MetricLayer.Sql.Dialect

/-!
# Commands

What the program can be asked to do, and the options of each command. An option is a letter after
one hyphen or a word after two.
-/

namespace MetricLayer

/-- What the program does. -/
inductive Command where
  /-- Translates a question, with responses to the prompts that come up. -/
  | translate (question : String) (responses : List String) (dialect : Option Dialect)
      (asJson : Bool)
  /-- Lists the tables, views and relationships. -/
  | tables
  /-- Lists the entries that match a phrase. -/
  | suggest (kind : EntityKind) (phrase : String)
  deriving DecidableEq, Repr

/-- A command by its name alone. -/
inductive CommandName where
  | translate
  | tables
  | suggest
  | help
  deriving DecidableEq, Repr

/-- The command with the word. -/
def CommandName.ofText? : String → Option CommandName
  | "translate" => some translate
  | "tables" => some tables
  | "suggest" => some suggest
  | "help" => some help
  | _ => none

/-- What the arguments ask for. -/
inductive Invocation where
  /-- The help of a command, or of the whole program. -/
  | help (topic : Option CommandName)
  | version
  | run (settingsPath : Option String) (c : Command)
  deriving DecidableEq, Repr

/-- An option, however it is spelled. -/
inductive Switch where
  | config
  | respond
  | dialect
  | json
  | help
  | version
  deriving DecidableEq, Repr

namespace Switch

/-- The word of the option. -/
def long : Switch → String
  | config => "config"
  | respond => "respond"
  | dialect => "dialect"
  | json => "json"
  | help => "help"
  | version => "version"

/-- The letter of the option. -/
def short? : Switch → Option Char
  | config => some 'c'
  | respond => some 'r'
  | dialect => some 'd'
  | json => none
  | help => some 'h'
  | version => some 'V'

/-- The option has a value. -/
def hasValue : Switch → Bool
  | config | respond | dialect => true
  | json | help | version => false

/-- The options in front of the command. -/
def ofProgram : List Switch := [config, help, version]

/-- The options of a command. -/
def ofCommand : CommandName → List Switch
  | .translate => [config, respond, dialect, json, help]
  | _ => [config, help]

end Switch

/-- How many words a command needs. -/
def CommandName.wordCount : CommandName → Nat
  | translate => 1
  | suggest => 2
  | tables | help => 0

/-- What is wrong about the arguments. -/
inductive UsageError where
  | noCommand
  | unknownCommand (name : String)
  | unexpected (argument : String)
  | noValue (s : Switch)
  | badValue (value : String)
  | repeated (s : Switch)
  | tooFew
  deriving DecidableEq, Repr

/-- The text of the error. -/
def UsageError.message : UsageError → String
  | noCommand => "a command is required"
  | unknownCommand name => "unrecognized command '" ++ name ++ "'"
  | unexpected argument => "unexpected argument '" ++ argument ++ "'"
  | noValue s => "a value is required for '--" ++ s.long ++ "'"
  | badValue value => "invalid value '" ++ value ++ "'"
  | repeated s => "the option '--" ++ s.long ++ "' cannot be used multiple times"
  | tooFew => "required arguments were not provided"

end MetricLayer
