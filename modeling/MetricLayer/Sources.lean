import MetricLayer.Settings.Variables
import MetricLayer.Settings.Wire
import MetricLayer.Toml.Reader
import MetricLayer.Vocabulary.Dictionary

/-!
# Definitions and settings as documents

Schemas, dictionaries and settings are written down as documents, which stand in files. A document
that cannot be read, or that does not describe what is asked for, is unreadable; one that can be
read is then checked.
-/

namespace MetricLayer

/-- Why a file gives no text. -/
inductive FileFailure where
  | missing
  /-- A part of the path is a file where a directory should be. -/
  | underFile
  | directory
  | refused
  | other (reason : String)
  deriving DecidableEq, Repr

namespace FileFailure

/-- The text of the failure. -/
def reason : FileFailure → String
  | missing => "No such file or directory (os error 2)"
  | underFile => "Not a directory (os error 20)"
  | directory => "Is a directory (os error 21)"
  | refused => "Permission denied (os error 13)"
  | other reason => reason

/-- Nothing has the path. -/
def isAbsent (f : FileFailure) : Bool := f = missing || f = underFile

end FileFailure

/-- What reading a file gives. -/
abbrev FileText := Except FileFailure String

/-- The schema that a document describes. -/
def Schema.ofDocument (text : String) : Except SchemaError Schema :=
  match (Toml.parse? text).bind (SchemaDefinition.ofJson? .loose) with
  | some d => Schema.ofDefinition d
  | none => .error .unreadable

/-- The dictionary that a document describes. -/
def Dictionary.ofDocument (text : String) : Except DictionaryError Dictionary :=
  match (Toml.parse? text).bind (DictionaryDefinition.ofJson? .loose) with
  | some d => Dictionary.ofDefinition d
  | none => .error .unreadable

/-- The settings that a document describes, if they are such as can be worked with. -/
def Settings.ofDocument (text : String) : Except SettingsError Settings :=
  match (Toml.parse? text).bind (Settings.ofJson? .loose) with
  | none => .error .unreadable
  | some s =>
    match s.fault? with
    | some e => .error e
    | none => .ok s

/-- The schema of a file. -/
def Schema.ofFile : FileText → Except SchemaError Schema
  | .ok text => Schema.ofDocument text
  | .error f => .error (.file f.reason)

/-- The dictionary of a file. -/
def Dictionary.ofFile : FileText → Except DictionaryError Dictionary
  | .ok text => Dictionary.ofDocument text
  | .error f => .error (.file f.reason)

/-- The settings of the file with a path. -/
def Settings.ofFile (path : String) : FileText → Except SettingsError Settings
  | .ok text => Settings.ofDocument text
  | .error f => .error (if f.isAbsent then .fileNotFound path else .file f.reason)

end MetricLayer
