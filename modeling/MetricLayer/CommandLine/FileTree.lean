import MetricLayer.CommandLine.Run

/-!
# File trees

Files that exist only as data, so that a command can be run on them without effects. A directory is
there if something is below it, or if it is on the way to the directory in which the command runs.
-/

namespace MetricLayer

/-- Files by the parts of their paths, and the directory that relative paths start from. -/
structure FileTree where
  start : List String
  files : List (List String × String)
  deriving DecidableEq, Repr

namespace FileTree

/-- The parts of a path. -/
def partsOf (path : String) : List String :=
  (path.splitOn "/").filter fun p => !p.isEmpty && p != "."

/-- The tree of files with paths that are relative to the directory of the command. -/
def ofFiles (start : List String) (files : List (String × String)) : FileTree :=
  { start, files := files.map fun (path, text) => (start ++ partsOf path, text) }

variable (t : FileTree)

/-- The parts lead to a directory. -/
def isDirectory (parts : List String) : Bool :=
  parts.isPrefixOf t.start ||
    t.files.any fun f => parts.isPrefixOf f.1 && parts.length < f.1.length

/-- The text at the end of a way that goes on from a place. -/
def walk (place : List String) : List String → FileText
  | [] =>
    match t.files.lookup place with
    | some text => .ok text
    | none => .error (if t.isDirectory place then .directory else .missing)
  | p :: rest =>
    if (t.files.lookup place).isSome then .error .underFile
    else if !t.isDirectory place then .error .missing
    else walk (if p = ".." then place.dropLast else place ++ [p]) rest

/-- The text of the file with a path. -/
def read (path : String) : FileText :=
  if path.isEmpty then .error .missing
  else
    match t.walk (if path.startsWith "/" then [] else t.start) (partsOf path) with
    | .ok text => if path.endsWith "/" then .error .underFile else .ok text
    | e => e

/-- The home directory, which is the directory of the command. -/
def home : String := "/" ++ String.intercalate "/" t.start

/-- The surroundings with these files, these variables and the home directory. -/
def surroundings (today : Date) (requestId : String) (environment : List (String × String)) :
    Surroundings Id :=
  { today, requestId
    environment := fun name =>
      (environment.lookup name).or (if name = "HOME" then some t.home else none)
    read := t.read }

end FileTree

end MetricLayer
