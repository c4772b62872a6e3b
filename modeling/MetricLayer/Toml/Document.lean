import MetricLayer.Json.Basic

/-!
# Documents of tables

A document is a table whose members are values, tables and lists of tables. It is put together line
by line: a header opens a table, and the lines behind it put members into that table. No member is
given twice, no table is opened twice, and a dotted name gives a member only to a table that dotted
names made.
-/

namespace MetricLayer.Toml

/-- How a table came into being. -/
inductive Origin where
  /-- It was opened by a header of its own. -/
  | header
  /-- It is part of a longer header. -/
  | implied
  /-- It is part of a dotted name. -/
  | dotted
  deriving DecidableEq, Repr

/-- A member of a document. -/
inductive Node where
  | value (j : Json)
  | table (origin : Origin) (members : List (String × Node))
  /-- A list of tables, the last one first. -/
  | tables (items : List (List (String × Node)))

/-- The members of a table. -/
abbrev Members := List (String × Node)

namespace Members

/-- The members with the one of the name replaced, or a new one at the end. -/
def set (ms : Members) (name : String) (n : Node) : Members :=
  match ms with
  | [] => [(name, n)]
  | (k, v) :: rest => if k = name then (k, n) :: rest else (k, v) :: set rest name n

/-- Does `f` inside the table that a header's path leads to, tables that are not there being
implied; of a list of tables the last one is meant. -/
def within? (ms : Members) (path : List String) (f : Members → Option Members) : Option Members :=
  match path with
  | [] => f ms
  | name :: rest =>
    match ms.lookup name with
    | none => (within? [] rest f).map fun inner => ms.set name (.table .implied inner)
    | some (.table origin inner) =>
      (within? inner rest f).map fun inner => ms.set name (.table origin inner)
    | some (.tables (inner :: items)) =>
      (within? inner rest f).map fun inner => ms.set name (.tables (inner :: items))
    | some _ => none

/-- Opens the table of a header. -/
def openTable? (ms : Members) (name : String) : Option Members :=
  match ms.lookup name with
  | none => some (ms.set name (.table .header []))
  | some (.table .implied inner) => some (ms.set name (.table .header inner))
  | some _ => none

/-- Opens a further table in a list of tables. -/
def openItem? (ms : Members) (name : String) : Option Members :=
  match ms.lookup name with
  | none => some (ms.set name (.tables [[]]))
  | some (.tables items) => some (ms.set name (.tables ([] :: items)))
  | some _ => none

/-- Puts in a value under a dotted name. The table that gets the value must be one of dotted names;
the way to it may lead through implied tables and through the last table of a list. -/
def insert? (ms : Members) (path : List String) (j : Json) : Option Members :=
  match path with
  | [] => none
  | [name] => if (ms.lookup name).isSome then none else some (ms.set name (.value j))
  | name :: rest =>
    match ms.lookup name with
    | none => (insert? [] rest j).map fun inner => ms.set name (.table .dotted inner)
    | some (.table .dotted inner) =>
      (insert? inner rest j).map fun inner => ms.set name (.table .dotted inner)
    | some (.table .implied inner) =>
      if rest.length < 2 then none
      else (insert? inner rest j).map fun inner => ms.set name (.table .implied inner)
    | some (.tables (inner :: items)) =>
      if rest.length < 2 then none
      else (insert? inner rest j).map fun inner => ms.set name (.tables (inner :: items))
    | some _ => none

end Members

mutual

/-- The member as a data tree. -/
def Node.toJson : Node → Json
  | .value j => j
  | .table _ members => .obj (membersToJson members)
  | .tables items => .arr (itemsToJson items).reverse

def membersToJson : List (String × Node) → List (String × Json)
  | [] => []
  | (k, n) :: rest => (k, n.toJson) :: membersToJson rest

def itemsToJson : List (List (String × Node)) → List Json
  | [] => []
  | ms :: rest => .obj (membersToJson ms) :: itemsToJson rest

end

/-- A line of a document. -/
inductive Line where
  | header (path : List String)
  | item (path : List String)
  | member (path : List String) (value : Json)

/-- A document that is being put together: its members and the path of the open table. -/
structure Draft where
  members : Members := []
  path : List String := []

/-- The draft with one more line. -/
def Draft.add? (d : Draft) (line : Line) : Option Draft :=
  match line with
  | .header path =>
    path.getLast?.bind fun name =>
      (d.members.within? path.dropLast (·.openTable? name)).map (⟨·, path⟩)
  | .item path =>
    path.getLast?.bind fun name =>
      (d.members.within? path.dropLast (·.openItem? name)).map (⟨·, path⟩)
  | .member path value =>
    (d.members.within? d.path (·.insert? path value)).map (⟨·, d.path⟩)

/-- The document of the lines. -/
def ofLines? (lines : List Line) : Option Json :=
  (lines.foldlM Draft.add? {}).map fun d => .obj (membersToJson d.members)

end MetricLayer.Toml
