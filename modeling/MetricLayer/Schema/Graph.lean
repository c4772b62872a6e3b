import MetricLayer.Schema.Basic

/-!
# Join paths

Tables are the nodes of a graph and relationships its edges, which can be walked both ways. A path
is searched in layers: layer `n` holds the tables that are `n` joins away, each with the best of the
shortest paths to it. `TieBreak` says which of several shortest paths is best.
-/

namespace MetricLayer

/-- How to choose among shortest paths: first by the number of tables that are joined already, or
right away by the names of the tables. -/
inductive TieBreak where
  | preferJoined
  | lexicographic
  deriving DecidableEq, Repr

namespace TieBreak

/-- The word for the rule. -/
def name : TieBreak → String
  | preferJoined => "prefer_joined"
  | lexicographic => "lexicographic"

/-- The rule of a word on the wire. -/
def ofName? : String → Option TieBreak
  | "prefer_joined" => some preferJoined
  | "lexicographic" => some lexicographic
  | _ => none

end TieBreak

/-- One join, in the direction in which it is walked. -/
abbrev JoinStep := Relationship

/-- A relationship between two declared tables, with its place in the declaration. -/
structure Edge where
  index : Nat
  source : String
  target : String
  relationship : Relationship
  deriving DecidableEq, Repr

namespace Edge

/-- The table at the other end, seen from one end. -/
def other (e : Edge) (table : String) : String := if e.source = table then e.target else e.source

/-- The edge ends at the table. -/
def touches (e : Edge) (table : String) : Bool := e.source = table || e.target = table

/-- The join that is made when the edge is walked from the table. -/
def stepFrom (e : Edge) (table : String) : JoinStep :=
  if Text.eqIgnoringAsciiCase e.relationship.fromTable table then e.relationship
  else e.relationship.reverse

end Edge

/-- A path to a table in the search. -/
structure Trail where
  /-- How many tables of the path are joined already. -/
  joined : Nat
  /-- The tables of the path, the start left out. -/
  names : List String
  /-- The last edge. -/
  edge : Nat
  /-- The joins along the path. -/
  steps : List JoinStep
  deriving DecidableEq, Repr

namespace Trail

/-- The path that stays at the start. -/
def start : Trail := ⟨0, [], 0, []⟩

/-- The first path is better than the second. -/
def better (rule : TieBreak) (a b : Trail) : Bool :=
  let byNames := a.names < b.names || (a.names == b.names && a.edge < b.edge)
  match rule with
  | .preferJoined => b.joined < a.joined || (a.joined == b.joined && byNames)
  | .lexicographic => byNames

end Trail

namespace Schema

/-- The relationships as edges between declared tables. -/
def edges (s : Schema) : List Edge :=
  s.relationships.zipIdx.filterMap fun (r, i) =>
    match s.table? r.fromTable, s.table? r.toTable with
    | some t, some u => some ⟨i, t.name, u.name, r⟩
    | _, _ => none

/-- The names of the tables that are one join away from a table, in order. -/
def neighbors (s : Schema) (name : String) : List String :=
  match s.table? name with
  | none => []
  | some t =>
    let around := (s.edges.filter (·.touches t.name)).map (·.other t.name)
    ((s.tables.map (·.name)).filter fun n => n != t.name && around.contains n).mergeSort
      (fun a b => decide (a ≤ b))

/-- The names of tables that have been reached, with the paths to them. -/
abbrev Layer := List (String × Trail)

/-- The best of the paths to a table that go on from a layer by one edge. -/
def extend? (s : Schema) (rule : TieBreak) (joined : String → Bool) (layer : Layer)
    (table : String) : Option Trail :=
  let trails := layer.flatMap fun (name, trail) =>
    (s.edges.filter fun e => e.touches name && e.other name = table).map fun e =>
      { joined := trail.joined + if joined table then 1 else 0
        names := trail.names ++ [table]
        edge := e.index
        steps := trail.steps ++ [e.stepFrom name] : Trail }
  match trails with
  | [] => none
  | t :: ts => some (ts.foldl (fun best t => if t.better rule best then t else best) t)

/-- The tables that are reached from a layer and not before, with the best paths to them. -/
def nextLayer (s : Schema) (rule : TieBreak) (joined : String → Bool) (reached : List String)
    (layer : Layer) : Layer :=
  ((s.tables.map (·.name)).filter (!reached.contains ·)).filterMap fun table =>
    (s.extend? rule joined layer table).map (table, ·)

/-- The path to the goal, at most `depth` joins beyond the layer. -/
def search? (s : Schema) (rule : TieBreak) (joined : String → Bool) (goal : String) :
    Nat → List String → Layer → Option (List JoinStep)
  | 0, _, _ => none
  | depth + 1, reached, layer =>
    let next := s.nextLayer rule joined reached layer
    if next.isEmpty then none
    else match next.lookup goal with
      | some trail => some trail.steps
      | none => search? s rule joined goal depth (reached ++ next.map (·.1)) next

/-- The best shortest path between two tables of at most `maxDepth` joins. The names in `joined` are
those of tables that are joined already. -/
def joinPath? (s : Schema) (rule : TieBreak) (joined : List String) (maxDepth : Nat)
    (start goal : String) : Option (List JoinStep) :=
  match s.table? start, s.table? goal with
  | some t, some u =>
    if t.name = u.name then some []
    else
      s.search? rule (fun name => joined.any (Text.eqIgnoringAsciiCase · name)) u.name maxDepth
        [t.name] [(t.name, .start)]
  | _, _ => none

end Schema

end MetricLayer
