/-!
# Cycles in a graph of names

A depth-first walk lists the nodes so that a node comes after all nodes that can be reached from it,
as long as there is no cycle. Read backwards, every edge then leads forward. `cyclic?` names a node
on a cycle: one with an edge to itself, or one with an edge that leads back.
-/

namespace MetricLayer.Cycle

/-- A graph: its nodes in order, the nodes in the order in which their edges were drawn, and the nodes
that a node has edges to, in order. -/
structure Graph where
  nodes : List String
  sources : List String
  targets : String → List String

/-- What a walk has seen: the nodes found, and the nodes left behind, the latest first. -/
structure Walk where
  found : List String := []
  finished : List String := []
  deriving DecidableEq, Repr

/-- Walks a node and what can be reached from it; `fuel` bounds the depth. A node with an edge to
itself ends the walk. -/
def visit (g : Graph) : Nat → Walk → String → Except String Walk
  | 0, w, _ => .ok w
  | fuel + 1, w, n =>
    if w.found.contains n then .ok w
    else if (g.targets n).contains n then .error n
    else do
      let w' ← (g.targets n).foldlM (visit g fuel) { w with found := n :: w.found }
      pure { w' with finished := n :: w'.finished }

/-- The nodes, those left behind last first. -/
def order (g : Graph) : Except String (List String) := do
  let w ← g.nodes.foldlM (visit g (g.nodes.length + 1)) {}
  pure w.finished

/-- The source of the edge that was drawn first of those to the first node of a list to which an edge
leads back, `before` being what stands in front. -/
def backEdge? (g : Graph) (before : List String) : List String → Option String
  | [] => none
  | n :: rest =>
    match g.sources.find? fun m => !(n :: before).contains m && (g.targets m).contains n with
    | some m => some m
    | none => backEdge? g (n :: before) rest

/-- A node on a cycle, if there is a cycle. -/
def cyclic? (g : Graph) : Option String :=
  match order g with
  | .error n => some n
  | .ok ns => backEdge? g [] ns

end MetricLayer.Cycle
