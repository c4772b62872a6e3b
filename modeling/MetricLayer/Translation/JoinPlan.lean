import MetricLayer.Schema.Graph
import MetricLayer.Text.Order
import MetricLayer.Translation.Error

/-!
# Join plans

A plan joins all tables that a report needs to one of them, the anchor. The tables are taken in the
order of their names, and each is reached by the best shortest path from the anchor; joins to tables
that are joined already are left out.
-/

namespace MetricLayer

/-- The columns that are needed of each table, tables and columns in the order of their names. -/
abbrev NeededColumns := List (String × List String)

namespace NeededColumns

/-- Adds a column of a table. -/
def add (table column : String) : NeededColumns → NeededColumns
  | [] => [(table, [column])]
  | (t, columns) :: rest =>
    if table = t then (t, Text.insertSorted column columns) :: rest
    else if table < t then (table, [column]) :: (t, columns) :: rest
    else (t, columns) :: add table column rest

/-- The tables. -/
def tables (needed : NeededColumns) : List String := needed.map (·.1)

/-- The fields as needed columns. -/
def ofFields (fs : List Field) : NeededColumns := fs.foldl (fun n f => add f.table f.column n) []

end NeededColumns

/-- A table and the joins that bring in all others. -/
structure JoinPlan where
  anchor : String
  steps : List JoinStep
  deriving DecidableEq, Repr

namespace JoinPlan

/-- The tables in the order in which they are joined. -/
def tables (p : JoinPlan) : List String := p.anchor :: p.steps.map (·.toTable)

end JoinPlan

/-- How joins are planned. -/
structure JoinRule where
  tieBreak : TieBreak
  /-- The greatest number of joins between the anchor and another table. -/
  maxDepth : Nat
  deriving DecidableEq, Repr

/-- The first entry with the most columns. -/
def mostColumns : NeededColumns → Option (String × List String)
  | [] => none
  | x :: xs =>
    some (xs.foldl (fun best y => if best.2.length < y.2.length then y else best) x)

namespace Schema

/-- The table that a plan starts from: the one with the most needed columns among the tables of
events, or among all tables if there are none. -/
def anchor? (s : Schema) (needed : NeededColumns) : Option String :=
  ((mostColumns (needed.filter fun n => (s.table? n.1).any (·.isFact))).or
    (mostColumns needed)).map (·.1)

/-- The steps to tables that are not joined yet, and the joined names after them. -/
def newSteps (joined : List String) : List JoinStep → List JoinStep × List String
  | [] => ([], joined)
  | step :: steps =>
    if joined.contains step.toTable then newSteps joined steps
    else
      let (rest, joined) := newSteps (joined ++ [step.toTable]) steps
      (step :: rest, joined)

/-- The joins that bring in the targets one after the other. -/
def stepsTo (s : Schema) (rule : JoinRule) (anchor : String) :
    List String → List String → Except TranslationError (List JoinStep)
  | _, [] => .ok []
  | joined, target :: targets =>
    if joined.contains target then s.stepsTo rule anchor joined targets
    else
      match s.joinPath? rule.tieBreak joined rule.maxDepth anchor target with
      | none => .error (.noJoinPath anchor target)
      | some path =>
        let (steps, joined) := newSteps joined path
        (s.stepsTo rule anchor joined targets).map (steps ++ ·)

/-- The plan that joins all needed tables. -/
def joinPlan (s : Schema) (rule : JoinRule) (needed : NeededColumns) :
    Except TranslationError JoinPlan :=
  match s.anchor? needed with
  | none => .error .emptyProjection
  | some anchor =>
    (s.stepsTo rule anchor [anchor] needed.tables).map fun steps => ⟨anchor, steps⟩

end Schema

end MetricLayer
