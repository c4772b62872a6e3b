/-!
# States of a request under clarification

A mapped request is resolved if no conflict is open, and otherwise needs clarification. Answers make
it a clarified request, which is mapped again.
-/

namespace MetricLayer

/-- Where a request stands. -/
inductive ClarificationState where
  | mapped
  | needsClarification
  | clarified
  | resolved
  | failed
  deriving DecidableEq, Repr

namespace ClarificationState

/-- The word for the state. -/
def name : ClarificationState → String
  | mapped => "mapped"
  | needsClarification => "needs_clarification"
  | clarified => "clarified"
  | resolved => "resolved"
  | failed => "failed"

/-- The state of a word on the wire. -/
def ofName? : String → Option ClarificationState
  | "mapped" => some mapped
  | "needs_clarification" => some needsClarification
  | "clarified" => some clarified
  | "resolved" => some resolved
  | "failed" => some failed
  | _ => none

/-- The state after the request is mapped. -/
def advance (hasConflicts : Bool) : ClarificationState → ClarificationState
  | mapped | clarified => if hasConflicts then needsClarification else resolved
  | s => s

/-- The state after answers arrive. -/
def answer : ClarificationState → ClarificationState
  | needsClarification | mapped => clarified
  | s => s

/-- Nothing changes the state any more. -/
def isTerminal : ClarificationState → Bool
  | resolved | failed => true
  | _ => false

theorem answer_of_isTerminal {s : ClarificationState} (h : s.isTerminal = true) : s.answer = s := by
  cases s <;> simp_all [isTerminal, answer]

theorem advance_of_isTerminal {s : ClarificationState} {b : Bool} (h : s.isTerminal = true) :
    s.advance b = s := by
  cases s <;> simp_all [isTerminal, advance]

end ClarificationState

end MetricLayer
