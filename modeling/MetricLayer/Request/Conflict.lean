import MetricLayer.Request.Kind
import MetricLayer.Vocabulary.Term

/-!
# Conflicts

A conflict is a gap in a request that somebody has to fill before the request can be answered. Its
id follows from what it is about, so that it stays the same from one round of questions to the next.
-/

namespace MetricLayer

/-- What a conflict is about. -/
inductive ConflictKind where
  /-- Several entries fit, or the best one does not fit well. -/
  | ambiguous
  /-- Something that the request needs was never mentioned. -/
  | missingRequired
  /-- No entry fits. -/
  | unknown
  /-- Filters of one target exclude each other. -/
  | conflicting
  /-- A value does not suit its column or operator. -/
  | invalidValue
  deriving DecidableEq, Repr

namespace ConflictKind

/-- The word for the kind. -/
def name : ConflictKind → String
  | ambiguous => "ambiguous"
  | missingRequired => "missing_required"
  | unknown => "unknown"
  | conflicting => "conflicting"
  | invalidValue => "invalid_value"

/-- The kind of a word on the wire. -/
def ofName? : String → Option ConflictKind
  | "ambiguous" => some ambiguous
  | "missing_required" => some missingRequired
  | "unknown" => some unknown
  | "conflicting" => some conflicting
  | "invalid_value" => some invalidValue
  | _ => none

end ConflictKind

/-- A gap in a request. -/
structure Conflict where
  id : String
  kind : ConflictKind
  /-- The part of the request that the conflict belongs to. -/
  entity : EntityKind
  /-- The phrase as it was written. -/
  term : String
  message : String := ""
  suggestions : List String := []
  /-- The value that was refused. -/
  value : Option String := none
  /-- The conflict came with the request. -/
  reported : Bool := false
  deriving DecidableEq, Repr

namespace Conflict

/-- The id of a conflict: its kind, its part of the request, its term and the refused value. -/
def idOf (kind : ConflictKind) (entity : EntityKind) (term : String) (value : Option String) :
    String :=
  kind.name ++ "|" ++ entity.name ++ "|" ++ Term.ofPhrase term ++
    match value with
    | some v => "|" ++ Text.trim v
    | none => ""

/-- A conflict with the id that follows from the rest. -/
def make (kind : ConflictKind) (entity : EntityKind) (term message : String)
    (suggestions : List String) (value : Option String) : Conflict :=
  { id := idOf kind entity term value, kind, entity, term, message, suggestions, value }

/-- The conflict with a refused value. -/
def withValue (c : Conflict) (value : String) : Conflict :=
  { c with value := some value, id := idOf c.kind c.entity c.term (some value) }

/-- The conflict about another phrase. -/
def forTerm (c : Conflict) (term : String) : Conflict :=
  { c with term, id := idOf c.kind c.entity term c.value }

/-- The conflict with an id, if it has none yet. -/
def ensureId (c : Conflict) : Conflict :=
  if c.id.isEmpty then { c with id := idOf c.kind c.entity c.term c.value } else c

/-- The list with the conflict at its end, unless its id is there already. -/
def insert (c : Conflict) (cs : List Conflict) : List Conflict :=
  if cs.any (·.id = c.id) then cs else cs ++ [c]

end Conflict

end MetricLayer
