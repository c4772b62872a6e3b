/-!
# Data trees

The tree that requests, answers, stored definitions and settings are exchanged in. The members of
an object keep the order in which they were put; `sorted` arranges them by name. A whole number and
a decimal are different leaves, so `1` and `1.0` are different trees.
-/

namespace MetricLayer

/-- A data tree. -/
inductive Json where
  | null
  | bool (b : Bool)
  | int (n : Int)
  | float (x : Float)
  | str (s : String)
  | arr (items : List Json)
  | obj (members : List (String × Json))
  deriving Repr, Inhabited

namespace Json

/-- The list of pairs with the value of one name set; the last value given to a name counts. -/
def put (name : String) (value : Json) : List (String × Json) → List (String × Json)
  | [] => [(name, value)]
  | (k, v) :: rest => if k = name then (k, value) :: rest else (k, v) :: put name value rest

/-- The pair inserted into pairs sorted by name. -/
def insertSorted (name : String) (value : Json) : List (String × Json) → List (String × Json)
  | [] => [(name, value)]
  | (k, v) :: rest =>
    if name < k then (name, value) :: (k, v) :: rest
    else if name = k then (name, value) :: rest
    else (k, v) :: insertSorted name value rest

mutual

/-- The tree with the members of every object sorted by name. -/
def sorted : Json → Json
  | arr items => arr (sortedItems items)
  | obj members => obj ((sortedMembers members).foldl (fun acc kv => insertSorted kv.1 kv.2 acc) [])
  | leaf => leaf

def sortedItems : List Json → List Json
  | [] => []
  | x :: xs => x.sorted :: sortedItems xs

def sortedMembers : List (String × Json) → List (String × Json)
  | [] => []
  | (k, v) :: rest => (k, v.sorted) :: sortedMembers rest

end

/-- The value of a member. -/
def get? : Json → String → Option Json
  | obj members, name => members.lookup name
  | _, _ => none

/-- The value of a member, `null` if it is absent. -/
def getD (j : Json) (name : String) : Json := (j.get? name).getD null

/-- The tree is `null`. -/
def isNull : Json → Bool
  | null => true
  | _ => false

/-- The items of a list, each written by `f`. -/
def ofList {α : Type} (f : α → Json) (xs : List α) : Json := arr (xs.map f)

/-- An optional value, `null` if it is absent. -/
def ofOption {α : Type} (f : α → Json) : Option α → Json
  | none => null
  | some x => f x

/-- A whole number that counts something. -/
def ofNat (n : Nat) : Json := int n

/-- The members of an object without one of them. -/
def erase (name : String) : Json → Json
  | obj members => obj (members.filter (·.1 != name))
  | j => j

end Json

end MetricLayer
