import MetricLayer.Decimal.Width
import MetricLayer.Json.Basic

/-!
# Decoding data trees

A decoder gives the value that a tree stands for, or nothing. A record is read from an object by
the names of its fields, or from an array by their places. A field that may be left out keeps its
default only when it is absent; `null` is a value like any other, which most decoders refuse. What
can stand in data and in documents is decoded with the `Rigor` that its notation asks for.
-/

namespace MetricLayer.Json

/-- How closely a tree has to keep to the shape of what it stands for. -/
inductive Rigor where
  /-- Nothing may be left over. -/
  | strict
  /-- A record given by places may go on behind its last place, and a word may be the name of an
  empty object or an empty list. Documents, which know no `null`, are decoded this way. -/
  | loose
  deriving DecidableEq, Repr

/-- A text. -/
def asText? : Json → Option String
  | str s => some s
  | _ => none

/-- A truth value. -/
def asBool? : Json → Option Bool
  | bool b => some b
  | _ => none

/-- A number, whole or not. A whole one fits 64 bits, with or without a sign. -/
def asFloat? : Json → Option Float
  | int n =>
    if -(bitValues 63 : Int) ≤ n ∧ n < bitValues 64 then some (Float.ofInt n) else none
  | float x => some x
  | _ => none

/-- A whole number in a range. -/
def asIntBetween? (low high : Int) : Json → Option Int
  | int n => if low ≤ n ∧ n ≤ high then some n else none
  | _ => none

/-- A whole number from 0 below a bound. -/
def asNatBelow? (bound : Nat) : Json → Option Nat
  | int n => if 0 ≤ n ∧ n < bound then some n.toNat else none
  | _ => none

/-- A list, every item of which decodes. -/
def asList? {α : Type} (item : Json → Option α) : Json → Option (List α)
  | arr items => items.mapM item
  | _ => none

/-- An object as names with values, every value of which decodes. -/
def asMap? {α : Type} (value : Json → Option α) : Json → Option (List (String × α))
  | obj members => members.mapM fun (k, v) => (value v).map (k, ·)
  | _ => none

/-- A value that may be `null`. -/
def asOption? {α : Type} (value : Json → Option α) : Json → Option (Option α)
  | null => some none
  | j => (value j).map some

/-- The value says nothing about the word that it belongs to. -/
def isVoid (rigor : Rigor) : Json → Bool
  | null => true
  | obj [] => rigor = .loose
  | arr [] => rigor = .loose
  | _ => false

/-- One of a fixed set of words, alone or as the only member of an object with a void value. -/
def asWord? {α : Type} (rigor : Rigor) (read : String → Option α) : Json → Option α
  | str s => read s
  | obj [(s, j)] => if j.isVoid rigor then read s else none
  | _ => none

/-- The fields of a record. -/
structure Fields where
  /-- The tree given for a field. -/
  get? : String → Option Json
  /-- The fields were given by their places. -/
  byPlace : Bool

namespace Fields

/-- The field must be present. -/
def required {α : Type} (fs : Fields) (name : String) (value : Json → Option α) : Option α :=
  (fs.get? name).bind value

/-- The field has a default if it is absent. -/
def defaulted {α : Type} (fs : Fields) (name : String) (dflt : α) (value : Json → Option α) :
    Option α :=
  match fs.get? name with
  | none => some dflt
  | some j => value j

/-- The field may be absent or `null`. Given by places, it must have its place. -/
def optional {α : Type} (fs : Fields) (name : String) (value : Json → Option α) :
    Option (Option α) :=
  match fs.get? name with
  | none => if fs.byPlace then none else some none
  | some j => asOption? value j

/-- The field may be absent or `null`, also when the fields are given by places. -/
def omissible {α : Type} (fs : Fields) (name : String) (value : Json → Option α) :
    Option (Option α) :=
  fs.defaulted name none (asOption? value)

end Fields

/-- The fields of the record that a tree stands for, the names being in the order of the places. -/
def fields? (rigor : Rigor) (names : List String) : Json → Option Fields
  | obj members => some ⟨fun name => members.lookup name, false⟩
  | arr items =>
    if items.length ≤ names.length ∨ rigor = .loose then
      some ⟨fun name => (names.zip items).lookup name, true⟩
    else none
  | _ => none

end MetricLayer.Json
