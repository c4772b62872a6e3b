import MetricLayer.Calendar.Date
import MetricLayer.Decimal.Reader
import MetricLayer.Json.Basic

/-!
# Moments in documents

A document may hold days, times of day, and both together with or without an offset from universal
time. No setting and no definition takes such a value, so of its parts only the text is kept.
-/

namespace MetricLayer.Toml

/-- A number of exactly so many digits that is at most `high`, and what follows it. -/
def readDigits? (count high : Nat) (cs : List Char) : Option (Nat × List Char) :=
  let ds := cs.take count
  let n := Decimal.ofDigits ds
  if ds.length = count && ds.all Char.isDigit && n ≤ high then some (n, cs.drop count) else none

/-- The characters behind a given one. -/
def skipChar? (c : Char) : List Char → Option (List Char)
  | d :: cs => if c = d then some cs else none
  | [] => none

/-- The characters behind a day. -/
def skipDay? (cs : List Char) : Option (List Char) := do
  let (year, cs) ← readDigits? 4 9999 cs
  let (month, cs) ← readDigits? 2 12 (← skipChar? '-' cs)
  let (day, cs) ← readDigits? 2 31 (← skipChar? '-' cs)
  (Date.ofCivil? year month day).map fun _ => cs

/-- The characters behind a fraction of a second, if there is one. -/
def skipFraction? : List Char → Option (List Char)
  | '.' :: cs => if cs.head?.any Char.isDigit then some (cs.dropWhile Char.isDigit) else none
  | cs => some cs

/-- The characters behind the seconds of a time of day, if they are given. The last second of a day
may be a leap second. -/
def skipSeconds? : List Char → Option (List Char)
  | ':' :: cs => (readDigits? 2 60 cs).bind fun (_, cs) => skipFraction? cs
  | cs => some cs

/-- The characters behind a time of day. -/
def skipTime? (cs : List Char) : Option (List Char) := do
  let (_, cs) ← readDigits? 2 23 cs
  let (_, cs) ← readDigits? 2 59 (← skipChar? ':' cs)
  skipSeconds? cs

/-- The characters behind an offset from universal time, if there is one. -/
def skipOffset? (cs : List Char) : Option (List Char) :=
  match cs with
  | 'Z' :: cs => some cs
  | 'z' :: cs => some cs
  | c :: r =>
    if c = '+' ∨ c = '-' then do
      let (_, r) ← readDigits? 2 23 r
      let (_, r) ← readDigits? 2 59 (← skipChar? ':' r)
      pure r
    else some cs
  | [] => some []

/-- The characters behind the time that belongs to a day, if there is one. -/
def skipTimeOfDay? (cs : List Char) : Option (List Char) :=
  match cs with
  | c :: d :: r =>
    if c = 'T' ∨ c = 't' ∨ (c = ' ' ∧ d.isDigit) then (skipTime? (d :: r)).bind skipOffset?
    else some cs
  | cs => some cs

/-- The characters behind a moment. -/
def skipMoment? (cs : List Char) : Option (List Char) :=
  match skipDay? cs with
  | some r => skipTimeOfDay? r
  | none => skipTime? cs

/-- A moment as a record of its text, under a name that no other record has. -/
def momentValue (text : List Char) : Json := .obj [("date and time", .str (String.ofList text))]

/-- A moment and what follows it. -/
def readMoment? (cs : List Char) : Option (Json × List Char) :=
  (skipMoment? cs).map fun r => (momentValue (cs.take (cs.length - r.length)), r)

end MetricLayer.Toml
