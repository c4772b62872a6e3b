import MetricLayer.Calendar.Date
import MetricLayer.Decimal.Reader
import MetricLayer.Text.Blank

/-!
# Days and times of day as text

A written form is a list of parts: numbers, fixed characters and gaps. Every number may have blanks
in front of it. A year without a sign has at most four digits, and with a sign any number of them;
the other numbers have one or two digits.
-/

namespace MetricLayer

/-- A moment without a time zone, to the nanosecond. The second 60 is a leap second. -/
structure Timestamp where
  date : Date
  hour : Nat
  minute : Nat
  second : Nat
  nano : Nat
  deriving DecidableEq, Repr

namespace Timestamp

/-- The first moment of a day. -/
def midnight (d : Date) : Timestamp := ⟨d, 0, 0, 0, 0⟩

/-- The moment exists: a leap second may end any minute. -/
def ofParts? (d : Date) (hour minute second nano : Nat) : Option Timestamp :=
  if hour < 24 ∧ minute < 60 ∧ second ≤ 60 ∧ nano < digitValues 9 then
    some ⟨d, hour, minute, second, nano⟩
  else none

end Timestamp

namespace DateText

/-- The numbers a written form is made of. -/
inductive Field where
  | year
  | month
  | day
  | hour
  | minute
  | second
  deriving DecidableEq, Repr

/-- A part of a written form. -/
inductive Part where
  | number (f : Field)
  | char (c : Char)
  | gap
  | fraction
  deriving DecidableEq, Repr

/-- The numbers read so far. -/
structure Parts where
  year : Int := 0
  month : Nat := 0
  day : Nat := 0
  hour : Nat := 0
  minute : Nat := 0
  second : Nat := 0
  nano : Nat := 0
  deriving DecidableEq, Repr

/-- The leading digits, at most `limit` of them if there is a limit; at least one is needed. -/
def readDigits? (limit : Option Nat) (cs : List Char) : Option (Nat × List Char) :=
  let run := cs.takeWhile Char.isDigit
  let taken := match limit with
    | some n => run.take n
    | none => run
  if taken.isEmpty then none
  else some (Decimal.ofDigits taken, cs.drop taken.length)

/-- A number of a written form, with the blanks in front of it. -/
def Field.read? (f : Field) (ps : Parts) (cs : List Char) : Option (Parts × List Char) :=
  let cs := cs.dropWhile Text.isBlank
  match f with
  | .year => match cs with
    | '-' :: r => (readDigits? none r).map fun (n, r) => ({ ps with year := -n }, r)
    | '+' :: r => (readDigits? none r).map fun (n, r) => ({ ps with year := n }, r)
    | r => (readDigits? (some 4) r).map fun (n, r) => ({ ps with year := n }, r)
  | .month => (readDigits? (some 2) cs).map fun (n, r) => ({ ps with month := n }, r)
  | .day => (readDigits? (some 2) cs).map fun (n, r) => ({ ps with day := n }, r)
  | .hour => (readDigits? (some 2) cs).map fun (n, r) => ({ ps with hour := n }, r)
  | .minute => (readDigits? (some 2) cs).map fun (n, r) => ({ ps with minute := n }, r)
  | .second => (readDigits? (some 2) cs).map fun (n, r) => ({ ps with second := n }, r)

/-- The nanoseconds that the digits after a point stand for; those after the ninth do not count. -/
def nanosOf (ds : List Char) : Nat :=
  let first := ds.take 9
  Decimal.ofDigits first * digitValues (9 - first.length)

/-- One part of a written form. -/
def Part.read? (p : Part) (ps : Parts) (cs : List Char) : Option (Parts × List Char) :=
  match p with
  | .number f => f.read? ps cs
  | .char c => match cs with
    | d :: r => if c = d then some (ps, r) else none
    | [] => none
  | .gap => some (ps, cs.dropWhile Text.isBlank)
  | .fraction => match cs with
    | '.' :: r =>
      let ds := r.takeWhile Char.isDigit
      if ds.isEmpty then none else some ({ ps with nano := nanosOf ds }, r.dropWhile Char.isDigit)
    | r => some (ps, r)

/-- All parts of a written form, one after the other. -/
def readParts? : List Part → Parts → List Char → Option (Parts × List Char)
  | [], ps, cs => some (ps, cs)
  | p :: rest, ps, cs => (p.read? ps cs).bind fun (ps, cs) => readParts? rest ps cs

/-- The numbers of a text that has the written form and nothing after it. -/
def readAll? (form : List Part) (s : String) : Option Parts :=
  match readParts? form {} s.toList with
  | some (ps, []) => some ps
  | _ => none

/-- The day of a text in a written form. -/
def readDate? (form : List Part) (s : String) : Option Date :=
  (readAll? form s).bind fun ps => Date.ofCivil? ps.year ps.month ps.day

/-- The moment of a text in a written form. -/
def readTimestamp? (form : List Part) (s : String) : Option Timestamp :=
  (readAll? form s).bind fun ps => (Date.ofCivil? ps.year ps.month ps.day).bind fun d =>
    Timestamp.ofParts? d ps.hour ps.minute ps.second ps.nano

/-- Three numbers with a character between each two. -/
def dateForm (a b c : Field) (separator : Char) : List Part :=
  [.number a, .char separator, .number b, .char separator, .number c]

/-- The wire form of a day: `year-month-day`, blanks allowed around the dashes and at the end. -/
def wireDate : List Part :=
  [.number .year, .gap, .char '-', .number .month, .gap, .char '-', .number .day, .gap]

/-- The wire form of a moment. -/
def wireTimestamp : List Part :=
  wireDate ++ [.char 'T', .number .hour, .gap, .char ':', .number .minute, .gap, .char ':',
    .number .second, .fraction, .gap]

/-- The digits of a number, with zeros in front up to a width. -/
def padded (width n : Nat) : String :=
  let ds := Nat.toDigits 10 n
  String.ofList (List.replicate (width - ds.length) '0' ++ ds)

/-- A year: four digits, and a sign outside 0 to 9999. -/
def writeYear (y : Int) : String :=
  if 0 ≤ y ∧ y ≤ 9999 then padded 4 y.toNat
  else (if y < 0 then "-" else "+") ++ padded 4 y.natAbs

/-- The text of the fraction of a second, in as many groups of three digits as it needs. -/
def fractionText (nano : Nat) : String :=
  if nano = 0 then ""
  else if nano % digitValues 6 = 0 then "." ++ padded 3 (nano / digitValues 6)
  else if nano % digitValues 3 = 0 then "." ++ padded 6 (nano / digitValues 3)
  else "." ++ padded 9 nano

end DateText

namespace Date

open DateText

/-- The text `year-month-day`. -/
def text (d : Date) : String :=
  writeYear d.year ++ "-" ++ padded 2 d.month ++ "-" ++ padded 2 d.day

/-- The day of a wire text. -/
def ofWire? (s : String) : Option Date := readDate? wireDate s

end Date

namespace Timestamp

open DateText

/-- The time of day to the second. -/
def timeText (t : Timestamp) : String :=
  padded 2 t.hour ++ ":" ++ padded 2 t.minute ++ ":" ++ padded 2 t.second

/-- The text to the second, with a blank between day and time. -/
def text (t : Timestamp) : String := t.date.text ++ " " ++ t.timeText

/-- The wire text. -/
def wire (t : Timestamp) : String := t.date.text ++ "T" ++ t.timeText ++ fractionText t.nano

/-- The moment of a wire text. -/
def ofWire? (s : String) : Option Timestamp := readTimestamp? wireTimestamp s

end Timestamp

end MetricLayer
