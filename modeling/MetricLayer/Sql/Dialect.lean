import MetricLayer.Calendar.DayRange
import MetricLayer.Text.Casing

/-!
# Query dialects

What differs between the databases that queries are written for: the quotes around names, the marks
for parameters, where the row limit stands and how a part of a date is taken. Inside a quoted name
the closing quote is written twice.
-/

namespace MetricLayer

/-- A database's way of writing queries. -/
inductive Dialect where
  | postgres
  | duckDb
  | tSql
  deriving DecidableEq, Repr

namespace TimeUnit

/-- The unit's keyword in a query. -/
def keyword : TimeUnit → String
  | day => "DAY"
  | week => "WEEK"
  | month => "MONTH"
  | quarter => "QUARTER"
  | year => "YEAR"

end TimeUnit

namespace Dialect

/-- The word for the dialect. -/
def name : Dialect → String
  | postgres => "postgres"
  | duckDb => "duckdb"
  | tSql => "tsql"

/-- The dialect of a word on the wire. -/
def ofName? : String → Option Dialect
  | "postgres" => some postgres
  | "duckdb" => some duckDb
  | "tsql" => some tSql
  | _ => none

/-- The dialect of a database's name in lower case. -/
def ofWord? : String → Option Dialect
  | "postgres" | "postgresql" | "pg" => some postgres
  | "duckdb" => some duckDb
  | "tsql" | "mssql" | "sqlserver" => some tSql
  | _ => none

/-- The dialect of a database's name, or the name in lower case if there is none. -/
def ofText (s : String) : Except String Dialect :=
  match ofWord? (Text.lower s) with
  | some d => .ok d
  | none => .error (Text.lower s)

/-- The text for a name that is no dialect. -/
def unknownMessage (name : String) : String := "unknown dialect: " ++ name

/-- The quote in front of a name. -/
def openQuote : Dialect → Char
  | tSql => '['
  | _ => '"'

/-- The quote behind a name. -/
def closeQuote : Dialect → Char
  | tSql => ']'
  | _ => '"'

/-- The characters with every closing quote written twice. -/
def doubled (close : Char) (cs : List Char) : List Char :=
  cs.flatMap fun c => if c = close then [c, c] else [c]

/-- The name in quotes. -/
def quote (d : Dialect) (name : String) : String :=
  String.ofList (d.openQuote :: doubled d.closeQuote name.toList ++ [d.closeQuote])

/-- The mark for the parameter with the number, counted from 1. -/
def placeholder (d : Dialect) (n : Nat) : String :=
  match d with
  | tSql => "@p" ++ toString n
  | _ => "$" ++ toString n

/-- The row limit stands in front of the columns and not at the end. -/
def usesTop : Dialect → Bool
  | tSql => true
  | _ => false

/-- What stands in front of and behind a date of which a part is taken. -/
def datePartWords (d : Dialect) (unit : TimeUnit) : String × String :=
  match d with
  | tSql => ("DATEPART(" ++ unit.name ++ ", ", ")")
  | _ => ("EXTRACT(" ++ unit.keyword ++ " FROM ", ")")

/-- A part of a written date. -/
def datePart (d : Dialect) (unit : TimeUnit) (date : String) : String :=
  (d.datePartWords unit).1 ++ date ++ (d.datePartWords unit).2

end Dialect

end MetricLayer
