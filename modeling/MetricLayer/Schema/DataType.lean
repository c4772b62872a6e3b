import MetricLayer.Text.Blank
import MetricLayer.Text.Casing

/-!
# Column types

The logical type of a column. The words of many databases are understood; a word that is not, stands
for the unknown type.
-/

namespace MetricLayer

/-- The logical type of a column. -/
inductive DataType where
  | string
  | integer
  | decimal
  | boolean
  | date
  | timestamp
  | unknown
  deriving DecidableEq, Repr

namespace DataType

/-- The type that a word in lower case, without its arguments, names. -/
def ofWord (word : String) : DataType :=
  if ["string", "text", "varchar", "nvarchar", "char", "nchar", "uuid",
      "uniqueidentifier"].contains word then string
  else if ["integer", "int", "bigint", "smallint", "tinyint"].contains word then integer
  else if ["decimal", "numeric", "money", "float", "real", "double",
      "currency"].contains word then decimal
  else if ["boolean", "bool", "bit"].contains word then boolean
  else if word = "date" then date
  else if ["timestamp", "datetime", "datetime2", "datetimeoffset",
      "timestamptz"].contains word then timestamp
  else unknown

/-- The type that a type name, such as `nvarchar(50)`, names. -/
def ofText (text : String) : DataType :=
  let name := (Text.lower (Text.trim text)).toList.takeWhile (· ≠ '(')
  ofWord (Text.trim (String.ofList name))

/-- The word for the type. -/
def name : DataType → String
  | string => "string"
  | integer => "integer"
  | decimal => "decimal"
  | boolean => "boolean"
  | date => "date"
  | timestamp => "timestamp"
  | unknown => "unknown"

/-- The values of the type are days or moments. -/
def isTemporal : DataType → Bool
  | date | timestamp => true
  | _ => false

end DataType

end MetricLayer
