import MetricLayer.Json.Decode
import MetricLayer.Report.Basic
import MetricLayer.Schema.Wire

/-!
# Reports as data trees

A report is only handed out. The members stand in a fixed order.
-/

namespace MetricLayer

open Json (ofList ofOption)

/-- The word for the operation. -/
def ArithOp.name : ArithOp → String
  | add => "add"
  | sub => "sub"
  | mul => "mul"
  | div => "div"

/-- A formula as a tree of its parts. -/
def Formula.toJson : Formula → Json
  | metric name => .obj [("metric", .str name)]
  | number x => .obj [("number", .float x)]
  | group inner => .obj [("group", inner.toJson)]
  | binary left op right =>
    .obj [("binary", .obj [("left", left.toJson), ("op", .str op.name), ("right", right.toJson)])]

/-- A literal as a bare value. -/
def Literal.toJson : Literal → Json
  | text s => .str s
  | int n => .int n
  | decimal x => .float x
  | bool b => .bool b
  | date d => .str d.text
  | moment t => .str t.wire

/-- A range of days. -/
def DayRange.toJson (r : DayRange) : Json :=
  .obj [("start", .str r.start.text), ("end", .str r.stop.text)]

/-- A metric of a report. -/
def ReportMetric.toJson (m : ReportMetric) : Json :=
  .obj [("term", .str m.term), ("name", .str m.name), ("field", ofOption Field.toJson m.field),
    ("aggregation", .str m.aggregation.name), ("data_type", .str m.type.name),
    ("formula", ofOption Formula.toJson m.formula), ("is_part_of_calculation", .bool m.hidden)]

/-- A dimension of a report. -/
def ReportDimension.toJson (d : ReportDimension) : Json :=
  .obj [("term", .str d.term), ("name", .str d.name), ("field", d.field.toJson),
    ("grain", ofOption (fun g => .str g.name) d.grain), ("is_date", .bool d.isDate)]

/-- The target of a filter under the word for its kind. -/
def FilterTarget.toJson : FilterTarget → Json
  | column f => .obj [("column", f.toJson)]
  | metric m => .obj [("metric", m.toJson)]

/-- A filter of a report. -/
def ReportFilter.toJson (f : ReportFilter) : Json :=
  .obj [("term", .str f.term), ("target", f.target.toJson), ("data_type", .str f.type.name),
    ("operator", .str f.operator.name), ("values", ofList Literal.toJson f.values),
    ("negated", .bool f.negated)]

/-- The target of a sort under the word for its kind. -/
def SortTarget.toJson : SortTarget → Json
  | metric name => .obj [("metric", .str name)]
  | dimension name => .obj [("dimension", .str name)]

/-- The sort of a report. -/
def ReportSort.toJson (s : ReportSort) : Json :=
  .obj [("term", .str s.term), ("target", s.target.toJson), ("direction", .str s.direction.name)]

/-- A report. -/
def Report.toJson (r : Report) : Json :=
  .obj [("metrics", ofList ReportMetric.toJson r.metrics),
    ("dimensions", ofList ReportDimension.toJson r.dimensions),
    ("filters", ofList ReportFilter.toJson r.filters), ("sort", ofOption ReportSort.toJson r.sort),
    ("limit", ofOption .ofNat r.limit), ("time_range", ofOption DayRange.toJson r.timeRange),
    ("comparisons", ofList (fun c => .str c.name) r.comparisons)]

end MetricLayer
