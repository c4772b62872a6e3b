import MetricLayer.Digest.Sha256
import MetricLayer.Json.Printer
import MetricLayer.Report.Wire

/-!
# Keys of stored translations

The key of a report covers what decides its statement: names, fields, operators, values, days. The
phrases of the request are left out, so requests that mean the same share a translation. The scope
names the definitions that the statement depends on besides the report.
-/

namespace MetricLayer

namespace ReportFilter

/-- The aggregation of the metric, if the filter looks at one. -/
def aggregation? (f : ReportFilter) : Option Aggregation :=
  match f.target with
  | .metric m => some m.aggregation
  | .column _ => none

end ReportFilter

namespace Report

open Json (ofList ofOption)

/-- The tree that the key of a report is the digest of. -/
def keyTree (r : Report) (scope : String) : Json :=
  let metric (m : ReportMetric) : Json :=
    .obj [("name", .str m.name), ("field", ofOption Field.toJson m.field),
      ("aggregation", .str m.aggregation.name), ("hidden", .bool m.hidden)]
  let dimension (d : ReportDimension) : Json :=
    .obj [("name", .str d.name), ("field", d.field.toJson),
      ("grain", ofOption (fun g => .str g.name) d.grain)]
  let filter (f : ReportFilter) : Json :=
    .obj [("target", .str f.targetKey),
      ("aggregation", ofOption (fun a => .str a.name) f.aggregation?),
      ("operator", .str f.operator.name), ("negated", .bool f.negated),
      ("values", ofList Literal.toJson f.values)]
  let sort (s : ReportSort) : Json := .arr [s.target.toJson, .str s.direction.name]
  .obj [("scope", .str scope), ("metrics", ofList metric r.metrics),
    ("dimensions", ofList dimension r.dimensions), ("filters", ofList filter r.filters),
    ("sort", ofOption sort r.sort), ("limit", ofOption .ofNat r.limit),
    ("time_range", ofOption DayRange.toJson r.timeRange),
    ("comparisons", ofList (fun c => .str c.name) r.comparisons)]

/-- The key of a report. -/
def key (r : Report) (scope : String) : String := Sha256.digest (r.keyTree scope).render

end Report

end MetricLayer
