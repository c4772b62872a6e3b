import MetricLayer.Request.Basic
import MetricLayer.Schema.Field
import MetricLayer.Schema.Literal
import MetricLayer.Vocabulary.Formula

/-!
# Reports

A report is a request whose words have been resolved to entries of the dictionary and fields of the
schema. Metrics and dimensions stand in the order of their names, so the order in which they were
mentioned makes no difference.
-/

namespace MetricLayer

/-- A metric of a report. -/
structure ReportMetric where
  /-- The phrase as it was written. -/
  term : String
  /-- The name in the dictionary, under which the metric is shown. -/
  name : String
  field : Option Field
  aggregation : Aggregation
  type : DataType
  /-- The formula of a calculated metric, over the names of other metrics. -/
  formula : Option Formula
  /-- The metric is only there because another one is calculated from it. -/
  hidden : Bool
  deriving DecidableEq, Repr

namespace ReportMetric

/-- The metric has a formula. -/
def isCalculated (m : ReportMetric) : Bool := m.formula.isSome

end ReportMetric

/-- A dimension of a report. -/
structure ReportDimension where
  term : String
  name : String
  field : Field
  grain : Option TimeUnit
  isDate : Bool
  deriving DecidableEq, Repr

/-- What a filter looks at: a column of the rows, or a metric of the groups. -/
inductive FilterTarget where
  | column (f : Field)
  | metric (m : ReportMetric)
  deriving DecidableEq, Repr

/-- A filter of a report. -/
structure ReportFilter where
  term : String
  target : FilterTarget
  type : DataType
  operator : Operator
  values : List Literal
  negated : Bool
  deriving DecidableEq, Repr

namespace ReportFilter

/-- The column, if the filter looks at one. -/
def column? (f : ReportFilter) : Option Field :=
  match f.target with
  | .column c => some c
  | .metric _ => none

/-- The text that stands for the target: a field, or the name of a metric. -/
def targetKey (f : ReportFilter) : String :=
  match f.target with
  | .column c => c.text
  | .metric m => m.name

end ReportFilter

/-- What a report is sorted by, by name. -/
inductive SortTarget where
  | metric (name : String)
  | dimension (name : String)
  deriving DecidableEq, Repr

/-- The name of the metric or dimension. -/
def SortTarget.name : SortTarget → String
  | metric name => name
  | dimension name => name

/-- The sort of a report. -/
structure ReportSort where
  term : String
  target : SortTarget
  direction : Direction
  deriving DecidableEq, Repr

/-- A request that has been resolved. -/
structure Report where
  metrics : List ReportMetric := []
  dimensions : List ReportDimension := []
  filters : List ReportFilter := []
  sort : Option ReportSort := none
  limit : Option Nat := none
  timeRange : Option DayRange := none
  comparisons : List Comparison := []
  deriving DecidableEq, Repr

namespace Report

/-- The metrics that are shown. -/
def visibleMetrics (r : Report) : List ReportMetric := r.metrics.filter (!·.hidden)

/-- The metric of the name. -/
def metric? (r : Report) (name : String) : Option ReportMetric := r.metrics.find? (·.name = name)

/-- The dimension of the name. -/
def dimension? (r : Report) (name : String) : Option ReportDimension :=
  r.dimensions.find? (·.name = name)

/-- The report shows nothing. -/
def isEmpty (r : Report) : Bool := r.visibleMetrics.isEmpty && r.dimensions.isEmpty

end Report

end MetricLayer
