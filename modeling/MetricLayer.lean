import MetricLayer.CommandLine.FileTree
import MetricLayer.Main
import MetricLayer.Store.Wire
import MetricLayer.Proofs.Store.Entries
import MetricLayer.Proofs.Store.Flights
import MetricLayer.Proofs.Store.Singleflight
import MetricLayer.Proofs.Sql.Reading
import MetricLayer.Proofs.Sql.Written
import MetricLayer.Proofs.Report.Draft
import MetricLayer.Proofs.Report.Mapping
import MetricLayer.Proofs.Sql.Answers
import MetricLayer.Proofs.Sql.Database
import MetricLayer.Proofs.Sql.Regrouping
import MetricLayer.Proofs.Sql.Renaming
import MetricLayer.Proofs.Translation.Metric
import MetricLayer.Proofs.Translation.MetricText
import MetricLayer.Proofs.Translation.OptimizedAnswers
import MetricLayer.Proofs.Calendar.DateText
import MetricLayer.Proofs.Decimal.Shortest
import MetricLayer.Proofs.Decimal.Wire
import MetricLayer.Proofs.Json.Printer
import MetricLayer.Proofs.Schema.Wire
import MetricLayer.Proofs.Store.Arrivals
import MetricLayer.Proofs.Store.Key
import MetricLayer.Proofs.Report.Resolved
import MetricLayer.Proofs.Schema.Graph
import MetricLayer.Proofs.Translation.JoinPlan
import MetricLayer.Proofs.Translation.QueryParts
import MetricLayer.Proofs.Translation.Resolved
import MetricLayer.Proofs.Translation.Scope
import MetricLayer.Proofs.Sql.Values
import MetricLayer.Proofs.Translation.Values
import MetricLayer.Proofs.Translation.Reordered
import MetricLayer.Proofs.Clarification.ValueAnswers
import MetricLayer.Proofs.Service.Transparent
import MetricLayer.Proofs.Sql.Quoting
import MetricLayer.Proofs.Translation.SchemaOrder
import MetricLayer.Proofs.Report.Kept
import MetricLayer.Proofs.Report.Mentioned
import MetricLayer.Proofs.Clarification.Refused
import MetricLayer.Proofs.Clarification.Decided
import MetricLayer.Proofs.Clarification.Overruled
import MetricLayer.Proofs.Translation.Told
import MetricLayer.Proofs.Translation.Connected
import MetricLayer.Proofs.Translation.Calculated
import MetricLayer.Proofs.Clarification.Offered
import MetricLayer.Proofs.Schema.Orientation
import MetricLayer.Proofs.Translation.Forest
import MetricLayer.Proofs.Translation.Optimized
import MetricLayer.Proofs.Translation.Grouping
import MetricLayer.Proofs.Sql.LikePattern
import MetricLayer.Proofs.Translation.TextFilters
import MetricLayer.Proofs.Translation.Comparisons
import MetricLayer.Proofs.Calendar.Number
import MetricLayer.Proofs.Calendar.Periods
import MetricLayer.Proofs.Calendar.Shifts
import MetricLayer.Proofs.Translation.KeptDays
import MetricLayer.Proofs.Store.Expiring
import MetricLayer.Proofs.Translation.Expansion
import MetricLayer.Proofs.Report.Unambiguous
import MetricLayer.Proofs.Sql.Truth
import MetricLayer.Proofs.Report.Targets
import MetricLayer.Proofs.Translation.Exclusive
import MetricLayer.Proofs.Pattern.Pieces
import MetricLayer.Proofs.Pattern.Scan
import MetricLayer.Proofs.Text.Words
import MetricLayer.Proofs.Question.Loops
import MetricLayer.Proofs.Question.Termination
import MetricLayer.Proofs.Question.Conditions
import MetricLayer.Proofs.Question.ValueList
import MetricLayer.Proofs.Question.Values
import MetricLayer.Proofs.Json.Decode
import MetricLayer.Proofs.Request.Wire
