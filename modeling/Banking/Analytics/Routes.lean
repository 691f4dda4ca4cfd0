import Banking.Workers.Analytics
import Mathlib.Data.List.Sort

/-!
# The analytics route

`GET /analytics` of `analytics.routes.ts`, which shows the newest metrics to administrators. When a
metric was last updated is left out.
-/

namespace Banking.Analytics

/-- A line of the answer; `analytics.routes.ts:15–22`. -/
structure ReportedMetric where
  bucketStart : String
  completedCount : Int
  completedAmountMinor : String
  finalizedCount : Int
  finalizedAmountMinor : String
  deriving DecidableEq

/-- `analyticsMetric.findMany({ orderBy: { bucketStart: 'desc' }, take: 24 })`;
`analytics.routes.ts:9–12`. -/
def findMetrics (db : Database) : List AnalyticsMetric :=
  (db.analyticsMetrics.rows.insertionSort
    (fun left right ↦ right.bucketStart ≤ left.bucketStart)).take 24

/-- `analytics.routes.ts:15–22`. -/
def AnalyticsMetric.reported (metric : AnalyticsMetric) : ReportedMetric where
  bucketStart := metric.bucketStart.toISOString
  completedCount := metric.completedCount
  completedAmountMinor := toString metric.completedAmount
  finalizedCount := metric.finalizedCount
  finalizedAmountMinor := toString metric.finalizedAmount

/-- `analytics.routes.ts:8–24`: the data of the answer. -/
def report (db : Database) : List ReportedMetric := (findMetrics db).map AnalyticsMetric.reported

end Banking.Analytics
