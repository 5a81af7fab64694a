import TradeReport.Binary64.Reading
import TradeReport.Service.Activity
import TradeReport.Table
/-!
# Metrics

Counters, gauges and histograms over the activity of a service. A series is known by the values of its labels,
and it exists from the first activity that concerns it.
-/

namespace TradeReport

/-- The values of the labels of a series. -/
abbrev LabelValues := List String

/-- The series of one metric. -/
abbrev SeriesOf (α : Type) := Table LabelValues α

/-- How many observations fell up to each bound and not up to the one before it, and all of them together. -/
structure Histogram where
  buckets : List Nat
  count : Nat
  sum : Float

namespace Histogram

/-- The bounds of the buckets, in milliseconds. -/
def bounds : List Float :=
  [1, 5, 10, 50, 100, 500, 1000, 5000]

def empty : Histogram := ⟨bounds.map fun _ => 0, 0, 0⟩

/-- The counts with one more in the first bucket that holds the value. -/
def countIn (value : Float) : List Float → List Nat → List Nat
  | bound :: bounds, count :: counts =>
    if value ≤ bound then (count + 1) :: counts else count :: countIn value bounds counts
  | _, counts => counts

def observe (histogram : Histogram) (value : Float) : Histogram :=
  { buckets := countIn value bounds histogram.buckets
    count := histogram.count + 1
    sum := histogram.sum + value }

/-- The counts of all observations up to each bound. -/
def cumulative (histogram : Histogram) : List Nat :=
  (histogram.buckets.foldl (fun so count => so ++ [so.getLast?.getD 0 + count]) [])

end Histogram

structure MetricsRegistry where
  averageReturn : SeriesOf Float
  killSwitchTriggered : Bool
  failures : SeriesOf Nat
  latency : SeriesOf Histogram
  completed : SeriesOf Nat

/-- A span of time in milliseconds: its seconds and its fraction of a second are converted apart. -/
def milliseconds (span : Nanoseconds) : Float :=
  let second := 1000000000
  (Float.ofNat (span / second) + Float.ofNat (span % second) / Float.ofNat second) * 1000

namespace MetricsRegistry

def empty : MetricsRegistry :=
  ⟨Table.empty, false, Table.empty, Table.empty, Table.empty⟩

/-- One more under the given labels. -/
def increment (series : SeriesOf Nat) (labels : LabelValues) : SeriesOf Nat :=
  series.put labels ((series.get? labels).getD 0 + 1)

def record (registry : MetricsRegistry) : Activity → MetricsRegistry
  | .completed kind latency =>
    let histogram := (registry.latency.get? [kind.label]).getD .empty
    { registry with
      completed := increment registry.completed [kind.label]
      latency := registry.latency.put [kind.label] (histogram.observe (milliseconds latency)) }
  | .failed kind reason =>
    { registry with failures := increment registry.failures [kind.label, reason] }
  | .averageReturn scope (some reading) =>
    { registry with
      averageReturn := registry.averageReturn.put [scope] (Binary64.ofDecimal reading) }
  | .averageReturn scope none =>
    { registry with averageReturn := registry.averageReturn.erase [scope] }
  | .killSwitchFired => { registry with killSwitchTriggered := true }

/-- The metrics of an activity that began with nothing recorded. -/
def ofActivities (activities : List Activity) : MetricsRegistry :=
  activities.foldl record empty

end MetricsRegistry

end TradeReport
