import TradeReport.Binary64.Shortest
import TradeReport.Metrics.Registry
import TradeReport.Text.Grid
/-!
# The text of metrics

Metrics are read by a collector as lines of text. A family of series has a line of help, a line that tells its
type, and a line for each sample. Families come in the order of their names, and a family without series is
left out.
-/

namespace TradeReport

/-- One line of a family: what follows the family's name, the labels with their values, and the value. -/
structure Sample where
  ending : String
  labels : List (String × String)
  value : Float

structure MetricFamily where
  name : String
  help : String
  type : String
  samples : List Sample

namespace Exposition

/-- Label values stand between quotes on one line. -/
def escape (c : Char) : List Char :=
  match c with
  | '\\' => ['\\', '\\']
  | '\n' => ['\\', 'n']
  | '"' => ['\\', '"']
  | _ => [c]

def labelText (label : String × String) : List Char :=
  label.1.toList ++ '=' :: '"' :: label.2.toList.flatMap escape ++ ['"']

def labelsText (labels : List (String × String)) : List Char :=
  if labels.isEmpty then [] else '{' :: joinWith [','] (labels.map labelText) ++ ['}']

def sampleLine (name : String) (sample : Sample) : String :=
  name ++ sample.ending ++ String.ofList (labelsText sample.labels) ++ " "
    ++ Binary64.toText sample.value

def familyLines (family : MetricFamily) : List String :=
  if family.samples.isEmpty then
    []
  else
    ("# HELP " ++ family.name ++ " " ++ family.help)
      :: ("# TYPE " ++ family.name ++ " " ++ family.type)
      :: family.samples.map (sampleLine family.name)

end Exposition

/-- The samples of series with one value each. -/
def SeriesOf.samples (labels : List String) (value : α → Float) (series : SeriesOf α) : List Sample :=
  series.entries.map fun entry => ⟨"", labels.zip entry.1, value entry.2⟩

/-- The samples of one histogram: its buckets, the last of them without a bound, the sum and the count. -/
def Histogram.samples (labels : List (String × String)) (histogram : Histogram) : List Sample :=
  let bucket (bound : String) (count : Nat) : Sample :=
    ⟨"_bucket", labels ++ [("le", bound)], Float.ofNat count⟩
  (bounds.zip histogram.cumulative).map (fun (bound, count) => bucket (Binary64.toText bound) count)
    ++ [ bucket "+Inf" histogram.count, ⟨"_sum", labels, histogram.sum⟩,
      ⟨"_count", labels, Float.ofNat histogram.count⟩ ]

namespace MetricsRegistry

def families (registry : MetricsRegistry) : List MetricFamily :=
  [ { name := "analytics_average_return"
      help := "Latest averaged return of a strategy run (ratio)"
      type := "gauge"
      samples := registry.averageReturn.samples ["scope"] id },
    { name := "analytics_kill_switch_triggered"
      help := "Whether the kill switch has fired (1=yes, 0=no)"
      type := "gauge"
      samples := [⟨"", [], if registry.killSwitchTriggered then 1 else 0⟩] },
    { name := "analytics_report_failures_total"
      help := "Total report requests that failed"
      type := "counter"
      samples := registry.failures.samples ["kind", "reason"] Float.ofNat },
    { name := "analytics_report_latency_ms"
      help := "Report computation latency in milliseconds"
      type := "histogram"
      samples := registry.latency.entries.flatMap fun entry =>
        entry.2.samples (["kind"].zip entry.1) },
    { name := "analytics_reports_total"
      help := "Total reports produced"
      type := "counter"
      samples := registry.completed.samples ["kind"] Float.ofNat } ]

/-- The lines of all families. -/
def lines (registry : MetricsRegistry) : List String :=
  registry.families.flatMap Exposition.familyLines

end MetricsRegistry

end TradeReport
