import Mathlib.Algebra.Ring.Nat
import Mathlib.Data.List.Induction
import TradeReport.Metrics.Registry
import TradeReport.Proofs.Table
/-!
# What a registry counts

A registry follows from what it was told. A counter has counted the activities that raise it (`count_record`), and all
counters of one kind of report together those that end a report of this kind (`endings_record`). The gauge of a run
shows its last reading (`gauge_foldl_record`).
-/

namespace TradeReport

theorem ReportKind.label_injective : Function.Injective ReportKind.label := by
  intro a b h
  cases a <;> cases b <;> first | rfl | exact absurd h (by decide)

/-! ## Counters -/

/-- One series of the two counters, known by its labels. -/
inductive Counter where
  | reports (labels : LabelValues)
  | failures (labels : LabelValues)
  deriving DecidableEq

def Counter.completed (kind : ReportKind) : Counter :=
  .reports [kind.label]

def Counter.failed (kind : ReportKind) (reason : String) : Counter :=
  .failures [kind.label, reason]

namespace Activity

def counter? : Activity → Option Counter
  | .completed kind _ => some (.completed kind)
  | .failed kind reason => some (.failed kind reason)
  | .averageReturn .. => none
  | .killSwitchFired => none

def ends? : Activity → Option ReportKind
  | .completed kind _ => some kind
  | .failed kind _ => some kind
  | .averageReturn .. => none
  | .killSwitchFired => none

/-- What an activity reads for a run; an absent figure is a reading too. -/
def reading? (scope : String) : Activity → Option Figure
  | .averageReturn run reading => if run = scope then some reading else none
  | _ => none

end Activity

namespace MetricsRegistry

variable {registry : MetricsRegistry} {series : SeriesOf ℕ} {labels : LabelValues}

/-- What a counter stands at. A series that is not there stands at zero. -/
def count (registry : MetricsRegistry) : Counter → ℕ
  | .reports labels => (registry.completed.get? labels).getD 0
  | .failures labels => (registry.failures.get? labels).getD 0

private theorem getD_get?_increment (other : LabelValues) :
    ((increment series labels).get? other).getD 0 = (series.get? other).getD 0 + if labels = other then 1 else 0 := by
  unfold increment
  by_cases hother : labels = other
  · subst hother
    rw [Table.get?_put_self, if_pos rfl, Option.getD_some]
  · rw [Table.get?_put_ne (Ne.symm hother), if_neg hother, add_zero]

theorem count_record (activity : Activity) (counter : Counter) :
    (registry.record activity).count counter
      = registry.count counter + if activity.counter? = some counter then 1 else 0 := by
  cases activity with
  | completed kind latency =>
    cases counter with
    | reports labels => simpa [Activity.counter?, Counter.completed, record, count] using getD_get?_increment labels
    | failures labels => simp [Activity.counter?, Counter.completed, record, count]
  | failed kind reason =>
    cases counter with
    | reports labels => simp [Activity.counter?, Counter.failed, record, count]
    | failures labels => simpa [Activity.counter?, Counter.failed, record, count] using getD_get?_increment labels
  | averageReturn scope reading =>
    cases reading <;> cases counter <;> rfl
  | killSwitchFired => cases counter <;> rfl

/-- A figure that each matching activity raises by one counts these activities. -/
private theorem foldl_record_eq {κ : Type} [DecidableEq κ] (figure : MetricsRegistry → ℕ) (of? : Activity → Option κ)
    {key : κ} (hstep : ∀ registry activity,
      figure (registry.record activity) = figure registry + if of? activity = some key then 1 else 0)
    (activities : List Activity) :
    figure (activities.foldl record registry) = figure registry + (activities.filterMap of?).count key := by
  induction activities generalizing registry with
  | nil => rfl
  | cons activity rest ih =>
    rw [List.foldl_cons, ih, hstep, add_assoc]
    cases hkey : of? activity with
    | none => simp [List.filterMap_cons_none hkey]
    | some found => simp [List.filterMap_cons_some hkey, List.count_cons, add_comm]

theorem count_foldl_record (activities : List Activity) (counter : Counter) :
    (activities.foldl record registry).count counter
      = registry.count counter + (activities.filterMap Activity.counter?).count counter :=
  foldl_record_eq (·.count counter) Activity.counter? (fun _ activity => count_record activity counter) activities

/-! ## All counters of a kind -/

def failuresOf (registry : MetricsRegistry) (kind : ReportKind) : ℕ :=
  (registry.failures.entries.map fun entry => if entry.1.head? = some kind.label then entry.2 else 0).sum

def endings (registry : MetricsRegistry) (kind : ReportKind) : ℕ :=
  registry.count (.completed kind) + registry.failuresOf kind

private theorem sum_increment (series : SeriesOf ℕ) (labels : LabelValues) (p : LabelValues → Prop) [DecidablePred p] :
    ((increment series labels).entries.map fun entry => if p entry.1 then entry.2 else 0).sum
      = (series.entries.map fun entry => if p entry.1 then entry.2 else 0).sum + if p labels then 1 else 0 := by
  -- The sum is known up to what the series stood at before, which both sides have to add.
  have hput := Entries.sum_put_add labels ((series.get? labels).getD 0 + 1)
    (fun entry : LabelValues × ℕ => if p entry.1 then entry.2 else 0) series.ascending
  have hold : Entries.get? labels series.entries = series.get? labels := rfl
  rw [hold] at hput
  unfold increment Table.put
  by_cases hp : p labels
  · cases hget : series.get? labels <;> simp_all
    omega
  · cases hget : series.get? labels <;> simp_all

theorem endings_record (activity : Activity) (kind : ReportKind) :
    (registry.record activity).endings kind
      = registry.endings kind + if activity.ends? = some kind then 1 else 0 := by
  have hlabel : ∀ other : ReportKind, other.label = kind.label ↔ other = kind :=
    fun other => ReportKind.label_injective.eq_iff
  unfold endings
  rw [count_record]
  cases activity with
  | completed other latency =>
    have hsame : (registry.record (.completed other latency)).failuresOf kind = registry.failuresOf kind := rfl
    rw [hsame, Activity.counter?, Activity.ends?, add_right_comm]
    simp [Counter.completed, hlabel]
  | failed other reason =>
    have hmore : (registry.record (.failed other reason)).failuresOf kind
        = registry.failuresOf kind + if other.label = kind.label then 1 else 0 := by
      simpa [failuresOf, record] using
        sum_increment registry.failures [other.label, reason] fun labels => labels.head? = some kind.label
    rw [hmore, Activity.counter?, Activity.ends?]
    simp [Counter.completed, Counter.failed, hlabel, add_assoc]
  | averageReturn scope reading =>
    cases reading <;> rfl
  | killSwitchFired => rfl

theorem endings_foldl_record (activities : List Activity) (kind : ReportKind) :
    (activities.foldl record registry).endings kind
      = registry.endings kind + (activities.filterMap Activity.ends?).count kind :=
  foldl_record_eq (·.endings kind) Activity.ends? (fun _ activity => endings_record activity kind) activities

/-! ## Gauges -/

/-- The averaged return that is shown for a run. -/
def gauge (registry : MetricsRegistry) (scope : String) : Option Float :=
  registry.averageReturn.get? [scope]

private theorem gauge_record (activity : Activity) (scope : String) :
    (registry.record activity).gauge scope
      = (activity.reading? scope).elim (registry.gauge scope) (·.map Binary64.ofDecimal) := by
  cases activity with
  | completed kind latency => rfl
  | failed kind reason => rfl
  | killSwitchFired => rfl
  | averageReturn run reading =>
    by_cases hrun : run = scope
    · subst hrun
      rw [Activity.reading?, if_pos rfl]
      cases reading with
      | none => exact Table.get?_erase_self
      | some average => exact Table.get?_put_self
    · have hne : [scope] ≠ [run] := by simpa using Ne.symm hrun
      rw [Activity.reading?, if_neg hrun]
      cases reading with
      | none => exact Table.get?_erase_ne hne
      | some average => exact Table.get?_put_ne hne

/-- The last reading for a run decides what is shown, and without one nothing changes. -/
theorem gauge_foldl_record (activities : List Activity) (scope : String) :
    (activities.foldl record registry).gauge scope
      = ((activities.filterMap (Activity.reading? scope)).getLast?).elim (registry.gauge scope)
          (·.map Binary64.ofDecimal) := by
  induction activities using List.reverseRecOn with
  | nil => rfl
  | append_singleton earlier activity ih =>
    rw [List.foldl_append, List.foldl_cons, List.foldl_nil, gauge_record, ih, List.filterMap_append]
    cases hreading : activity.reading? scope with
    | none => simp [List.filterMap_cons_none hreading]
    | some reading => simp [List.filterMap_cons_some hreading]

end MetricsRegistry

end TradeReport
