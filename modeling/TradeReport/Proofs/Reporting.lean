import Mathlib.Data.List.Forall2
import TradeReport.Proofs.Outcome
import TradeReport.Service.WindowReporter
/-!
# Runs of a reporter

A reporter run from some elapsed time either gives a result or is interrupted, and in both cases time has passed. A
sequence of two gives a result exactly when both do, one after the other.
-/

namespace TradeReport

/-! ## Lists that go along -/

theorem exists_of_forall₂ {α β : Type} {R : α → β → Prop} {items : List α} {others : List β} {b : β}
    (h : List.Forall₂ R items others) (hb : b ∈ others) : ∃ a ∈ items, R a b := by
  induction h with
  | nil => cases hb
  | cons hfirst _ ih =>
    rcases List.mem_cons.1 hb with rfl | hrest
    · exact ⟨_, List.mem_cons_self, hfirst⟩
    · obtain ⟨a, ha, hrel⟩ := ih hrest
      exact ⟨a, List.mem_cons_of_mem _ ha, hrel⟩

/-- Two lists that go along with the same list go along with each other. -/
theorem forall₂_of_common {α β γ : Type} {R : α → β → Prop} {S : α → γ → Prop} {items : List α} {others : List β}
    {others' : List γ} (h : List.Forall₂ R items others) (h' : List.Forall₂ S items others') :
    List.Forall₂ (fun b c => ∃ a, R a b ∧ S a c) others others' := by
  induction h generalizing others' with
  | nil =>
    rw [List.forall₂_nil_left_iff.1 h']
    exact .nil
  | cons hfirst _ ih =>
    obtain ⟨c, rest, hfirst', hrest', rfl⟩ := List.forall₂_cons_left_iff.1 h'
    exact .cons ⟨_, hfirst, hfirst'⟩ (ih hrest')

/-! ## Runs -/

namespace Reporting

variable {σ α β : Type} {before after : Elapsed σ} {a : α} {b : β}

/-- What comes of an action, and the time after it. -/
def runFrom (action : Reporting σ α) (before : Elapsed σ) : Except Interruption α × Elapsed σ :=
  action.run.run before

/-- The action has a result. -/
def Gives (action : Reporting σ α) (before : Elapsed σ) (a : α) (after : Elapsed σ) : Prop :=
  action.runFrom before = (.ok a, after)

/-- The action ends without a result. -/
def Interrupted (action : Reporting σ α) (before : Elapsed σ) (interruption : Interruption)
    (after : Elapsed σ) : Prop :=
  action.runFrom before = (.error interruption, after)

theorem exists_gives_of_any {action : Reporting σ α} {check : α → Bool}
    (h : (action.runFrom before).1.toOption.any check = true) :
    ∃ a after, action.Gives before a after ∧ check a = true := by
  obtain ⟨a, ha, hcheck⟩ := exists_eq_ok_of_any h
  exact ⟨a, _, Prod.ext ha rfl, hcheck⟩

theorem exists_gives {action : Reporting σ α} (h : (action.runFrom before).1.toOption.isSome = true) :
    ∃ a after, action.Gives before a after := by
  have hany : (action.runFrom before).1.toOption.any (fun _ => true) = true := by rw [Option.any_true, h]
  obtain ⟨a, after, hgives, -⟩ := exists_gives_of_any hany
  exact ⟨a, after, hgives⟩

theorem runFrom_bind (action : Reporting σ α) (next : α → Reporting σ β) (before : Elapsed σ) :
    (action >>= next).runFrom before
      = match action.runFrom before with
        | (.ok a, between) => (next a).runFrom between
        | (.error interruption, between) => (.error interruption, between) := by
  change (ExceptT.bindCont next (action before).1 (action before).2) = _
  change _ = match action before with
        | (.ok a, between) => (next a).runFrom between
        | (.error interruption, between) => (.error interruption, between)
  cases h : action before with
  | mk outcome between => cases outcome <;> rfl

theorem gives_bind_iff {action : Reporting σ α} {next : α → Reporting σ β} :
    (action >>= next).Gives before b after ↔
      ∃ a between, action.Gives before a between ∧ (next a).Gives between b after := by
  unfold Gives
  rw [runFrom_bind]
  rcases action.runFrom before with ⟨interruption | a, between⟩
  · simp
  · constructor
    · exact fun h => ⟨a, between, rfl, h⟩
    · intro h
      obtain ⟨_, _, ⟨rfl, rfl⟩, h⟩ := h
      exact h

theorem interrupted_bind_iff {action : Reporting σ α} {next : α → Reporting σ β} {interruption : Interruption} :
    (action >>= next).Interrupted before interruption after ↔
      action.Interrupted before interruption after ∨
        ∃ a between, action.Gives before a between ∧ (next a).Interrupted between interruption after := by
  unfold Gives Interrupted
  rw [runFrom_bind]
  rcases action.runFrom before with ⟨other | a, between⟩
  · simp
  · constructor
    · exact fun h => .inr ⟨a, between, rfl, h⟩
    · intro h
      rcases h with h | ⟨_, _, ⟨rfl, rfl⟩, h⟩
      · cases h
      · exact h

/-! ## Actions that take no time -/

theorem gives_pure_iff {c : α} : (pure c : Reporting σ α).Gives before a after ↔ c = a ∧ before = after := by
  rw [Gives, runFrom]
  change (Except.ok c, before) = (Except.ok a, after) ↔ _
  rw [Prod.mk.injEq, Except.ok.injEq]

theorem not_interrupted_pure {c : α} {interruption : Interruption} :
    ¬(pure c : Reporting σ α).Interrupted before interruption after := by
  intro h
  cases h

/-- What is found elsewhere is passed on, its error in the terms of a reporter. -/
def passOn {ε : Type} (describe : ε → Interruption) (result : Except ε α) : Reporting σ α :=
  match result with
  | .ok a => pure a
  | .error cause => throw (describe cause)

section PassOn

variable {ε : Type} {describe : ε → Interruption} {result : Except ε α}

theorem gives_passOn_iff : (passOn describe result : Reporting σ α).Gives before a after ↔
    result = .ok a ∧ before = after := by
  cases result with
  | error cause =>
    constructor
    · intro h
      cases h
    · intro h
      cases h.1
  | ok c => rw [passOn, gives_pure_iff, Except.ok.injEq]

theorem interrupted_passOn_iff {interruption : Interruption} :
    (passOn describe result : Reporting σ α).Interrupted before interruption after ↔
      (∃ cause, result = .error cause ∧ describe cause = interruption) ∧ before = after := by
  cases result with
  | error cause =>
    have hrun : (passOn describe (.error cause) : Reporting σ α).runFrom before = (.error (describe cause), before) :=
      rfl
    rw [Interrupted, hrun, Prod.mk.injEq, Except.error.injEq]
    simp
  | ok c =>
    constructor
    · intro h
      cases h
    · intro h
      obtain ⟨cause, hcause, -⟩ := h.1
      cases hcause

end PassOn

theorem ofSource_eq (result : Except Fault α) :
    (ofSource result : Reporting σ α) = passOn (fun cause => .error (.source cause)) result := by
  cases result <;> rfl

theorem ofCalculation_eq (result : Except CalculationError α) :
    (ofCalculation result : Reporting σ α) = passOn .ofCalculation result := by
  cases result <;> rfl

theorem ofArithmetic_eq (result : Except Overflow α) :
    (ofArithmetic result : Reporting σ α) = passOn .overflow result := by
  cases result <;> rfl

theorem gives_ofSource_iff {result : Except Fault α} :
    (ofSource result : Reporting σ α).Gives before a after ↔ result = .ok a ∧ before = after := by
  rw [ofSource_eq, gives_passOn_iff]

theorem gives_ofCalculation_iff {result : Except CalculationError α} :
    (ofCalculation result : Reporting σ α).Gives before a after ↔ result = .ok a ∧ before = after := by
  rw [ofCalculation_eq, gives_passOn_iff]

theorem gives_ofArithmetic_iff {result : Except Overflow α} :
    (ofArithmetic result : Reporting σ α).Gives before a after ↔ result = .ok a ∧ before = after := by
  rw [ofArithmetic_eq, gives_passOn_iff]

theorem not_gives_fail {error : ReportError} : ¬(fail error : Reporting σ α).Gives before a after := by
  intro h
  cases h

/-! ## Overflows -/

def Overflows (action : Reporting σ α) (before : Elapsed σ) : Prop :=
  ∃ cause after, action.Interrupted before (.overflow cause) after

/-- The action does not end with the error of a stopped service. -/
def NeverStopped (action : Reporting σ α) : Prop :=
  ∀ before after, ¬action.Interrupted before (.error .serviceStopped) after

theorem overflows_bind_iff {action : Reporting σ α} {next : α → Reporting σ β} :
    (action >>= next).Overflows before ↔
      action.Overflows before ∨ ∃ a between, action.Gives before a between ∧ (next a).Overflows between := by
  unfold Overflows
  simp only [interrupted_bind_iff]
  constructor
  · intro h
    obtain ⟨cause, after, h | ⟨a, between, ha, h⟩⟩ := h
    · exact .inl ⟨cause, after, h⟩
    · exact .inr ⟨a, between, ha, cause, after, h⟩
  · intro h
    rcases h with ⟨cause, after, h⟩ | ⟨a, between, ha, cause, after, h⟩
    · exact ⟨cause, after, .inl h⟩
    · exact ⟨cause, after, .inr ⟨a, between, ha, h⟩⟩

theorem neverStopped_bind {action : Reporting σ α} {next : α → Reporting σ β} (h : action.NeverStopped)
    (hnext : ∀ a, (next a).NeverStopped) : (action >>= next).NeverStopped := by
  intro before after hstopped
  rcases interrupted_bind_iff.1 hstopped with hfirst | ⟨a, between, -, hrest⟩
  · exact h _ _ hfirst
  · exact hnext a _ _ hrest

theorem not_overflows_pure {c : α} : ¬(pure c : Reporting σ α).Overflows before := by
  intro h
  obtain ⟨cause, after, hinterrupted⟩ := h
  exact not_interrupted_pure hinterrupted

theorem neverStopped_pure {c : α} : (pure c : Reporting σ α).NeverStopped :=
  fun _ _ => not_interrupted_pure

section PassOn

variable {ε : Type} {describe : ε → Interruption} {result : Except ε α}

theorem overflows_passOn_iff : (passOn describe result : Reporting σ α).Overflows before ↔
    ∃ cause overflow, result = .error cause ∧ describe cause = .overflow overflow := by
  unfold Overflows
  simp only [interrupted_passOn_iff]
  constructor
  · intro h
    obtain ⟨overflow, _, ⟨cause, hresult, hdescribe⟩, -⟩ := h
    exact ⟨cause, overflow, hresult, hdescribe⟩
  · intro h
    obtain ⟨cause, overflow, hresult, hdescribe⟩ := h
    exact ⟨overflow, before, ⟨cause, hresult, hdescribe⟩, rfl⟩

theorem neverStopped_passOn (h : ∀ cause, describe cause ≠ .error .serviceStopped) :
    (passOn describe result : Reporting σ α).NeverStopped := by
  intro before after hstopped
  obtain ⟨⟨cause, -, hdescribe⟩, -⟩ := interrupted_passOn_iff.1 hstopped
  exact h cause hdescribe

end PassOn

theorem not_overflows_fail {error : ReportError} : ¬(fail error : Reporting σ α).Overflows before := by
  intro h
  obtain ⟨cause, after, hinterrupted⟩ := h
  cases hinterrupted

theorem neverStopped_fail {error : ReportError} (herror : error ≠ .serviceStopped) :
    (fail error : Reporting σ α).NeverStopped := by
  intro before after h
  cases h
  exact herror rfl

theorem not_overflows_ofSource {result : Except Fault α} : ¬(ofSource result : Reporting σ α).Overflows before := by
  rw [ofSource_eq, overflows_passOn_iff]
  simp

theorem neverStopped_ofSource {result : Except Fault α} : (ofSource result : Reporting σ α).NeverStopped := by
  rw [ofSource_eq]
  exact neverStopped_passOn (by simp)

/-- Only the arithmetic of a calculation is left to overflow: its other errors are reported. -/
theorem overflows_ofCalculation_iff {result : Except CalculationError α} :
    (ofCalculation result : Reporting σ α).Overflows before ↔ ∃ cause, result = .error (.overflow cause) := by
  rw [ofCalculation_eq, overflows_passOn_iff]
  constructor
  · intro h
    obtain ⟨error, overflow, hresult, hdescribe⟩ := h
    cases error with
    | emptyScope => cases hdescribe
    | invalidPair symbol => cases hdescribe
    | overflow cause => exact ⟨cause, hresult⟩
  · intro h
    obtain ⟨cause, hresult⟩ := h
    exact ⟨_, cause, hresult, rfl⟩

theorem neverStopped_ofCalculation {result : Except CalculationError α} :
    (ofCalculation result : Reporting σ α).NeverStopped := by
  rw [ofCalculation_eq]
  refine neverStopped_passOn fun error => ?_
  cases error <;> simp [Interruption.ofCalculation]

theorem overflows_ofArithmetic_iff {result : Except Overflow α} :
    (ofArithmetic result : Reporting σ α).Overflows before ↔ ∃ cause, result = .error cause := by
  rw [ofArithmetic_eq, overflows_passOn_iff]
  simp

theorem neverStopped_ofArithmetic {result : Except Overflow α} :
    (ofArithmetic result : Reporting σ α).NeverStopped := by
  rw [ofArithmetic_eq]
  exact neverStopped_passOn (by simp)

/-! ## One action after another -/

theorem forall₂_of_gives_mapM {action : α → Reporting σ β} {items : List α} {results : List β}
    (h : (items.mapM action).Gives before results after) :
    List.Forall₂ (fun item result => ∃ before after, (action item).Gives before result after) items results := by
  induction items generalizing before after results with
  | nil =>
    rw [List.mapM_nil, gives_pure_iff] at h
    rw [← h.1]
    exact .nil
  | cons item rest ih =>
    rw [List.mapM_cons, gives_bind_iff] at h
    obtain ⟨result, between, hresult, h⟩ := h
    obtain ⟨more, between', hmore, h⟩ := gives_bind_iff.1 h
    rw [gives_pure_iff] at h
    rw [← h.1]
    exact .cons ⟨_, _, hresult⟩ (ih hmore)

/-- A pass over a list overflows in the first item that does, after all before it gave their results. -/
theorem overflows_mapM_iff {action : α → Reporting σ β} {items : List α} :
    (items.mapM action).Overflows before ↔
      ∃ earlier item later results between, items = earlier ++ item :: later ∧
        (earlier.mapM action).Gives before results between ∧ (action item).Overflows between := by
  induction items generalizing before with
  | nil =>
    rw [List.mapM_nil]
    constructor
    · exact fun h => absurd h not_overflows_pure
    · intro h
      obtain ⟨earlier, item, later, _, _, hitems, -⟩ := h
      exact absurd hitems (by simp)
  | cons first rest ih =>
    rw [List.mapM_cons, overflows_bind_iff]
    constructor
    · intro h
      rcases h with h | ⟨result, between, hresult, h⟩
      · exact ⟨[], first, rest, [], before, rfl, by rw [List.mapM_nil]; exact gives_pure_iff.2 ⟨rfl, rfl⟩, h⟩
      · rcases overflows_bind_iff.1 h with h | ⟨_, _, -, h⟩
        · obtain ⟨earlier, item, later, results, between', rfl, hearlier, hitem⟩ := ih.1 h
          refine ⟨first :: earlier, item, later, result :: results, between', rfl, ?_, hitem⟩
          rw [List.mapM_cons]
          exact gives_bind_iff.2 ⟨result, between, hresult, gives_bind_iff.2
            ⟨results, between', hearlier, gives_pure_iff.2 ⟨rfl, rfl⟩⟩⟩
        · exact absurd h not_overflows_pure
    · intro h
      obtain ⟨earlier, item, later, results, between, hitems, hearlier, hitem⟩ := h
      cases earlier with
      | nil =>
        rw [List.nil_append, List.cons.injEq] at hitems
        obtain ⟨rfl, rfl⟩ := hitems
        rw [List.mapM_nil, gives_pure_iff] at hearlier
        obtain ⟨-, rfl⟩ := hearlier
        exact .inl hitem
      | cons head earlier =>
        rw [List.cons_append, List.cons.injEq] at hitems
        obtain ⟨rfl, rfl⟩ := hitems
        rw [List.mapM_cons] at hearlier
        obtain ⟨result, between', hresult, hrest⟩ := gives_bind_iff.1 hearlier
        obtain ⟨more, between'', hmore, hpure⟩ := gives_bind_iff.1 hrest
        obtain ⟨-, rfl⟩ := gives_pure_iff.1 hpure
        exact .inr ⟨result, between', hresult, overflows_bind_iff.2 (.inl (ih.2
          ⟨earlier, item, later, more, between'', rfl, hmore, hitem⟩))⟩

theorem neverStopped_mapM {action : α → Reporting σ β} (h : ∀ item, (action item).NeverStopped)
    (items : List α) : (items.mapM action).NeverStopped := by
  induction items with
  | nil =>
    rw [List.mapM_nil]
    exact neverStopped_pure
  | cons first rest ih =>
    rw [List.mapM_cons]
    exact neverStopped_bind (h first) fun _ => neverStopped_bind ih fun _ => neverStopped_pure

/-! ## Settled actions -/

/-- What is settled after an action: an overflow of its own, or the result with an error inside it. -/
theorem settled_eq (action : Reporting σ α) (before : Elapsed σ) :
    action.settled.run before
      = match action.runFrom before with
        | (.ok a, after) => (.ok (.ok a), after)
        | (.error (.error error), after) => (.ok (.error error), after)
        | (.error (.overflow cause), after) => (.error cause, after) := by
  rw [settled, StateT.run_bind]
  rcases hrun : action.runFrom before with ⟨(error | cause) | a, after⟩
  · rw [show action.run.run before = (.error (.error error), after) from hrun]
    rfl
  · rw [show action.run.run before = (.error (.overflow cause), after) from hrun]
    rfl
  · rw [show action.run.run before = (.ok a, after) from hrun]
    rfl

theorem settled_overflows_iff {action : Reporting σ α} :
    (∃ cause after, action.settled.run before = (.error cause, after)) ↔ action.Overflows before := by
  rw [settled_eq]
  unfold Overflows Interrupted
  constructor
  · intro h
    obtain ⟨cause, after, h⟩ := h
    rcases hrun : action.runFrom before with ⟨(error | other) | a, after'⟩
    · rw [hrun] at h
      cases h
    · exact ⟨other, after', rfl⟩
    · rw [hrun] at h
      cases h
  · intro h
    obtain ⟨cause, after, h⟩ := h
    rw [h]
    exact ⟨cause, after, rfl⟩

theorem settled_ne_stopped {action : Reporting σ α} (h : action.NeverStopped) (after : Elapsed σ) :
    action.settled.run before ≠ (.ok (.error .serviceStopped), after) := by
  intro hsettled
  rw [settled_eq] at hsettled
  rcases hrun : action.runFrom before with ⟨(error | cause) | a, after'⟩
  · rw [hrun] at hsettled
    cases hsettled
    exact h before after hrun
  · rw [hrun] at hsettled
    cases hsettled
  · rw [hrun] at hsettled
    cases hsettled

end Reporting

end TradeReport
