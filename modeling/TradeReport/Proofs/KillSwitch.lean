import TradeReport.KillSwitch.Monitor
import TradeReport.Proofs.Service
/-!
# When a kill switch fires

A switch fires on an averaged return at its limit or below, and on nothing else: neither an error nor an absent
return is taken for one. A monitor fires on the first result of its checks that fires the switch; that check is its
last, and that it fired is told once (`fires_on_first`). How the checks come about does not matter for this: it
holds for every way of waiting for a check and of making it, and so for the requests that a monitor makes.
-/

namespace TradeReport

namespace KillSwitch

variable {killSwitch : KillSwitch} {profitability : Profitability} {averageReturn : Decimal}

/-- What was found is an averaged return at the limit or below. -/
def FiresOn (killSwitch : KillSwitch) (profitability : Profitability) : Prop :=
  ∃ averageReturn, profitability = .ok (some averageReturn) ∧ averageReturn ≤ killSwitch.limit

theorem evaluate_of_le (h : averageReturn ≤ killSwitch.limit) :
    killSwitch.evaluate (.ok (some averageReturn)) = .trigger averageReturn :=
  if_pos h

theorem evaluate_of_not_le (h : ¬averageReturn ≤ killSwitch.limit) :
    killSwitch.evaluate (.ok (some averageReturn)) = .proceed averageReturn :=
  if_neg h

private theorem evaluate_ne_trigger (h : ¬killSwitch.FiresOn profitability) :
    killSwitch.evaluate profitability ≠ .trigger averageReturn := by
  intro htrigger
  match profitability, h, htrigger with
  | .ok (some other), h, htrigger =>
    have hover : ¬other ≤ killSwitch.limit := fun hle => h ⟨other, rfl, hle⟩
    rw [evaluate_of_not_le hover] at htrigger
    cases htrigger
  | .ok none, _, htrigger => cases htrigger
  | .error _, _, htrigger => cases htrigger

/-- The first result that the switch fires on, and the state after its check. -/
def FiresFirst {s : Type} (killSwitch : KillSwitch) (outcomes : List (Profitability × s)) (averageReturn : Decimal)
    (checked : s) : Prop :=
  averageReturn ≤ killSwitch.limit ∧
    ∃ earlier later, outcomes = earlier ++ (.ok (some averageReturn), checked) :: later ∧
      ∀ outcome ∈ earlier, ¬killSwitch.FiresOn outcome.1

theorem FiresFirst.exists_firesOn {s : Type} {outcomes : List (Profitability × s)} {checked : s}
    (h : killSwitch.FiresFirst outcomes averageReturn checked) :
    ∃ outcome ∈ outcomes, killSwitch.FiresOn outcome.1 := by
  obtain ⟨hle, earlier, later, rfl, -⟩ := h
  exact ⟨_, List.mem_append_right earlier List.mem_cons_self, averageReturn, rfl, hle⟩

/-- Either one of the results is the first, or the switch fires on none. -/
theorem exists_firesFirst {s : Type} (killSwitch : KillSwitch) (outcomes : List (Profitability × s)) :
    (∃ averageReturn checked, killSwitch.FiresFirst outcomes averageReturn checked) ∨
      ∀ outcome ∈ outcomes, ¬killSwitch.FiresOn outcome.1 := by
  induction outcomes with
  | nil => exact .inr (by simp)
  | cons first rest ih =>
    by_cases hfirst : killSwitch.FiresOn first.1
    · obtain ⟨averageReturn, hfound, hle⟩ := hfirst
      exact .inl ⟨averageReturn, first.2, hle, [], rest, by rw [← hfound]; rfl, by simp⟩
    · rcases ih with ⟨averageReturn, checked, hle, earlier, later, rfl, hearlier⟩ | hnone
      · exact .inl ⟨averageReturn, checked, hle, first :: earlier, later, rfl,
          List.forall_mem_cons.2 ⟨hfirst, hearlier⟩⟩
      · exact .inr (List.forall_mem_cons.2 ⟨hfirst, hnone⟩)

end KillSwitch

namespace Monitor

open KillSwitch (FiresOn FiresFirst)

/-! ## Checks up to the shutdown -/

section Watch

variable {s : Type} {killSwitch : KillSwitch} {wait : Nat → s → Option s} {check : StateM s Profitability}
  {averageReturn : Decimal} {checked : s}

/-- The results of all checks that come before the shutdown when none of them ends the watch, each with the state
after it. -/
def outcomes (wait : Nat → s → Option s) (check : StateM s Profitability) (number : Nat) :
    Nat → s → List (Profitability × s)
  | 0, _ => []
  | left + 1, state =>
    match wait number state with
    | none => []
    | some atCheck => check.run atCheck :: outcomes wait check (number + 1) left (check.run atCheck).2

def stateAfter (state : s) (outcomes : List (Profitability × s)) : s :=
  (outcomes.getLast?.map (·.2)).getD state

theorem stateAfter_cons (state : s) (first : Profitability × s) (rest : List (Profitability × s)) :
    stateAfter state (first :: rest) = stateAfter first.2 rest := by
  cases rest with
  | nil => rfl
  | cons second rest =>
    rw [stateAfter, stateAfter, List.getLast?_cons_cons, List.getLast?_cons]
    rfl

private theorem watch_of_shutdown {number left : Nat} {state : s} (h : wait number state = none) :
    (watch killSwitch wait check number (left + 1)).run state = (none, state) := by
  simp only [watch, StateT.run_bind, StateT.run_get, pure_bind, h]
  rfl

private theorem watch_of_check {number left : Nat} {state atCheck : s} (h : wait number state = some atCheck) :
    (watch killSwitch wait check number (left + 1)).run state
      = match killSwitch.evaluate (check.run atCheck).1 with
        | .trigger averageReturn => (some averageReturn, (check.run atCheck).2)
        | .proceed _ | .unknown _ => (watch killSwitch wait check (number + 1) left).run (check.run atCheck).2 := by
  simp only [watch, StateT.run_bind, StateT.run_get, pure_bind, h, StateT.run_set]
  obtain ⟨found, checked⟩ := check.run atCheck
  change StateT.run (match killSwitch.evaluate found with
      | .trigger averageReturn => pure (some averageReturn)
      | .proceed _ => watch killSwitch wait check (number + 1) left
      | .unknown _ => watch killSwitch wait check (number + 1) left) checked = _
  cases killSwitch.evaluate found <;> rfl

theorem watch_of_fires {number left : Nat} {state atCheck : s} (h : wait number state = some atCheck)
    (hcheck : check.run atCheck = (.ok (some averageReturn), checked)) (hle : averageReturn ≤ killSwitch.limit) :
    (watch killSwitch wait check number (left + 1)).run state = (some averageReturn, checked) := by
  rw [watch_of_check h, hcheck]
  dsimp only
  rw [KillSwitch.evaluate_of_le hle]

theorem watch_of_not_fires {number left : Nat} {state atCheck : s} (h : wait number state = some atCheck)
    (hcheck : ¬killSwitch.FiresOn (check.run atCheck).1) :
    (watch killSwitch wait check number (left + 1)).run state
      = (watch killSwitch wait check (number + 1) left).run (check.run atCheck).2 := by
  rw [watch_of_check h]
  split
  · rename_i averageReturn htrigger
    exact absurd htrigger (KillSwitch.evaluate_ne_trigger hcheck)
  · rfl
  · rfl

private theorem watch_of_firesFirst {number left : Nat} {state : s}
    (h : killSwitch.FiresFirst (outcomes wait check number left state) averageReturn checked) :
    (watch killSwitch wait check number left).run state = (some averageReturn, checked) := by
  induction left generalizing number state with
  | zero =>
    obtain ⟨-, earlier, later, hsplit, -⟩ := h
    exact absurd hsplit (by simp [outcomes])
  | succ left ih =>
    obtain ⟨hle, earlier, later, hsplit, hearlier⟩ := h
    unfold outcomes at hsplit
    cases hwait : wait number state with
    | none => exact absurd hsplit (by simp [hwait])
    | some atCheck =>
      rw [hwait] at hsplit
      cases earlier with
      | nil =>
        obtain ⟨hcheck, -⟩ := List.cons.inj hsplit
        exact watch_of_fires hwait hcheck hle
      | cons first earlier =>
        obtain ⟨rfl, hrest⟩ := List.cons.inj hsplit
        rw [List.forall_mem_cons] at hearlier
        rw [watch_of_not_fires hwait hearlier.1]
        exact ih ⟨hle, earlier, later, hrest, hearlier.2⟩

private theorem watch_of_none {number left : Nat} {state : s}
    (h : ∀ outcome ∈ outcomes wait check number left state, ¬killSwitch.FiresOn outcome.1) :
    (watch killSwitch wait check number left).run state
      = (none, stateAfter state (outcomes wait check number left state)) := by
  induction left generalizing number state with
  | zero => rfl
  | succ left ih =>
    unfold outcomes at h ⊢
    cases hwait : wait number state with
    | none => exact watch_of_shutdown hwait
    | some atCheck =>
      rw [hwait] at h
      obtain ⟨hcheck, hrest⟩ := List.forall_mem_cons.1 h
      rw [watch_of_not_fires hwait hcheck, ih hrest, stateAfter_cons]

/-- Where every check from some number on comes after the shutdown, no more checks are made than up to there. -/
theorem outcomes_add {number left : Nat} (more : Nat)
    (hend : ∀ later, number + left ≤ later → ∀ state, wait later state = none) (state : s) :
    outcomes wait check number (left + more) state = outcomes wait check number left state := by
  induction left generalizing number state with
  | zero =>
    rw [Nat.zero_add]
    cases more with
    | zero => rfl
    | succ more => simp only [outcomes, hend number le_rfl state]
  | succ left ih =>
    rw [Nat.add_right_comm]
    simp only [outcomes]
    cases wait number state with
    | none => rfl
    | some atCheck =>
      have hrest : ∀ later, number + 1 + left ≤ later → ∀ state, wait later state = none := by
        intro later hlater
        exact hend later (by omega)
      simp only [ih hrest]

/-- What neither waiting nor checking changes is the same after every check. -/
theorem eq_of_mem_outcomes {α : Type} (reading : s → α)
    (hwait : ∀ {number state atCheck}, wait number state = some atCheck → reading atCheck = reading state)
    (hcheck : ∀ state, reading (check.run state).2 = reading state) {number left : Nat} {state : s}
    {outcome : Profitability × s} (h : outcome ∈ outcomes wait check number left state) :
    reading outcome.2 = reading state := by
  induction left generalizing number state with
  | zero => cases h
  | succ left ih =>
    unfold outcomes at h
    cases hnext : wait number state with
    | none =>
      rw [hnext] at h
      cases h
    | some atCheck =>
      rw [hnext] at h
      have hfirst : reading (check.run atCheck).2 = reading state := (hcheck atCheck).trans (hwait hnext)
      rcases List.mem_cons.1 h with rfl | h
      · exact hfirst
      · exact (ih h).trans hfirst

end Watch

/-! ## Monitors -/

variable {σ : Type} {killSwitch : KillSwitch}

/-- What becomes of a monitor whose checks have these outcomes: the first result that fires the switch is what it
fires on, no check follows, and nothing is told but once that the switch fired. -/
structure Guards (killSwitch : KillSwitch) (outcomes : List (Profitability × Service σ)) (begun : Service σ)
    (result : Option Decimal × Service σ) : Prop where
  fires_iff : ∀ averageReturn,
    result.1 = some averageReturn ↔ ∃ checked, killSwitch.FiresFirst outcomes averageReturn checked
  fired : ∀ averageReturn checked, killSwitch.FiresFirst outcomes averageReturn checked →
    result.2 = checked.tell [.killSwitchFired]
  silent_iff : result.1 = none ↔ ∀ outcome ∈ outcomes, ¬killSwitch.FiresOn outcome.1
  silent : result.1 = none → result.2 = stateAfter begun outcomes

private theorem keepWatch_eq (killSwitch : KillSwitch) (wait : Nat → Service σ → Option (Service σ))
    (check : StateM (Service σ) Profitability) (checks : Nat) (begun : Service σ) :
    (keepWatch killSwitch wait check checks).run begun
      = match (watch killSwitch wait check 0 checks).run begun with
        | (some averageReturn, checked) => (some averageReturn, checked.tell [.killSwitchFired])
        | (none, service) => (none, service) := by
  simp only [keepWatch, StateT.run_bind]
  obtain ⟨fired, service⟩ := (watch killSwitch wait check 0 checks).run begun
  cases fired <;> rfl

private theorem guards_keepWatch (killSwitch : KillSwitch) (wait : Nat → Service σ → Option (Service σ))
    (check : StateM (Service σ) Profitability) (checks : Nat) (begun : Service σ) :
    Guards killSwitch (outcomes wait check 0 checks begun) begun
      ((keepWatch killSwitch wait check checks).run begun) := by
  rw [keepWatch_eq]
  rcases killSwitch.exists_firesFirst (outcomes wait check 0 checks begun) with ⟨first, checked, hfirst⟩ | hnone
  · have honly : ∀ averageReturn other,
        killSwitch.FiresFirst (outcomes wait check 0 checks begun) averageReturn other →
          first = averageReturn ∧ checked = other := by
      intro averageReturn other hother
      have hrun := (watch_of_firesFirst hfirst).symm.trans (watch_of_firesFirst hother)
      exact ⟨Option.some.inj (Prod.mk.inj hrun).1, (Prod.mk.inj hrun).2⟩
    rw [watch_of_firesFirst hfirst]
    refine ⟨fun averageReturn => ?_, fun averageReturn other hother => ?_, ?_, fun h => nomatch h⟩
    · constructor
      · intro h
        obtain rfl := Option.some.inj h
        exact ⟨checked, hfirst⟩
      · rintro ⟨other, hother⟩
        rw [(honly averageReturn other hother).1]
    · rw [(honly averageReturn other hother).2]
    · obtain ⟨outcome, hmem, hfires⟩ := hfirst.exists_firesOn
      exact iff_of_false (fun h => nomatch h) fun h => h outcome hmem hfires
  · have hnever : ∀ averageReturn checked,
        ¬killSwitch.FiresFirst (outcomes wait check 0 checks begun) averageReturn checked := by
      intro averageReturn checked h
      obtain ⟨outcome, hmem, hfires⟩ := h.exists_firesOn
      exact hnone outcome hmem hfires
    rw [watch_of_none hnone]
    refine ⟨fun averageReturn => ?_, fun averageReturn other hother => ?_, iff_of_true rfl hnone, fun _ => rfl⟩
    · exact iff_of_false (fun h => nomatch h) fun ⟨other, hother⟩ => hnever averageReturn other hother
    · exact absurd hother (hnever averageReturn other)

/-! ## The requests of a monitor -/

def firings (service : Service σ) : Nat :=
  service.told.count .killSwitchFired

private theorem firings_tell (service : Service σ) (activities : List Activity) :
    firings (service.tell activities) = firings service + activities.count .killSwitchFired :=
  List.count_append

private theorem not_mem_activities (latency : Nanoseconds) (request : Request) (answer : request.Answer) :
    .killSwitchFired ∉ request.activities latency answer := by
  have hending : ∀ {α : Type} (kind : ReportKind) (result : Except ReportError α),
      .killSwitchFired ≠ Request.ending kind latency result := by
    intro α kind result
    cases result <;> simp [Request.ending]
  cases request with
  | window scope start =>
    cases scope with
    | none => simp [Request.activities, hending]
    | some run => cases (answer : Except ReportError WindowReport) <;> simp [Request.activities, hending]
  | profitability scope start => cases scope <;> simp [Request.activities, hending]
  | recentTrades scope start maxRows => simp [Request.activities, hending]
  | full start =>
    cases hfailure : FullReport.isFailure answer <;> simp [Request.activities, hfailure]

private theorem firings_submit (market : Market σ) (request : Request) (service : Service σ) :
    firings ((Service.submit market request).run service).2 = firings service := by
  rw [Service.submit_eq]
  split
  · split
    · rfl
    · rw [firings_tell, List.count_eq_zero.2 (not_mem_activities _ _ _)]
      rfl
  · rfl

private theorem waitUntil_eq_none {schedule : Schedule} {number : Nat} (h : schedule.checks ≤ number) (begun : Nat)
    (service : Service σ) : waitUntil schedule begun number service = none := by
  have hshutdown : schedule.shutdown ≤ number * schedule.interval := by
    have hlt : schedule.shutdown + schedule.interval - 1 < (number + 1) * schedule.interval :=
      (Nat.div_lt_iff_lt_mul schedule.interval_pos).1 (Nat.lt_succ_of_le h)
    rw [Nat.add_one_mul] at hlt
    have := schedule.interval_pos
    omega
  exact if_neg (by omega)

private theorem firings_waitUntil {schedule : Schedule} {begun number : Nat} {service atCheck : Service σ}
    (h : waitUntil schedule begun number service = some atCheck) : firings atCheck = firings service := by
  unfold waitUntil at h
  dsimp only at h
  split at h
  · rw [← Option.some.inj h]
    rfl
  · cases h

/-- The checks of a monitor up to its shutdown. -/
def checked (monitor : Monitor) (market : Market σ) (checks : Nat) (begun : Service σ) :
    List (Profitability × Service σ) :=
  outcomes (waitUntil monitor.schedule begun.elapsed.clock)
    (Service.submit market (.profitability monitor.scope monitor.start)) 0 checks begun

private theorem guards_run (monitor : Monitor) (market : Market σ) (begun : Service σ) :
    Guards monitor.killSwitch (monitor.checked market monitor.schedule.checks begun) begun
      ((monitor.run market).run begun) :=
  guards_keepWatch monitor.killSwitch (waitUntil monitor.schedule begun.elapsed.clock)
    (Service.submit market (.profitability monitor.scope monitor.start)) monitor.schedule.checks begun

/-- No check that begins before the shutdown is left out. -/
theorem checked_add (monitor : Monitor) (market : Market σ) (more : Nat) (begun : Service σ) :
    monitor.checked market (monitor.schedule.checks + more) begun
      = monitor.checked market monitor.schedule.checks begun :=
  outcomes_add more (fun _ hlater => waitUntil_eq_none (by omega) begun.elapsed.clock) begun

private theorem firings_of_mem_checked {monitor : Monitor} {market : Market σ} {checks : Nat} {begun : Service σ}
    {outcome : Profitability × Service σ} (h : outcome ∈ monitor.checked market checks begun) :
    firings outcome.2 = firings begun :=
  eq_of_mem_outcomes firings firings_waitUntil (firings_submit market _) h

private theorem firings_stateAfter {outcomes : List (Profitability × Service σ)} {begun : Service σ}
    (h : ∀ outcome ∈ outcomes, firings outcome.2 = firings begun) :
    firings (stateAfter begun outcomes) = firings begun := by
  unfold stateAfter
  cases hlast : outcomes.getLast? with
  | none => rfl
  | some last => exact h last (List.mem_of_getLast? hlast)

/-- A monitor tells that the switch fired once when it did, and never when it did not. -/
theorem firings_run (monitor : Monitor) (market : Market σ) (begun : Service σ) :
    firings ((monitor.run market).run begun).2
      = firings begun + if ((monitor.run market).run begun).1.isSome = true then 1 else 0 := by
  have hguards := guards_run monitor market begun
  cases hresult : ((monitor.run market).run begun).1 with
  | none =>
    rw [hguards.silent hresult, firings_stateAfter fun _ h => firings_of_mem_checked h]
    rfl
  | some averageReturn =>
    obtain ⟨checked, hfirst⟩ := (hguards.fires_iff averageReturn).1 hresult
    rw [hguards.fired _ _ hfirst, firings_tell]
    obtain ⟨-, earlier, later, hsplit, -⟩ := hfirst
    have hmem : (.ok (some averageReturn), checked) ∈ monitor.checked market monitor.schedule.checks begun := by
      rw [hsplit]
      exact List.mem_append_right earlier List.mem_cons_self
    rw [firings_of_mem_checked hmem]
    rfl

/-- A check that reads off one result after the other. -/
def readOff : StateM (Service (List Profitability)) Profitability := do
  let service ← get
  set { service with elapsed.state := service.elapsed.state.tail }
  return service.elapsed.state.headD (.ok none)

/-- Every sequence of results can come about. -/
theorem outcomes_readOff (number : Nat) (service : Service (List Profitability)) :
    (outcomes (fun _ => some) readOff number service.elapsed.state.length service).map Prod.fst
      = service.elapsed.state := by
  obtain ⟨running, ⟨results, clock⟩, told⟩ := service
  induction results generalizing number with
  | nil => rfl
  | cons first rest ih => exact congrArg (first :: ·) (ih (number + 1))

/-- A monitor fires on the first result of its checks that fires the switch, makes no check after it, and tells once
that it fired; without such a result it goes on to the shutdown and tells nothing of the kind. -/
theorem fires_on_first :
    (∀ results : List Profitability, ∃ wait check, ∃ begun : Service (List Profitability),
      (outcomes wait check 0 results.length begun).map Prod.fst = results) ∧
    (∀ {σ : Type} (killSwitch : KillSwitch) (wait : Nat → Service σ → Option (Service σ))
      (check : StateM (Service σ) Profitability) (checks : Nat) (begun : Service σ),
      Guards killSwitch (outcomes wait check 0 checks begun) begun
        ((keepWatch killSwitch wait check checks).run begun)) ∧
    ∀ {σ : Type} (monitor : Monitor) (market : Market σ) (begun : Service σ),
      Guards monitor.killSwitch (monitor.checked market monitor.schedule.checks begun) begun
        ((monitor.run market).run begun) ∧
      (∀ more, monitor.checked market (monitor.schedule.checks + more) begun
        = monitor.checked market monitor.schedule.checks begun) ∧
      firings ((monitor.run market).run begun).2
        = firings begun + if ((monitor.run market).run begun).1.isSome = true then 1 else 0 := by
  refine ⟨fun results => ?_, guards_keepWatch, fun monitor market begun => ?_⟩
  · exact ⟨fun _ => some, readOff, .start results, outcomes_readOff 0 (.start results)⟩
  · exact ⟨guards_run monitor market begun, fun more => checked_add monitor market more begun,
      firings_run monitor market begun⟩

end Monitor

end TradeReport
