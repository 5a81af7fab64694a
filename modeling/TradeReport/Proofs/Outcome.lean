import Mathlib.Data.List.Forall2
import Mathlib.Tactic.Basic
/-!
# Results that may fail

A sequence of steps succeeds exactly when each step does, with what the step before it gave. Two sequences agree when
their steps do (`Agree.bind`). Results that are not the same can still be alike, when they are related and an error
on one side is the error on the other (`Alike`).
-/

namespace TradeReport

variable {ε ζ α β : Type}

theorem bind_eq_ok {x : Except ε α} {f : α → Except ε β} {b : β} :
    (x >>= f) = .ok b ↔ ∃ a, x = .ok a ∧ f a = .ok b := by
  cases x <;> simp [bind, Except.bind]

theorem pure_eq_ok {a b : α} : (pure a : Except ε α) = .ok b ↔ a = b := by
  simp [pure, Except.pure]

theorem map_eq_ok {x : Except ε α} {f : α → β} {b : β} : (f <$> x) = .ok b ↔ ∃ a, x = .ok a ∧ f a = b := by
  cases x <;> simp [Functor.map, Except.map]

theorem mapError_eq_ok {x : Except ε α} {f : ε → ζ} {a : α} : x.mapError f = .ok a ↔ x = .ok a := by
  cases x with
  | error cause =>
    constructor
    · intro h
      cases h
    · intro h
      cases h
  | ok b =>
    have hmap : (Except.ok b : Except ε α).mapError f = .ok b := rfl
    rw [hmap, Except.ok.injEq, Except.ok.injEq]

theorem exists_eq_ok_of_any {x : Except ε α} {check : α → Bool} (h : x.toOption.any check = true) :
    ∃ a, x = .ok a ∧ check a = true := by
  cases x with
  | error cause => cases h
  | ok a => exact ⟨a, rfl, h⟩

theorem forM_eq_ok_iff {check : α → Except ε Unit} {items : List α} :
    items.forM check = .ok () ↔ ∀ a ∈ items, check a = .ok () := by
  induction items with
  | nil => simp [pure_eq_ok]
  | cons a rest ih =>
    rw [List.forM, bind_eq_ok, List.forall_mem_cons, ← ih]
    constructor
    · intro h
      obtain ⟨_, ha, hrest⟩ := h
      exact ⟨ha, hrest⟩
    · intro h
      exact ⟨(), h⟩

theorem mapM_eq_ok_map {f : α → Except ε β} {g : α → β} {items : List α} (h : ∀ a ∈ items, f a = .ok (g a)) :
    items.mapM f = .ok (items.map g) := by
  induction items with
  | nil => rfl
  | cons a rest ih =>
    rw [List.forall_mem_cons] at h
    rw [List.mapM_cons, h.1, ih h.2]
    rfl

theorem forall₂_of_mapM {f : α → Except ε β} {items : List α} {results : List β} (h : items.mapM f = .ok results) :
    List.Forall₂ (fun a b => f a = .ok b) items results := by
  induction items generalizing results with
  | nil =>
    obtain rfl := pure_eq_ok.1 h
    exact .nil
  | cons a rest ih =>
    rw [List.mapM_cons] at h
    obtain ⟨b, hb, h⟩ := bind_eq_ok.1 h
    obtain ⟨others, hothers, h⟩ := bind_eq_ok.1 h
    obtain rfl := pure_eq_ok.1 h
    exact .cons hb (ih hothers)

/-- A pass over a list succeeds when each step does from wherever the invariant holds. -/
theorem exists_foldlM_eq_ok {f : β → α → Except ε β} {P : β → Prop} {items : List α}
    (hstep : ∀ b, P b → ∀ a ∈ items, ∃ next, f b a = .ok next ∧ P next) {start : β}
    (hstart : P start) : ∃ result, items.foldlM f start = .ok result ∧ P result := by
  induction items generalizing start with
  | nil => exact ⟨start, rfl, hstart⟩
  | cons a rest ih =>
    obtain ⟨next, hnext, hholds⟩ := hstep start hstart a List.mem_cons_self
    obtain ⟨result, hresult, hlast⟩ := ih (fun b hb a ha => hstep b hb a (List.mem_cons_of_mem _ ha)) hholds
    refine ⟨result, ?_, hlast⟩
    rw [List.foldlM_cons, bind_eq_ok]
    exact ⟨next, hnext, hresult⟩

/-- The first step that fails decides, whatever would come after it. -/
theorem mapM_eq_error {f : α → Except ε β} {earlier later : List α} {a : α} {cause : ε}
    (hearlier : ∀ b ∈ earlier, ∃ c, f b = .ok c) (h : f a = .error cause) :
    (earlier ++ a :: later).mapM f = .error cause := by
  induction earlier with
  | nil =>
    rw [List.nil_append, List.mapM_cons, h]
    rfl
  | cons first earlier ih =>
    rw [List.forall_mem_cons] at hearlier
    obtain ⟨c, hfirst⟩ := hearlier.1
    rw [List.cons_append, List.mapM_cons, hfirst, ih hearlier.2]
    rfl

theorem mapM_ok_or_error (f : α → Except ε β) (items : List α) :
    (∃ results, items.mapM f = .ok results ∧ ∀ a ∈ items, ∃ b, f a = .ok b) ∨
      ∃ earlier a later cause, items = earlier ++ a :: later ∧ (∀ b ∈ earlier, ∃ c, f b = .ok c) ∧
        f a = .error cause := by
  induction items with
  | nil => exact .inl ⟨[], rfl, by simp⟩
  | cons first rest ih =>
    cases hfirst : f first with
    | error cause => exact .inr ⟨[], first, rest, cause, rfl, by simp, hfirst⟩
    | ok b =>
      rcases ih with ⟨results, hresults, hall⟩ | ⟨earlier, a, later, cause, rfl, hearlier, ha⟩
      · refine .inl ⟨b :: results, ?_, List.forall_mem_cons.2 ⟨⟨b, hfirst⟩, hall⟩⟩
        rw [List.mapM_cons, hfirst, hresults]
        rfl
      · exact .inr ⟨first :: earlier, a, later, cause, rfl, List.forall_mem_cons.2 ⟨⟨b, hfirst⟩, hearlier⟩, ha⟩

/-! ## Two computations -/

/-- Where both computations have a result, it is the same. -/
def Agree (x y : Except ε α) : Prop :=
  ∀ a b, x = .ok a → y = .ok b → a = b

namespace Agree

variable {x y : Except ε α}

theorem refl (x : Except ε α) : Agree x x :=
  fun _ _ ha hb => Except.ok.inj (ha.symm.trans hb)

theorem bind {f g : α → Except ε β} (h : Agree x y) (hnext : ∀ a, Agree (f a) (g a)) : Agree (x >>= f) (y >>= g) := by
  intro a b ha hb
  obtain ⟨c, hx, hf⟩ := bind_eq_ok.1 ha
  obtain ⟨d, hy, hg⟩ := bind_eq_ok.1 hb
  rw [← h c d hx hy] at hg
  exact hnext c a b hf hg

theorem map (h : Agree x y) (f : α → β) : Agree (f <$> x) (f <$> y) := by
  intro a b ha hb
  obtain ⟨c, hx, rfl⟩ := map_eq_ok.1 ha
  obtain ⟨d, hy, rfl⟩ := map_eq_ok.1 hb
  rw [h c d hx hy]

end Agree

/-- The same error, or results that are related. -/
inductive Alike (R : α → α → Prop) : Except ε α → Except ε α → Prop where
  | error (cause : ε) : Alike R (.error cause) (.error cause)
  | ok {a b : α} (h : R a b) : Alike R (.ok a) (.ok b)

end TradeReport
