import TradeReport.Proofs.Decimal.Operation
/-!
# Calculations

A calculation is the tree of its operations. Run, each of them rounds or overflows. A calculation in which none does is
exact, and what it gives has the value of the tree in the rationals (`Calculation.Exact.exists_run`).
-/

namespace TradeReport

open Decimal

inductive Calculation where
  | given (a : Decimal)
  | add (x y : Calculation)
  | mul (x y : Calculation)

namespace Calculation

variable {x y start : Calculation} {terms : List Calculation}

def run : Calculation → Except Overflow Decimal
  | given a => return a
  | add x y => do (← x.run).add (← y.run)
  | mul x y => do (← x.run).mul (← y.run)

def value : Calculation → ℚ
  | given a => a.toRat
  | add x y => x.value + y.value
  | mul x y => x.value * y.value

/-- No operation rounds or overflows. -/
def Exact : Calculation → Prop
  | given _ => True
  | add x y => x.Exact ∧ y.Exact ∧ value? (add x y).run = some (x.value + y.value)
  | mul x y => x.Exact ∧ y.Exact ∧ value? (mul x y).run = some (x.value * y.value)

instance decidableExact : (x : Calculation) → Decidable x.Exact
  | given _ => .isTrue trivial
  | add x y =>
    have := decidableExact x
    have := decidableExact y
    inferInstanceAs (Decidable (_ ∧ _ ∧ _))
  | mul x y =>
    have := decidableExact x
    have := decidableExact y
    inferInstanceAs (Decidable (_ ∧ _ ∧ _))

theorem Exact.exists_run (h : x.Exact) : ∃ a, x.run = .ok a ∧ a.toRat = x.value := by
  cases x with
  | given a => exact ⟨a, rfl, rfl⟩
  | add x y => exact exists_of_value? h.2.2
  | mul x y => exact exists_of_value? h.2.2

theorem run_add_eq_ok {a b : Decimal} (hx : x.run = .ok a) (hy : y.run = .ok b) : (add x y).run = a.add b := by
  rw [run, hx, hy]
  rfl

theorem run_mul_eq_ok {a b : Decimal} (hx : x.run = .ok a) (hy : y.run = .ok b) : (mul x y).run = a.mul b := by
  rw [run, hx, hy]
  rfl

/-! ## Sums -/

theorem run_foldl_add :
    (terms.foldl add start).run
      = start.run >>= fun so => terms.foldlM (fun so term => do so.add (← term.run)) so := by
  induction terms generalizing start with
  | nil =>
    rw [List.foldl_nil]
    cases start.run <;> rfl
  | cons term rest ih =>
    rw [List.foldl_cons, ih, run]
    cases start.run with
    | error cause => rfl
    | ok so => rfl

theorem value_foldl_add : (terms.foldl add start).value = start.value + (terms.map value).sum := by
  induction terms generalizing start with
  | nil => simp
  | cons term rest ih => rw [List.foldl_cons, ih, value, List.map_cons, List.sum_cons, add_assoc]

theorem Exact.of_foldl_add (h : (terms.foldl add start).Exact) : start.Exact ∧ ∀ term ∈ terms, term.Exact := by
  induction terms generalizing start with
  | nil => exact ⟨h, by simp⟩
  | cons term rest ih =>
    obtain ⟨⟨hstart, hterm, -⟩, hrest⟩ := ih h
    exact ⟨hstart, List.forall_mem_cons.2 ⟨hterm, hrest⟩⟩

end Calculation

end TradeReport
