import Mathlib.Algebra.BigOperators.Ring.List
import Mathlib.Algebra.Order.BigOperators.Group.List
import Mathlib.Algebra.Order.Field.Basic
import Mathlib.Tactic.Linarith
import Mathlib.Tactic.Ring
import SneakySneaky.Foundation.Runs

/-! # Following a target

A follower goes a fraction of the way to its target at every step.  What is left of the way
after a run is the product of what its steps leave, and no more than the whole way divided
by one plus the sum of the fractions. -/

namespace SneakySneaky.Foundation

variable {K : Type*} [Field K]

def follow (target value rate : K) : K := value + (target - value) * rate

/-- The part of the way that is left. -/
def remaining (rates : List K) : K := (rates.map (1 - ·)).prod

@[simp] theorem remaining_nil : remaining ([] : List K) = 1 := rfl

@[simp] theorem remaining_cons (rate : K) (rates : List K) :
    remaining (rate :: rates) = (1 - rate) * remaining rates := by
  rw [remaining, List.map_cons, List.prod_cons, ← remaining]

theorem sub_follow (target value rate : K) :
    target - follow target value rate = (target - value) * (1 - rate) := by
  rw [follow]
  ring

theorem sub_run_follow (target value : K) (rates : List K) :
    target - run (follow target) value rates = (target - value) * remaining rates := by
  induction rates generalizing value with
  | nil => simp
  | cons rate rates inductionHypothesis =>
    rw [run_cons, inductionHypothesis, sub_follow, remaining_cons, mul_assoc]

section Ordered

variable [LinearOrder K] [IsStrictOrderedRing K]

/-- A follower stays between any bounds of its own and of its target. -/
theorem follow_le {target value rate bound : K} (valueBelow : value ≤ bound) (targetBelow : target ≤ bound)
    (nonneg : 0 ≤ rate) (le_one : rate ≤ 1) : follow target value rate ≤ bound := by
  have convex : bound - follow target value rate = (bound - value) * (1 - rate) + (bound - target) * rate := by
    rw [follow]
    ring
  have first := mul_nonneg (sub_nonneg.mpr valueBelow) (sub_nonneg.mpr le_one)
  have second := mul_nonneg (sub_nonneg.mpr targetBelow) nonneg
  linarith

theorem le_follow {target value rate bound : K} (valueAbove : bound ≤ value) (targetAbove : bound ≤ target)
    (nonneg : 0 ≤ rate) (le_one : rate ≤ 1) : bound ≤ follow target value rate := by
  have convex : follow target value rate - bound = (value - bound) * (1 - rate) + (target - bound) * rate := by
    rw [follow]
    ring
  have first := mul_nonneg (sub_nonneg.mpr valueAbove) (sub_nonneg.mpr le_one)
  have second := mul_nonneg (sub_nonneg.mpr targetAbove) nonneg
  linarith

theorem remaining_nonneg {rates : List K} (fractions : ∀ rate ∈ rates, 0 ≤ rate ∧ rate ≤ 1) :
    0 ≤ remaining rates := by
  induction rates with
  | nil => exact zero_le_one
  | cons rate rates inductionHypothesis =>
    obtain ⟨fraction, fractions⟩ := List.forall_mem_cons.mp fractions
    rw [remaining_cons]
    exact mul_nonneg (sub_nonneg.mpr fraction.2) (inductionHypothesis fractions)

theorem remaining_mul_le {rates : List K} (fractions : ∀ rate ∈ rates, 0 ≤ rate ∧ rate ≤ 1) :
    remaining rates * (1 + rates.sum) ≤ 1 := by
  induction rates with
  | nil => simp
  | cons rate rates inductionHypothesis =>
    obtain ⟨⟨nonneg, le_one⟩, fractions⟩ := List.forall_mem_cons.mp fractions
    have sum_nonneg : 0 ≤ rates.sum := List.sum_nonneg fun rate member => (fractions rate member).1
    -- One more step: (1 - r)(1 + r + s) is at most 1 + s.
    have step : (1 - rate) * (1 + (rate + rates.sum)) ≤ 1 + rates.sum := by
      have gap : 1 + rates.sum - (1 - rate) * (1 + (rate + rates.sum)) = rate * rate + rate * rates.sum := by ring
      have square := mul_self_nonneg rate
      have product := mul_nonneg nonneg sum_nonneg
      linarith
    calc remaining (rate :: rates) * (1 + (rate :: rates).sum)
        = remaining rates * ((1 - rate) * (1 + (rate + rates.sum))) := by
          rw [remaining_cons, List.sum_cons]
          ring
      _ ≤ remaining rates * (1 + rates.sum) := mul_le_mul_of_nonneg_left step (remaining_nonneg fractions)
      _ ≤ 1 := inductionHypothesis fractions

/-- The follower never passes its target, and gets near it in the sum of the fractions. -/
theorem abs_sub_run_follow_le (target value : K) {rates : List K}
    (fractions : ∀ rate ∈ rates, 0 ≤ rate ∧ rate ≤ 1) :
    |target - run (follow target) value rates| * (1 + rates.sum) ≤ |target - value| := by
  rw [sub_run_follow, abs_mul, abs_of_nonneg (remaining_nonneg fractions), mul_assoc]
  exact mul_le_of_le_one_right (abs_nonneg _) (remaining_mul_le fractions)

/-- What goes down at some pace until it is below a bound. -/
theorem run_le_max {σ ε : Type*} (step : σ → ε → σ) (value : σ → K) (pace : ε → K) (bound : K) (holds : σ → Prop)
    (keeps : ∀ state event, holds state → holds (step state event))
    (descends : ∀ state event, holds state → value (step state event) ≤ max bound (value state - pace event))
    {start : σ} (initially : holds start) {events : List ε} (forward : ∀ event ∈ events, 0 ≤ pace event) :
    value (run step start events) ≤ max bound (value start - (events.map pace).sum) := by
  induction events generalizing start with
  | nil => simp
  | cons event events inductionHypothesis =>
    obtain ⟨-, rest⟩ := List.forall_mem_cons.mp forward
    have later := inductionHypothesis (keeps start event initially) rest
    have now := descends start event initially
    have nonneg : 0 ≤ (events.map pace).sum := by
      refine List.sum_nonneg fun way member => ?_
      obtain ⟨event, visited, rfl⟩ := List.mem_map.mp member
      exact rest event visited
    rw [run_cons, List.map_cons, List.sum_cons]
    refine later.trans (max_le (le_max_left _ _) ?_)
    cases le_max_iff.mp now with
    | inl arrived => exact le_max_of_le_left (by linarith)
    | inr underWay => exact le_max_of_le_right (by linarith)

end Ordered

end SneakySneaky.Foundation
