import Mathlib.Algebra.Order.Floor.Ring
import Mathlib.Algebra.Order.Field.Basic
import Mathlib.Tactic.Linarith
import Mathlib.Tactic.Ring
import SneakySneaky.Foundation.Runs

/-! # Timers that fire

A timer gathers the lengths of the steps and fires when it has reached its interval, at most
once a step.  A firing leaves some part of the excess on the timer: all of it, or nothing if
the timer is set back to zero.  Whatever the rest was lost. -/

namespace SneakySneaky.Foundation

structure Periodic (K : Type*) [Zero K] [LE K] where
  interval : K
  /-- What a firing leaves of the excess. -/
  keep : K → K
  keep_nonneg : ∀ excess, 0 ≤ excess → 0 ≤ keep excess
  keep_le : ∀ excess, 0 ≤ excess → keep excess ≤ excess

namespace Periodic

variable {K : Type*} [Field K] [LinearOrder K]

/-- The whole excess is kept. -/
def lossless (interval : K) : Periodic K := ⟨interval, id, fun _ nonneg => nonneg, fun _ _ => le_refl _⟩

/-- The timer is set back to zero. -/
def resetting (interval : K) : Periodic K := ⟨interval, fun _ => 0, fun _ _ => le_refl 0, fun _ nonneg => nonneg⟩

@[simp] theorem lossless_interval (interval : K) : (lossless interval).interval = interval := rfl

@[simp] theorem resetting_interval (interval : K) : (resetting interval).interval = interval := rfl

variable (periodic : Periodic K)

/-! ## One step -/

def fires (time timeStep : K) : Bool := periodic.interval ≤ time + timeStep

def step (time timeStep : K) : K :=
  if periodic.fires time timeStep then periodic.keep (time + timeStep - periodic.interval) else time + timeStep

def loss (time timeStep : K) : K :=
  if periodic.fires time timeStep then
    time + timeStep - periodic.interval - periodic.keep (time + timeStep - periodic.interval)
  else 0

variable {periodic} {time timeStep δ : K}

theorem fires_iff : periodic.fires time timeStep = true ↔ periodic.interval ≤ time + timeStep := decide_eq_true_iff

theorem step_firing (firing : periodic.fires time timeStep = true) :
    periodic.step time timeStep = periodic.keep (time + timeStep - periodic.interval) := by
  rw [step, if_pos firing]

theorem step_waiting (waiting : periodic.fires time timeStep = false) :
    periodic.step time timeStep = time + timeStep := by
  simp [step, waiting]

/-- What stays on the timer, what has fired and what is lost make up the step. -/
theorem step_conserves (periodic : Periodic K) (time timeStep : K) :
    periodic.step time timeStep + (if periodic.fires time timeStep then periodic.interval else 0) +
      periodic.loss time timeStep = time + timeStep := by
  cases firing : periodic.fires time timeStep with
  | true =>
    simp only [step, loss, firing, if_true]
    ring
  | false => simp [step, loss, firing]

variable [IsStrictOrderedRing K]

theorem step_nonneg (nonneg : 0 ≤ time) (forward : 0 ≤ timeStep) : 0 ≤ periodic.step time timeStep := by
  cases firing : periodic.fires time timeStep with
  | true =>
    rw [step_firing firing]
    exact periodic.keep_nonneg _ (sub_nonneg.mpr (fires_iff.mp firing))
  | false =>
    rw [step_waiting firing]
    exact add_nonneg nonneg forward

theorem loss_nonneg : 0 ≤ periodic.loss time timeStep := by
  cases firing : periodic.fires time timeStep with
  | true =>
    simp only [loss, firing, if_true]
    exact sub_nonneg.mpr (periodic.keep_le _ (sub_nonneg.mpr (fires_iff.mp firing)))
  | false => simp [loss, firing]

/-- A firing loses no more than its step if the interval was not over before. -/
theorem loss_le (within : time ≤ periodic.interval) :
    periodic.loss time timeStep ≤ if periodic.fires time timeStep then timeStep else 0 := by
  cases firing : periodic.fires time timeStep with
  | true =>
    have kept := periodic.keep_nonneg _ (sub_nonneg.mpr (fires_iff.mp firing))
    simp only [loss, firing, if_true]
    linarith
  | false => simp [loss, firing]

/-! ## Runs -/

/-- The number of firings of a run. -/
def count (periodic : Periodic K) (time : K) (steps : List K) : ℕ :=
  tally periodic.step (fun time timeStep => if periodic.fires time timeStep then 1 else 0) time steps

def lost (periodic : Periodic K) (time : K) (steps : List K) : K := tally periodic.step periodic.loss time steps

omit [IsStrictOrderedRing K] in
@[simp] theorem count_nil (periodic : Periodic K) (time : K) : periodic.count time [] = 0 := rfl

omit [IsStrictOrderedRing K] in
@[simp] theorem count_cons (periodic : Periodic K) (time timeStep : K) (steps : List K) :
    periodic.count time (timeStep :: steps) =
      (if periodic.fires time timeStep then 1 else 0) + periodic.count (periodic.step time timeStep) steps := rfl

/-- A step that also counts the firings. -/
def tick (periodic : Periodic K) (state : K × ℕ) (timeStep : K) : K × ℕ :=
  (periodic.step state.1 timeStep, state.2 + if periodic.fires state.1 timeStep then 1 else 0)

omit [IsStrictOrderedRing K] in
theorem run_tick (periodic : Periodic K) (time : K) (fired : ℕ) (steps : List K) :
    run periodic.tick (time, fired) steps = (run periodic.step time steps, fired + periodic.count time steps) := by
  induction steps generalizing time fired with
  | nil => rfl
  | cons timeStep steps inductionHypothesis =>
    rw [run_cons, tick, inductionHypothesis, run_cons, count_cons, add_assoc]

theorem run_conserves (periodic : Periodic K) (time : K) (steps : List K) :
    run periodic.step time steps + periodic.count time steps * periodic.interval + periodic.lost time steps =
      time + steps.sum := by
  induction steps generalizing time with
  | nil => simp [lost, tally]
  | cons timeStep steps inductionHypothesis =>
    have first := step_conserves periodic time timeStep
    have rest := inductionHypothesis (periodic.step time timeStep)
    simp only [lost, tally, run_cons, count_cons, List.sum_cons] at rest ⊢
    cases firing : periodic.fires time timeStep with
    | true =>
      simp only [firing, if_true] at first ⊢
      push_cast
      linarith
    | false =>
      simp only [firing, Bool.false_eq_true, if_false] at first ⊢
      push_cast
      linarith

theorem run_nonneg {steps : List K} (nonneg : 0 ≤ time) (forward : ∀ timeStep ∈ steps, 0 ≤ timeStep) :
    0 ≤ run periodic.step time steps := by
  have allowed : Meets periodic.step (fun _ timeStep => 0 ≤ timeStep) time steps := meets_of_forall time forward
  exact allowed.invariant (0 ≤ ·) (fun _ _ nonneg forward => step_nonneg nonneg forward) nonneg

theorem lost_nonneg (periodic : Periodic K) (time : K) (steps : List K) : 0 ≤ periodic.lost time steps := by
  induction steps generalizing time with
  | nil => exact le_refl 0
  | cons timeStep steps inductionHypothesis => exact add_nonneg loss_nonneg (inductionHypothesis _)

/-- There is an interval for every firing. -/
theorem count_mul_le (periodic : Periodic K) {steps : List K} (nonneg : 0 ≤ time)
    (forward : ∀ timeStep ∈ steps, 0 ≤ timeStep) :
    periodic.count time steps * periodic.interval ≤ time + steps.sum := by
  have conserved := run_conserves periodic time steps
  have left : 0 ≤ run periodic.step time steps := run_nonneg nonneg forward
  have lost := lost_nonneg periodic time steps
  linarith

/-! ## A timer set back to zero -/

omit [IsStrictOrderedRing K] in
theorem resetting_step_le {interval : K} (nonneg : 0 ≤ interval) (time timeStep : K) :
    (resetting interval).step time timeStep ≤ interval := by
  cases firing : (resetting interval).fires time timeStep with
  | true =>
    rw [step_firing firing]
    exact nonneg
  | false =>
    rw [step_waiting firing]
    exact (not_le.mp fun due => Bool.false_ne_true (firing.symm.trans (fires_iff.mpr due))).le

/-- Each firing is at most one step late. -/
theorem resetting_le_count {interval : K} {steps : List K} (nonneg : 0 ≤ interval) (within : time ≤ interval)
    (bounded : ∀ timeStep ∈ steps, timeStep ≤ δ) :
    time + steps.sum ≤
      ((resetting interval).count time steps + 1) * interval + (resetting interval).count time steps * δ := by
  induction steps generalizing time with
  | nil => simpa using within
  | cons timeStep steps inductionHypothesis =>
    obtain ⟨first, later⟩ := List.forall_mem_cons.mp bounded
    have rest := inductionHypothesis (resetting_step_le nonneg time timeStep) later
    have conserved := step_conserves (resetting interval) time timeStep
    have loss : (resetting interval).loss time timeStep ≤ _ := loss_le within
    rw [count_cons, List.sum_cons]
    cases firing : (resetting interval).fires time timeStep with
    | true =>
      simp only [firing, if_true, resetting_interval] at conserved loss ⊢
      push_cast
      linarith
    | false =>
      simp only [firing, Bool.false_eq_true, if_false, add_zero] at conserved loss ⊢
      push_cast
      linarith

/-! ## A timer that keeps the excess -/

omit [IsStrictOrderedRing K] in
theorem lossless_loss (interval time timeStep : K) : (lossless interval).loss time timeStep = 0 := by
  simp [loss, lossless]

omit [IsStrictOrderedRing K] in
theorem lossless_lost (interval time : K) (steps : List K) : (lossless interval).lost time steps = 0 := by
  induction steps generalizing time with
  | nil => rfl
  | cons timeStep steps inductionHypothesis =>
    show (lossless interval).loss time timeStep + (lossless interval).lost _ steps = 0
    rw [lossless_loss, inductionHypothesis, add_zero]

/-- Steps no longer than the interval leave less than an interval on the timer. -/
theorem lossless_run_lt {interval : K} {steps : List K} (before : time < interval)
    (bounded : ∀ timeStep ∈ steps, timeStep ≤ interval) : run (lossless interval).step time steps < interval := by
  have allowed : Meets (lossless interval).step (fun _ timeStep => timeStep ≤ interval) time steps :=
    meets_of_forall time bounded
  refine allowed.invariant (· < interval) ?_ before
  intro time timeStep before bounded
  cases firing : (lossless interval).fires time timeStep with
  | true =>
    rw [step_firing firing]
    show time + timeStep - interval < interval
    linarith
  | false =>
    rw [step_waiting firing]
    exact not_le.mp fun due => Bool.false_ne_true (firing.symm.trans (fires_iff.mpr due))

section Floor

variable [FloorRing K]

/-- A timer that keeps the excess never fires early, and has fired as often as there were intervals if no
    step is longer than one. -/
theorem lossless_count {interval : K} {steps : List K} (positive : 0 < interval) (nonneg : 0 ≤ time)
    (before : time < interval) (forward : ∀ timeStep ∈ steps, 0 ≤ timeStep) :
    ((lossless interval).count time steps : ℤ) ≤ ⌊(time + steps.sum) / interval⌋ ∧
      ((∀ timeStep ∈ steps, timeStep ≤ interval) →
        ((lossless interval).count time steps : ℤ) = ⌊(time + steps.sum) / interval⌋) := by
  have conserved := run_conserves (lossless interval) time steps
  rw [lossless_lost, add_zero, lossless_interval] at conserved
  constructor
  · rw [Int.le_floor, le_div_iff₀ positive]
    exact_mod_cast count_mul_le (lossless interval) nonneg forward
  · intro bounded
    have left : 0 ≤ run (lossless interval).step time steps := run_nonneg nonneg forward
    have below := lossless_run_lt before bounded
    rw [eq_comm, Int.floor_eq_iff, le_div_iff₀ positive, div_lt_iff₀ positive]
    push_cast
    constructor
    · linarith
    · linarith

end Floor

end Periodic

end SneakySneaky.Foundation
