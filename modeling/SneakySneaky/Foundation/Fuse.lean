import Mathlib.Algebra.Order.Field.Basic
import Mathlib.Tactic.Linarith

/-! # Fuses

A fuse burns down and signals on its way: first after a wait of its own, and then whenever a
fixed share of what was left at the last signal has burned.  Signals therefore come ever
faster.  Both are noticed only from one step to the next, so a signal comes late by the steps
it takes; the delays add up, but what is left of each shrinks by the same factor as the fuse,
and they stay below a multiple of one step. -/

namespace SneakySneaky.Foundation

structure Fuse (K : Type*) where
  left : K
  wait : K

namespace Fuse

variable {K : Type*} [Field K] [LinearOrder K]

/-- A step that signals does not count towards the next wait. -/
def burn (share : K) (fuse : Fuse K) (timeStep : K) : Fuse K where
  left := fuse.left - timeStep
  wait := if fuse.wait ≤ 0 then fuse.left * share else fuse.wait - timeStep

def signals (fuse : Fuse K) : ℕ := if fuse.wait ≤ 0 then 1 else 0

/-- What is left at the end of the wait, after some signals on a fuse that had `whole` left at the first. -/
structure Paced (share bound delay whole : K) (count : ℕ) (fuse : Fuse K) : Prop where
  upper : fuse.left - fuse.wait ≤ whole * (1 - share) ^ count
  lower : whole * (1 - share) ^ count ≤ fuse.left - fuse.wait + delay * (1 - (1 - share) ^ count)
  waits : -bound ≤ fuse.wait
  /-- What was left at the last signal. -/
  last : ∀ earlier, count = earlier + 1 → fuse.left ≤ whole * (1 - share) ^ earlier

variable {share bound delay whole : K} {count : ℕ} {fuse : Fuse K}

theorem paced_start [IsStrictOrderedRing K] (nonneg : 0 ≤ bound) (waiting : 0 ≤ fuse.wait) :
    Paced share bound delay (fuse.left - fuse.wait) 0 fuse := by
  refine ⟨by simp, by simp, by linarith, fun earlier impossible => ?_⟩
  cases impossible

section

variable [IsStrictOrderedRing K]

/-- `delay` is the one that a signal's own delay makes up for. -/
theorem Paced.burn (paced : Paced share bound delay whole count fuse) (balance : delay * share = bound * (2 - share))
    (positive : 0 ≤ share) (part : share ≤ 1) (burning : 0 ≤ fuse.left) {timeStep : K} (nonneg : 0 ≤ timeStep)
    (short : timeStep ≤ bound) :
    Paced share bound delay whole (count + fuse.signals) (fuse.burn share timeStep) := by
  obtain ⟨upper, lower, waits, last⟩ := paced
  by_cases due : fuse.wait ≤ 0
  · rw [signals, if_pos due]
    have atSignal : fuse.left ≤ whole * (1 - share) ^ count := by linarith
    have shrinks := mul_le_mul_of_nonneg_right atSignal (sub_nonneg.mpr part)
    have late : fuse.left - fuse.wait - bound ≤ fuse.left := by linarith
    have shrinksLate := mul_le_mul_of_nonneg_right late (sub_nonneg.mpr part)
    have shrinksLower := mul_le_mul_of_nonneg_right lower (sub_nonneg.mpr part)
    have waitsNext : 0 ≤ fuse.left * share := mul_nonneg burning positive
    constructor
    · rw [Fuse.burn, if_pos due, pow_succ]
      linarith
    · rw [Fuse.burn, if_pos due, pow_succ]
      linarith
    · rw [Fuse.burn, if_pos due]
      linarith
    · intro earlier same
      obtain rfl : count = earlier := by omega
      rw [Fuse.burn]
      linarith
  · rw [signals, if_neg due, Nat.add_zero]
    rw [not_le] at due
    refine ⟨?_, ?_, ?_, ?_⟩
    · rw [Fuse.burn, if_neg due.not_ge]
      linarith
    · rw [Fuse.burn, if_neg due.not_ge]
      linarith
    · rw [Fuse.burn, if_neg due.not_ge]
      linarith
    · intro earlier same
      have before := last earlier same
      rw [Fuse.burn]
      linarith

/-- At most this much has burned before the next signal. -/
theorem Paced.le_left (paced : Paced share bound delay whole count fuse) (part : share ≤ 1) (late : 0 ≤ delay) :
    whole * (1 - share) ^ count - delay - bound ≤ fuse.left := by
  have remains : 0 ≤ delay * (1 - share) ^ count := mul_nonneg late (pow_nonneg (sub_nonneg.mpr part) count)
  obtain ⟨-, lower, waits, -⟩ := paced
  linarith

end

end Fuse

end SneakySneaky.Foundation
