import Mathlib.Tactic.NormNum
import SneakySneaky.Foundation.Metronome
import SneakySneaky.LevelComponents

/-! # Lasers

`Laser` and `BossLaser` switch their beams with one timer, a `Metronome`: the delay takes whole
frames, and a beat sets the timer back to zero.  The number of beats is the one that the
level data asks for only as long as the frames can be cut into enough groups, each longer than
the interval.  Times are rationals, as in exact arithmetic.

`Laser` also starts the alarm of its room, whose lights it then pulses for ten seconds. -/

namespace SneakySneaky

open SneakySneaky.Foundation

/-! ## The class -/

structure Laser where
  lightPulse : Bool
  lightTime : ℚ
  laserTime : ℚ
  laserInterval : ℚ
  laserDelay : ℚ
  modelEnabled : Bool
  deriving DecidableEq

namespace Laser

/-- The constructor, `LoadFromXML` and `DelayedStart`. -/
def loadFromXML (conversions : Conversions) (element : XMLElement) : Laser where
  lightPulse := false
  lightTime := 0
  laserTime := 0
  laserInterval := conversions.toFloat (element.getAttribute "interval")
  laserDelay := conversions.toFloat (element.getAttribute "delay")
  modelEnabled := false

/-- The part of `Update` that switches the beam, after the delay. -/
def switch (laser : Laser) (timeStep : ℚ) : Laser :=
  if 0 < laser.laserInterval then
    if laser.laserInterval < laser.laserTime + timeStep then
      { laser with modelEnabled := !laser.modelEnabled, laserTime := 0 }
    else { laser with laserTime := laser.laserTime + timeStep }
  else laser

/-- The part of `Update` that times the alarm. -/
def pulse (laser : Laser) (timeStep : ℚ) : Laser :=
  if !laser.lightPulse then laser
  else if 5 < laser.lightTime + timeStep * (1 / 2) then { laser with lightPulse := false, lightTime := 0 }
  else { laser with lightTime := laser.lightTime + timeStep * (1 / 2) }

def update (laser : Laser) (timeStep : ℚ) : Laser :=
  -- Nothing else happens during the delay.
  if 0 < laser.laserDelay then { laser with laserDelay := laser.laserDelay - timeStep }
  else (laser.switch timeStep).pulse timeStep

/-- The part of `HandleNodeCollision` that concerns the laser itself. -/
def touch (laser : Laser) (otherIsPerson : Bool) : Laser :=
  if !laser.modelEnabled then laser
  else if !otherIsPerson then laser
  else { laser with lightPulse := true }

end Laser

/-! ## Beams -/

/-- A component whose `Update` toggles a model whenever a timer beats. -/
structure Beam (σ : Type) where
  update : σ → ℚ → σ
  modelEnabled : σ → Bool
  timer : σ → Metronome ℚ
  timer_update : ∀ laser timeStep, timer (update laser timeStep) = (timer laser).step timeStep
  modelEnabled_update : ∀ laser timeStep,
    modelEnabled (update laser timeStep) = (modelEnabled laser ^^ (timer laser).beats timeStep)

namespace Laser

def timer (laser : Laser) : Metronome ℚ := ⟨laser.laserDelay, laser.laserTime, laser.laserInterval⟩

@[simp] theorem pulse_timer (laser : Laser) (timeStep : ℚ) : (laser.pulse timeStep).timer = laser.timer := by
  simp only [pulse]
  split
  · rfl
  · split <;> rfl

@[simp] theorem pulse_modelEnabled (laser : Laser) (timeStep : ℚ) :
    (laser.pulse timeStep).modelEnabled = laser.modelEnabled := by
  simp only [pulse]
  split
  · rfl
  · split <;> rfl

/-- After the delay the switch follows the timer. -/
theorem switch_eq {laser : Laser} (ended : ¬ 0 < laser.laserDelay) (timeStep : ℚ) :
    laser.switch timeStep =
      { laser with
        laserDelay := (laser.timer.step timeStep).delay
        laserTime := (laser.timer.step timeStep).time
        modelEnabled := laser.modelEnabled ^^ laser.timer.beats timeStep } := by
  simp only [switch, Metronome.step, Metronome.beats, timer, ended, if_false]
  by_cases positive : 0 < laser.laserInterval
  · by_cases passed : laser.laserInterval < laser.laserTime + timeStep
    · simp [positive, passed]
    · simp [positive, passed]
  · simp [positive]

def beam : Beam Laser where
  update := update
  modelEnabled := modelEnabled
  timer := timer
  timer_update laser timeStep := by
    by_cases delaying : 0 < laser.laserDelay
    · simp [update, Metronome.step, timer, delaying]
    · simp only [update, delaying, if_false, pulse_timer, switch_eq delaying]
      exact laser.timer.step_eta timeStep
  modelEnabled_update laser timeStep := by
    by_cases delaying : 0 < laser.laserDelay
    · simp [update, Metronome.beats, timer, delaying]
    · simp only [update, delaying, if_false, pulse_modelEnabled, switch_eq delaying]

end Laser

namespace BossLaser

def timer (laser : BossLaser) : Metronome ℚ := ⟨laser.laserDelay, laser.laserTime, laser.laserInterval⟩

theorem update_eq (laser : BossLaser) (timeStep : ℚ) :
    laser.update timeStep =
      { laser with
        laserDelay := (laser.timer.step timeStep).delay
        laserTime := (laser.timer.step timeStep).time
        modelEnabled := laser.modelEnabled ^^ laser.timer.beats timeStep } := by
  simp only [update, Metronome.step, Metronome.beats, timer]
  by_cases delaying : 0 < laser.laserDelay
  · simp [delaying]
  · by_cases positive : 0 < laser.laserInterval
    · by_cases passed : laser.laserInterval < laser.laserTime + timeStep
      · simp [delaying, positive, passed]
      · simp [delaying, positive, passed]
    · simp [delaying, positive]

def beam : Beam BossLaser where
  update := update
  modelEnabled := modelEnabled
  timer := timer
  timer_update laser timeStep := by
    rw [update_eq]
    exact laser.timer.step_eta timeStep
  modelEnabled_update laser timeStep := by
    rw [update_eq]

end BossLaser

/-! ## Toggles -/

namespace Beam

variable {σ : Type} (beam : Beam σ)

/-- How often the updates of a run have toggled the beam. -/
def toggles (laser : σ) (steps : List ℚ) : ℕ :=
  tally beam.update (fun laser timeStep =>
    if beam.modelEnabled (beam.update laser timeStep) = beam.modelEnabled laser then 0 else 1) laser steps

theorem toggles_eq_count (laser : σ) (steps : List ℚ) :
    beam.toggles laser steps = (beam.timer laser).count steps := by
  induction steps generalizing laser with
  | nil => rfl
  | cons timeStep steps inductionHypothesis =>
    have rest := inductionHypothesis (beam.update laser timeStep)
    rw [beam.timer_update] at rest
    simp only [toggles, Metronome.count, tally] at rest ⊢
    rw [rest, beam.modelEnabled_update]
    cases (beam.timer laser).beats timeStep with
    | true => simp
    | false => simp

end Beam

inductive LaserClass where
  | laser | bossLaser
  deriving DecidableEq

/-- A laser of a level file. -/
structure PlacedLaser where
  laserClass : LaserClass
  element : XMLElement

namespace PlacedLaser

variable (conversions : Conversions) (placed : PlacedLaser)

def interval : ℚ := conversions.toFloat (placed.element.getAttribute "interval")

def delay : ℚ := conversions.toFloat (placed.element.getAttribute "delay")

/-- How often the updates have toggled its beam. -/
def toggles (steps : List ℚ) : ℕ :=
  match placed.laserClass with
  | .laser => Laser.beam.toggles (Laser.loadFromXML conversions placed.element) steps
  | .bossLaser => BossLaser.beam.toggles (BossLaser.loadFromXML conversions placed.element) steps

def timer : Metronome ℚ := ⟨placed.delay conversions, 0, placed.interval conversions⟩

theorem toggles_eq_count (steps : List ℚ) :
    placed.toggles conversions steps = (placed.timer conversions).count steps := by
  obtain ⟨laserClass, element⟩ := placed
  cases laserClass with
  | laser => exact Laser.beam.toggles_eq_count _ steps
  | bossLaser => exact BossLaser.beam.toggles_eq_count _ steps

/-- The number of toggles differs by at most one from the number of intervals since the delay. -/
def KeepsPace (steps : List ℚ) : Prop :=
  |(placed.toggles conversions steps : ℤ) -
    ⌊(steps.sum - placed.delay conversions) / placed.interval conversions⌋| ≤ 1

instance (steps : List ℚ) : Decidable (placed.KeepsPace conversions steps) :=
  inferInstanceAs (Decidable (|(placed.toggles conversions steps : ℤ) -
    ⌊(steps.sum - placed.delay conversions) / placed.interval conversions⌋| ≤ 1))

/-- The frames after the one that ends the delay can be cut into groups that are each longer than the interval
    and, but for one, as many as the intervals since the delay. -/
def FramesSuffice (steps : List ℚ) : Prop :=
  ∃ groups, Metronome.CutsInto (placed.interval conversions)
      (Metronome.afterDelay (placed.delay conversions) steps) groups ∧
    ⌊(steps.sum - placed.delay conversions) / placed.interval conversions⌋ ≤ groups.length + 1

/-- A run of frames that goes on beyond the delay of a laser that has an interval. -/
structure Outlasted (steps : List ℚ) : Prop where
  positive : 0 < placed.interval conversions
  nonneg : 0 ≤ placed.delay conversions
  forward : ∀ timeStep ∈ steps, 0 < timeStep
  past : placed.delay conversions < steps.sum

instance (steps : List ℚ) : Decidable (placed.Outlasted conversions steps) :=
  decidable_of_iff (0 < placed.interval conversions ∧ 0 ≤ placed.delay conversions ∧
      (∀ timeStep ∈ steps, 0 < timeStep) ∧ placed.delay conversions < steps.sum)
    ⟨fun ⟨positive, nonneg, forward, past⟩ => ⟨positive, nonneg, forward, past⟩,
      fun outlasted => ⟨outlasted.positive, outlasted.nonneg, outlasted.forward, outlasted.past⟩⟩

variable {conversions placed} {steps : List ℚ}

theorem Outlasted.started (outlasted : placed.Outlasted conversions steps) : (placed.timer conversions).Started :=
  ⟨outlasted.positive, outlasted.nonneg, rfl⟩

theorem keepsPace_iff_onTime : placed.KeepsPace conversions steps ↔ (placed.timer conversions).OnTime steps := by
  rw [KeepsPace, toggles_eq_count]
  exact Iff.rfl

end PlacedLaser

/-! ## The beams keep pace as long as the frames suffice -/

/-- Both kinds of laser keep pace exactly when the frames can be cut into enough groups longer than the interval,
    so always as long as the longest frame is short enough.  Then runs of one length differ by at most two
    toggles, and any two lasers that have run for one length of time keep the phase that their intervals and
    delays give them, up to two intervals of either. -/
theorem lasers_paced_iff (conversions : Conversions) (placed placed' : PlacedLaser) (steps steps' : List ℚ)
    (outlasted : placed.Outlasted conversions steps) (outlasted' : placed'.Outlasted conversions steps')
    (same : steps.sum = steps'.sum) :
    (placed.KeepsPace conversions steps ↔ placed.FramesSuffice conversions steps) ∧
      (∀ longest, (∀ timeStep ∈ steps, timeStep ≤ longest) →
        (steps.sum - placed.delay conversions) * longest < placed.interval conversions * placed.interval conversions →
          placed.FramesSuffice conversions steps) ∧
      (placed.KeepsPace conversions steps → placed.KeepsPace conversions steps' →
        |(placed.toggles conversions steps : ℤ) - placed.toggles conversions steps'| ≤ 2) ∧
      (placed.KeepsPace conversions steps → placed'.KeepsPace conversions steps' →
        -(2 * placed.interval conversions) <
            (placed.delay conversions + placed.toggles conversions steps * placed.interval conversions) -
              (placed'.delay conversions + placed'.toggles conversions steps' * placed'.interval conversions) ∧
          (placed.delay conversions + placed.toggles conversions steps * placed.interval conversions) -
              (placed'.delay conversions + placed'.toggles conversions steps' * placed'.interval conversions) <
            2 * placed'.interval conversions) := by
  have suffices_iff : placed.KeepsPace conversions steps ↔ placed.FramesSuffice conversions steps :=
    PlacedLaser.keepsPace_iff_onTime.trans
      (outlasted.started.onTime_iff_groups outlasted.past outlasted.forward)
  refine ⟨suffices_iff, fun longest bounded short => ?_, fun keeps keeps' => ?_, fun keeps keeps' => ?_⟩
  · exact suffices_iff.mp (PlacedLaser.keepsPace_iff_onTime.mpr (outlasted.started.onTime_of_short outlasted.past
      (fun timeStep member => ⟨outlasted.forward timeStep member, bounded timeStep member⟩) short))
  · rw [PlacedLaser.toggles_eq_count, PlacedLaser.toggles_eq_count]
    exact (PlacedLaser.keepsPace_iff_onTime.mp keeps).same_sum (PlacedLaser.keepsPace_iff_onTime.mp keeps') same
  · have used := (PlacedLaser.keepsPace_iff_onTime.mp keeps).used outlasted.started outlasted.past outlasted.forward
    have used' :=
      (PlacedLaser.keepsPace_iff_onTime.mp keeps').used outlasted'.started outlasted'.past outlasted'.forward
    rw [PlacedLaser.toggles_eq_count, PlacedLaser.toggles_eq_count]
    simp only [PlacedLaser.timer] at used used' ⊢
    constructor
    · linarith
    · linarith

/-- A laser with an interval of one second and no delay, and how its texts are read. -/
def secondLaser : XMLElement := .mk "object" [("interaction", "Laser"), ("interval", "1")] "" []

def secondConversions : Conversions :=
  ⟨fun _ => false, fun text => if text = "1" then 1 else 0, fun _ => ⟨0, 0⟩, fun _ => ⟨0, 0, 0⟩⟩

/-- One that starts a second later. -/
def laterLaser : XMLElement :=
  .mk "object" [("interaction", "BossLaser"), ("interval", "1"), ("delay", "1")] "" []

/-- Two and a half seconds in frames of an eighth and of a quarter. -/
theorem lasers_paced_iff_twoLasers :
    let first : PlacedLaser := ⟨.laser, secondLaser⟩
    let second : PlacedLaser := ⟨.bossLaser, laterLaser⟩
    let eighths := List.replicate 20 (1 / 8 : ℚ)
    let quarters := List.replicate 10 (1 / 4 : ℚ)
    first.FramesSuffice secondConversions eighths ∧
      |(first.toggles secondConversions eighths : ℤ) - first.toggles secondConversions quarters| ≤ 2 ∧
      |((0 : ℚ) + first.toggles secondConversions eighths * 1) -
        (1 + second.toggles secondConversions quarters * 1)| < 2 := by
  intro first second eighths quarters
  have paced := lasers_paced_iff secondConversions first second eighths quarters (by decide +kernel)
    (by decide +kernel) (by decide +kernel)
  have suffice : first.FramesSuffice secondConversions eighths := paced.1.mp (by decide +kernel)
  have phase := paced.2.2.2 (by decide +kernel) (by decide +kernel)
  have firstTimes : first.delay secondConversions = 0 ∧ first.interval secondConversions = 1 := by decide +kernel
  have secondTimes : second.delay secondConversions = 1 ∧ second.interval secondConversions = 1 := by decide +kernel
  rw [firstTimes.1, firstTimes.2, secondTimes.1, secondTimes.2, mul_one (2 : ℚ)] at phase
  exact ⟨suffice, paced.2.2.1 (by decide +kernel) (by decide +kernel), abs_lt.mpr phase⟩

/-- At eight frames a second a laser with an interval of a second needs nine frames for a beat: it has toggled
    sixteen times after eighteen seconds. -/
theorem lasers_fall_behind :
    (List.replicate 144 (1 / 8 : ℚ)).sum = 18 ∧
      PlacedLaser.toggles secondConversions ⟨.laser, secondLaser⟩ (List.replicate 144 (1 / 8)) = 16 ∧
      ¬ PlacedLaser.KeepsPace secondConversions ⟨.laser, secondLaser⟩ (List.replicate 144 (1 / 8)) ∧
      PlacedLaser.toggles secondConversions ⟨.bossLaser, secondLaser⟩ (List.replicate 144 (1 / 8)) = 16 ∧
      ¬ PlacedLaser.KeepsPace secondConversions ⟨.bossLaser, secondLaser⟩ (List.replicate 144 (1 / 8)) := by
  decide +kernel

end SneakySneaky
