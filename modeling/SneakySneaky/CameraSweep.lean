import Mathlib.Data.Rat.Floor
import Mathlib.Tactic.Linarith
import SneakySneaky.Foundation.Runs

/-! # The sweep of a security camera

`Update` turns the camera by its speed and toggles the direction whenever the camera stands
at or beyond an edge of its arc.  The direction is toggled, not set: a camera that is still
beyond the edge after the update that follows a reversal turns outwards again.  Whether that
happens depends on the lengths of consecutive frames alone.

The search for the player and the pitch of the camera are left out. -/

namespace SneakySneaky

open SneakySneaky.Foundation

/-! ## The class -/

structure SecurityCamera where
  sweepingBack : Bool
  yaw : ℚ
  deriving DecidableEq

namespace SecurityCamera

/-- The constructor. -/
def create : SecurityCamera := ⟨false, 0⟩

/-- The part of `Update` that turns the camera. -/
def update (camera : SecurityCamera) (timeStep : ℚ) : SecurityCamera :=
  let yaw := camera.yaw + (if camera.sweepingBack then -1 else 1) * 10 * timeStep
  { yaw := yaw
    sweepingBack := if 45 ≤ |yaw| then !camera.sweepingBack else camera.sweepingBack }

/-! ## The arc -/

/-- Beyond an edge the camera is on its way back. -/
structure HeadsInward (camera : SecurityCamera) : Prop where
  top : 45 ≤ camera.yaw → camera.sweepingBack = true
  bottom : camera.yaw ≤ -45 → camera.sweepingBack = false

/-- What an update in a run of timesteps is meant to do to the camera. -/
structure KeepsToArc (steps : List ℚ) (camera : SecurityCamera) (timeStep : ℚ) : Prop where
  heads : (camera.update timeStep).HeadsInward
  bounded : ∀ longest, (∀ step ∈ steps, step ≤ longest) → |(camera.update timeStep).yaw| < 45 + 10 * longest
  /-- A camera beyond an edge next reverses at the other edge. -/
  reversesAtBottom : 45 ≤ camera.yaw → (camera.update timeStep).sweepingBack ≠ camera.sweepingBack →
    (camera.update timeStep).yaw ≤ -45
  reversesAtTop : camera.yaw ≤ -45 → (camera.update timeStep).sweepingBack ≠ camera.sweepingBack →
    45 ≤ (camera.update timeStep).yaw

/-- The step turns the camera far enough to bring it back inside, if it is not inside. -/
def Returns (camera : SecurityCamera) (timeStep : ℚ) : Prop := |camera.yaw| < 45 + 10 * timeStep

theorem create_headsInward : create.HeadsInward := by
  constructor
  · intro beyond
    exact absurd beyond (by norm_num [create])
  · intro _
    rfl

/-- The two kinds of update: the camera turns outwards from inside the arc, or back from outside. -/
theorem update_yaw (camera : SecurityCamera) (timeStep : ℚ) :
    (camera.sweepingBack = false ∧ (camera.update timeStep).yaw = camera.yaw + 10 * timeStep) ∨
      (camera.sweepingBack = true ∧ (camera.update timeStep).yaw = camera.yaw - 10 * timeStep) := by
  cases direction : camera.sweepingBack with
  | false =>
    apply Or.inl
    simp [update, direction]
  | true =>
    apply Or.inr
    simp only [update, direction, if_true, true_and]
    ring

theorem update_sweepingBack (camera : SecurityCamera) (timeStep : ℚ) :
    (camera.update timeStep).sweepingBack =
      if 45 ≤ |(camera.update timeStep).yaw| then !camera.sweepingBack else camera.sweepingBack := by
  rw [update]

/-- An update ends on the way back, or inside, unless it ends beyond the edge that it turned away from. -/
theorem update_headsInward_iff (camera : SecurityCamera) (timeStep : ℚ) :
    (camera.update timeStep).HeadsInward ↔
      (camera.sweepingBack = false → -45 < (camera.update timeStep).yaw) ∧
        (camera.sweepingBack = true → (camera.update timeStep).yaw < 45) := by
  have reverses := camera.update_sweepingBack timeStep
  constructor
  · intro heads
    constructor
    · intro forward
      apply lt_of_not_ge
      intro low
      have kept := heads.bottom low
      rw [reverses, if_pos (le_abs.mpr (.inr (by linarith))), forward] at kept
      cases kept
    · intro back
      apply lt_of_not_ge
      intro high
      have kept := heads.top high
      rw [reverses, if_pos (le_abs.mpr (.inl high)), back] at kept
      cases kept
  · rintro ⟨forward, back⟩
    constructor
    · intro high
      rw [reverses, if_pos (le_abs.mpr (.inl high))]
      cases direction : camera.sweepingBack with
      | false => rfl
      | true => exact absurd (back direction) (not_lt.mpr high)
    · intro low
      rw [reverses, if_pos (le_abs.mpr (.inr (by linarith)))]
      cases direction : camera.sweepingBack with
      | false => exact absurd (forward direction) (not_lt.mpr low)
      | true => rfl

variable {camera : SecurityCamera} {timeStep : ℚ}

theorem HeadsInward.below_of_forward (inward : camera.HeadsInward) (forward : camera.sweepingBack = false) :
    camera.yaw < 45 := by
  apply lt_of_not_ge
  intro high
  rw [inward.top high] at forward
  cases forward

theorem HeadsInward.above_of_back (inward : camera.HeadsInward) (back : camera.sweepingBack = true) :
    -45 < camera.yaw := by
  apply lt_of_not_ge
  intro low
  rw [inward.bottom low] at back
  cases back

/-- From a camera on its way back, an update leads to one just when the step is long enough. -/
theorem HeadsInward.update_iff (inward : camera.HeadsInward) (positive : 0 < timeStep) :
    (camera.update timeStep).HeadsInward ↔ camera.Returns timeStep := by
  rw [update_headsInward_iff, Returns, abs_lt]
  cases camera.update_yaw timeStep with
  | inl outwards =>
    obtain ⟨forward, yaw⟩ := outwards
    have below := inward.below_of_forward forward
    rw [yaw, forward]
    constructor
    · intro stays
      have inside := stays.1 rfl
      constructor <;> linarith
    · intro returns
      exact ⟨fun _ => by linarith [returns.1], fun other => absurd other (by decide)⟩
  | inr backwards =>
    obtain ⟨back, yaw⟩ := backwards
    have above := inward.above_of_back back
    rw [yaw, back]
    constructor
    · intro stays
      have inside := stays.2 rfl
      constructor <;> linarith
    · intro returns
      exact ⟨fun other => absurd other (by decide), fun _ => by linarith [returns.2]⟩

/-- A camera that comes back inside in time never leaves the arc by more than one step. -/
theorem HeadsInward.bounded (inward : camera.HeadsInward) (positive : 0 < timeStep)
    (returns : camera.Returns timeStep) : |(camera.update timeStep).yaw| < 45 + 10 * timeStep := by
  have stays := (update_headsInward_iff camera timeStep).mp ((inward.update_iff positive).mpr returns)
  rw [Returns, abs_lt] at returns
  rw [abs_lt]
  cases camera.update_yaw timeStep with
  | inl outwards =>
    obtain ⟨forward, yaw⟩ := outwards
    have inside := stays.1 forward
    have below := inward.below_of_forward forward
    constructor <;> linarith
  | inr backwards =>
    obtain ⟨back, yaw⟩ := backwards
    have inside := stays.2 back
    have above := inward.above_of_back back
    constructor <;> linarith

theorem reverses_iff : (camera.update timeStep).sweepingBack ≠ camera.sweepingBack ↔
    45 ≤ |(camera.update timeStep).yaw| := by
  rw [update_sweepingBack]
  by_cases beyond : 45 ≤ |(camera.update timeStep).yaw|
  · simp [beyond]
  · simp [beyond]

theorem HeadsInward.keepsToArc_iff {steps : List ℚ} (inward : camera.HeadsInward) (positive : 0 < timeStep)
    (taken : timeStep ∈ steps) : KeepsToArc steps camera timeStep ↔ camera.Returns timeStep := by
  constructor
  · intro keeps
    exact (inward.update_iff positive).mp keeps.heads
  · intro returns
    have heads := (inward.update_iff positive).mpr returns
    have stays := (update_headsInward_iff camera timeStep).mp heads
    constructor
    · exact heads
    · intro longest bound
      have step := inward.bounded positive returns
      have longer := bound timeStep taken
      linarith
    · intro high reversed
      have back := stays.2 (inward.top high)
      cases le_abs.mp (reverses_iff.mp reversed) with
      | inl top => exact absurd back (not_lt.mpr top)
      | inr bottom => linarith
    · intro low reversed
      have forward := stays.1 (inward.bottom low)
      cases le_abs.mp (reverses_iff.mp reversed) with
      | inl top => exact top
      | inr bottom => linarith

end SecurityCamera

/-! ## Runs -/

/-- The camera keeps to its arc in every update of a run exactly when every update that begins with
    the camera beyond an edge is long enough to bring it back inside. -/
theorem camera_keeps_to_arc_iff (steps : List ℚ) (positive : ∀ timeStep ∈ steps, 0 < timeStep) :
    Meets SecurityCamera.update (SecurityCamera.KeepsToArc steps) SecurityCamera.create steps ↔
      Meets SecurityCamera.update SecurityCamera.Returns SecurityCamera.create steps := by
  apply meets_congr_of_allowed (fun timeStep => timeStep ∈ steps) SecurityCamera.HeadsInward
  · intro camera timeStep _ _ keeps
    exact keeps.heads
  · intro camera timeStep taken inward
    exact inward.keepsToArc_iff (positive timeStep taken) taken
  · exact SecurityCamera.create_headsInward
  · exact fun _ taken => taken

/-- Frames of seven hundredths of a second, for a sweep to both edges of the arc. -/
def swingFrames : List ℚ := List.replicate 200 (7 / 100)

instance (camera : SecurityCamera) (timeStep : ℚ) : Decidable (camera.Returns timeStep) :=
  inferInstanceAs (Decidable (|camera.yaw| < 45 + 10 * timeStep))

/-- The camera reverses at either edge, half a degree beyond it, and keeps to its arc. -/
theorem camera_keeps_to_arc_iff_swing :
    run SecurityCamera.update .create (swingFrames.take 65) = ⟨true, 91 / 2⟩ ∧
      run SecurityCamera.update .create (swingFrames.take 195) = ⟨false, -(91 / 2)⟩ ∧
      Meets SecurityCamera.update (SecurityCamera.KeepsToArc swingFrames) SecurityCamera.create swingFrames := by
  have positive : ∀ timeStep ∈ swingFrames, 0 < timeStep := by decide +kernel
  refine ⟨by decide +kernel, by decide +kernel, ?_⟩
  exact (camera_keeps_to_arc_iff swingFrames positive).mpr (by decide +kernel)

/-- Frames of at most 1/10 s: the camera reverses at 45.5 degrees, then comes a frame of 1/25 s. -/
def edgeFrames : List ℚ := List.replicate 44 (1 / 10) ++ [1 / 20, 1 / 10, 1 / 25, 1 / 10]

/-- The frame of 1/25 s leaves the camera beyond the edge and turns it outwards: after the next frame
    it is further out than 45 degrees and one frame of 1/10 s. -/
theorem camera_drifts_out :
    (∀ timeStep ∈ edgeFrames, 0 < timeStep ∧ timeStep ≤ 1 / 10) ∧
      run SecurityCamera.update .create (edgeFrames.take 47) = ⟨false, 451 / 10⟩ ∧
      45 + 10 * (1 / 10) < (run SecurityCamera.update .create edgeFrames).yaw ∧
      ¬ Meets SecurityCamera.update (SecurityCamera.KeepsToArc edgeFrames) SecurityCamera.create edgeFrames := by
  have outwards : run SecurityCamera.update .create (edgeFrames.take 47) = ⟨false, 451 / 10⟩ := by
    decide +kernel
  refine ⟨by decide +kernel, outwards, by decide +kernel, ?_⟩
  intro keeps
  rw [show edgeFrames = edgeFrames.take 46 ++ ([1 / 25] ++ [1 / 10]) by decide +kernel] at keeps
  have heads := (meets_append.mp (meets_append.mp keeps).2).1.1.heads
  rw [show (run SecurityCamera.update .create (edgeFrames.take 46)).update (1 / 25) = ⟨false, 451 / 10⟩ by
    decide +kernel] at heads
  exact absurd (heads.top (by norm_num)) (by decide)

end SneakySneaky
