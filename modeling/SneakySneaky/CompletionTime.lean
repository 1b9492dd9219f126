import SneakySneaky.Game

/-! # Completion times

The screen after a level and the screen after the credits print a time as minutes, seconds
and hundredths.  Each number is truncated from the whole time and reduced by the larger ones;
the hundredths are not reduced by the minutes, so that the times of a minute and more are
printed with thousands of hundredths too many.  Two printed times still compare as the times
do.

The texts around the numbers are left out. -/

namespace SneakySneaky

/-! ## The printed numbers -/

/-- The values of `m`, `s` and `ms`. -/
structure PrintedTime where
  m : ℤ
  s : ℤ
  ms : ℤ
  deriving DecidableEq

def PrintedTime.of (time : ℚ) : PrintedTime :=
  let m := Game.toInt (time / 60)
  let s := Game.toInt time - m * 60
  let ms := Game.toInt (time * 100) - s * 100
  ⟨m, s, ms⟩

namespace Game

/-- The time that `EndLevel` prints for a completed level. -/
def completionTime (game : Game) : PrintedTime := .of game.levelTime

/-- The time that `HandleUpdate` prints after the credits. -/
def totalCompletionTime (game : Game) : PrintedTime := .of game.totalTime

end Game

namespace PrintedTime

/-- The numbers make up a time, in whole hundredths. -/
structure Denotes (printed : PrintedTime) (time : ℚ) : Prop where
  seconds : 0 ≤ printed.s ∧ printed.s < 60
  hundredths : 0 ≤ printed.ms ∧ printed.ms < 100
  whole : 6000 * printed.m + 100 * printed.s + printed.ms = ⌊100 * time⌋

/-- The order in which one reads the numbers. -/
def Precedes (printed printed' : PrintedTime) : Prop :=
  printed.m < printed'.m ∨ printed.m = printed'.m ∧
    (printed.s < printed'.s ∨ printed.s = printed'.s ∧ printed.ms < printed'.ms)

variable {time time' : ℚ}

theorem of_nonneg (nonneg : 0 ≤ time) :
    of time = ⟨⌊time / 60⌋, ⌊time⌋ - ⌊time / 60⌋ * 60, ⌊100 * time⌋ - (⌊time⌋ - ⌊time / 60⌋ * 60) * 100⟩ := by
  have minutes : 0 ≤ time / 60 := div_nonneg nonneg (by norm_num)
  have hundredths : 0 ≤ time * 100 := mul_nonneg nonneg (by norm_num)
  simp only [of, Game.toInt_of_nonneg minutes, Game.toInt_of_nonneg nonneg, Game.toInt_of_nonneg hundredths]
  rw [mul_comm time 100]

/-- The whole seconds of a time lie in its minute, and its hundredths in its second. -/
theorem floor_bounds (time : ℚ) :
    (60 * ⌊time / 60⌋ ≤ ⌊time⌋ ∧ ⌊time⌋ < 60 * ⌊time / 60⌋ + 60) ∧
      (100 * ⌊time⌋ ≤ ⌊100 * time⌋ ∧ ⌊100 * time⌋ < 100 * ⌊time⌋ + 100) := by
  have minuteLow := Int.floor_le (time / 60)
  have minuteHigh := Int.lt_floor_add_one (time / 60)
  have secondLow := Int.floor_le time
  have secondHigh := Int.lt_floor_add_one time
  refine ⟨⟨?_, ?_⟩, ?_, ?_⟩
  · rw [Int.le_floor]
    push_cast
    linarith
  · rw [Int.floor_lt]
    push_cast
    linarith
  · rw [Int.le_floor]
    push_cast
    linarith
  · rw [Int.floor_lt]
    push_cast
    linarith

theorem denotes_iff (nonneg : 0 ≤ time) : (of time).Denotes time ↔ time < 60 := by
  obtain ⟨minute, second⟩ := floor_bounds time
  have early : time < 60 ↔ ⌊time / 60⌋ < 1 := by
    rw [Int.floor_lt, Int.cast_one, div_lt_one (by norm_num)]
  have passed : 0 ≤ ⌊time / 60⌋ := Int.floor_nonneg.mpr (div_nonneg nonneg (by norm_num))
  rw [of_nonneg nonneg, early]
  constructor
  · intro denotes
    have hundredths := denotes.hundredths.2
    simp only at hundredths
    omega
  · intro first
    constructor
    · simp only
      omega
    · simp only
      omega
    · simp only
      omega

theorem precedes_iff (nonneg : 0 ≤ time) (nonneg' : 0 ≤ time') (differ : of time ≠ of time') :
    (of time).Precedes (of time') ↔ time < time' := by
  rw [of_nonneg nonneg, of_nonneg nonneg'] at *
  simp only [Precedes]
  constructor
  · intro precedes
    apply lt_of_not_ge
    intro later
    have minutes : ⌊time' / 60⌋ ≤ ⌊time / 60⌋ := Int.floor_mono (by linarith)
    have seconds : ⌊time'⌋ ≤ ⌊time⌋ := Int.floor_mono later
    have hundredths : ⌊100 * time'⌋ ≤ ⌊100 * time⌋ := Int.floor_mono (by linarith)
    omega
  · intro earlier
    have minutes : ⌊time / 60⌋ ≤ ⌊time' / 60⌋ := Int.floor_mono (by linarith)
    have seconds : ⌊time⌋ ≤ ⌊time'⌋ := Int.floor_mono earlier.le
    have hundredths : ⌊100 * time⌋ ≤ ⌊100 * time'⌋ := Int.floor_mono (by linarith)
    simp only [ne_eq, PrintedTime.mk.injEq] at differ
    omega

end PrintedTime

/-- Both screens print a time right exactly when it is less than a minute; different times always
    compare as printed. -/
theorem completion_times_right_iff (game : Game) (level : 0 ≤ game.levelTime) (total : 0 ≤ game.totalTime) :
    (game.completionTime.Denotes game.levelTime ↔ game.levelTime < 60) ∧
      (game.totalCompletionTime.Denotes game.totalTime ↔ game.totalTime < 60) ∧
      ∀ time time', 0 ≤ time → 0 ≤ time' → PrintedTime.of time ≠ PrintedTime.of time' →
        ((PrintedTime.of time).Precedes (PrintedTime.of time') ↔ time < time') := by
  refine ⟨PrintedTime.denotes_iff level, PrintedTime.denotes_iff total, ?_⟩
  intro time time' nonneg nonneg' differ
  exact PrintedTime.precedes_iff nonneg nonneg' differ

/-- A level of half a minute that brings the total to a minute and a half. -/
theorem completion_times_right_iff_halfMinute :
    let game := { Game.create with levelTime := 30, totalTime := 90 }
    (0 ≤ game.levelTime ∧ 0 ≤ game.totalTime) ∧
      (game.completionTime.Denotes game.levelTime ↔ game.levelTime < 60) ∧
      (game.totalCompletionTime.Denotes game.totalTime ↔ game.totalTime < 60) ∧
      ∀ time time', 0 ≤ time → 0 ≤ time' → PrintedTime.of time ≠ PrintedTime.of time' →
        ((PrintedTime.of time).Precedes (PrintedTime.of time') ↔ time < time') :=
  have level : (0 : ℚ) ≤ { Game.create with levelTime := 30, totalTime := 90 }.levelTime := by decide +kernel
  have total : (0 : ℚ) ≤ { Game.create with levelTime := 30, totalTime := 90 }.totalTime := by decide +kernel
  ⟨⟨level, total⟩, completion_times_right_iff { Game.create with levelTime := 30, totalTime := 90 } level total⟩

/-- A minute and a half is printed as "01:30.6000", on either screen. -/
theorem minute_and_half_printed :
    { Game.create with levelTime := 90 }.completionTime = ⟨1, 30, 6000⟩ ∧
      ¬ { Game.create with levelTime := 90 }.completionTime.Denotes 90 ∧
      { Game.create with totalTime := 90 }.totalCompletionTime = ⟨1, 30, 6000⟩ ∧
      ¬ { Game.create with totalTime := 90 }.totalCompletionTime.Denotes 90 := by
  have printed : PrintedTime.of 90 = ⟨1, 30, 6000⟩ := by decide +kernel
  have wrong : ¬ (PrintedTime.of 90).Denotes 90 := by
    intro denotes
    have hundredths := denotes.hundredths.2
    rw [printed] at hundredths
    exact absurd hundredths (by decide)
  exact ⟨printed, wrong, printed, wrong⟩

end SneakySneaky
