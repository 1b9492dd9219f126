import Mathlib.Algebra.Order.Field.Basic
import Mathlib.Tactic.NormNum
import SneakySneaky.EndLevelLatch
import SneakySneaky.Frame

/-! # Time and score of a playthrough

Every call of `EndLevel` adds to the totals, also the one of a death and one that comes
after another, and nothing ever sets them back. -/

namespace SneakySneaky

open SneakySneaky.Foundation

/-! ## What a call is worth -/

namespace EndLevelCall

/-- The call completes the level: it is the first in the level's life, and the player lives. -/
def completes (call : EndLevelCall) : Bool := decide (call.state.gameState = .playing) && !call.call.died

/-- The score before it is truncated to an integer. -/
def worth (call : EndLevelCall) : ℚ :=
  match call.state.scene.level with
  | none => 0
  | some level =>
    ((300 - call.state.levelTime) + (level.guards.count true : ℚ) * -100 +
      (level.items.inventory.itemCount : ℚ) * 50) * 5

theorem score_eq_toInt (call : EndLevelCall) : call.score = Game.toInt call.worth := by
  simp only [score, worth]
  cases call.state.scene.level with
  | none => simp [Game.toInt]
  | some level => rfl

end EndLevelCall

/-- Truncation towards 0 gives 0 on the open interval between -1 and 1. -/
theorem toInt_eq_zero_iff (value : ℚ) : Game.toInt value = 0 ↔ |value| < 1 := by
  have positive : 0 < (value.den : ℚ) := by exact_mod_cast value.den_pos
  have magnitude : |value| = (value.num.natAbs : ℚ) / value.den := by
    conv_lhs => rw [← Rat.num_div_den value, abs_div, abs_of_pos positive]
    rw [Nat.cast_natAbs, Int.cast_abs]
  rw [magnitude, div_lt_one positive, Nat.cast_lt, Game.toInt, ← Int.natAbs_eq_zero, Int.natAbs_tdiv,
    Int.natAbs_natCast]
  exact Nat.div_eq_zero_iff_lt value.den_pos

theorem EndLevelCall.score_eq_zero_iff (call : EndLevelCall) : call.score = 0 ↔ |call.worth| < 1 := by
  rw [call.score_eq_toInt, toInt_eq_zero_iff]

/-! ## Completed levels -/

namespace Game

variable {world : World}

theorem foldl_addTo_score (totals : Totals) (calls : List EndLevelCall) :
    (calls.foldl EndLevelCall.addTo totals).score = totals.score + (calls.map EndLevelCall.score).sum := by
  induction calls generalizing totals with
  | nil => simp
  | cons call calls inductionHypothesis =>
    rw [List.foldl_cons, inductionHypothesis, EndLevelCall.addTo_score, List.map_cons, List.sum_cons, add_assoc]

theorem step_totalScore (world : World) (game : Game) (event : Event) :
    (game.step world event).totalScore =
      game.totalScore + ((game.endLevelCalls world event).map EndLevelCall.score).sum := by
  have totals := congrArg Totals.score (step_totals world game event)
  rw [foldl_addTo_score] at totals
  exact totals

theorem endLevelCalls_length (world : World) (game : Game) (event : Event) :
    game.endLevelCalls world event = [] ∨ ∃ call, game.endLevelCalls world event = [call] := by
  simp only [endLevelCalls]
  split
  · cases event with
    | frame input =>
      simp only
      split
      · exact .inr ⟨_, rfl⟩
      · exact .inl rfl
    | level event =>
      simp only
      split
      · exact .inl rfl
      · split
        · exact .inr ⟨_, rfl⟩
        · exact .inl rfl
        · exact .inl rfl
    | postRenderUpdate => exact .inl rfl
  · exact .inl rfl

/-- The scores of the calls that complete a level. -/
def completedScore (world : World) (game : Game) (event : Event) : ℤ :=
  (((game.endLevelCalls world event).filter EndLevelCall.completes).map EndLevelCall.score).sum

/-- `EndLevel` is called to complete the level, or when the level is worth nothing. -/
def CountsOnce (world : World) (game : Game) (event : Event) : Prop :=
  ∀ call ∈ game.endLevelCalls world event, call.completes = true ∨ |call.worth| < 1

theorem step_counts_iff (world : World) (game : Game) (event : Event) :
    (game.step world event).totalScore = game.totalScore + game.completedScore world event ↔
      CountsOnce world game event := by
  rw [step_totalScore, add_right_inj, completedScore]
  rcases endLevelCalls_length world game event with none | ⟨call, one⟩
  · simp [CountsOnce, none]
  · cases completes : call.completes with
    | true => simp [CountsOnce, one, completes]
    | false => simp [CountsOnce, one, completes, EndLevelCall.score_eq_zero_iff]

/-- At every point of a run the score has grown by the scores of the completed levels, and no death
    has changed it. -/
def ScoresCompletions (world : World) (start : Game) (events : List Event) : Prop :=
  (∀ before, before <+: events →
      (run (step world) start before).totalScore =
        start.totalScore + tally (step world) (completedScore world) start before) ∧
    ∀ before event, before ++ [event] <+: events →
      let game := run (step world) start before
      (∃ call ∈ game.endLevelCalls world event, call.call.died = true) →
        (game.step world event).totalScore = game.totalScore

end Game

/-- The score counts the completed levels, each once, just when every other call of `EndLevel` comes
    when the level is worth nothing. -/
theorem scores_completions_iff (world : World) (start : Game) (events : List Event) :
    Game.ScoresCompletions world start events ↔
      Meets (Game.step world) (Game.CountsOnce world) start events := by
  have grows := @tally_iff_meets _ _ (Game.step world) _ _ Game.totalScore (Game.completedScore world) start events
  simp only [Game.step_counts_iff] at grows
  constructor
  · exact fun scores => grows.mp scores.1
  · intro counts
    refine ⟨grows.mpr counts, ?_⟩
    intro before event isPrefix game died
    obtain ⟨rest, rfl⟩ := isPrefix
    have countsHere : Game.CountsOnce world game event :=
      (meets_append.mp (meets_append.mp counts).1).2.1
    obtain ⟨call, called, died⟩ := died
    rw [Game.step_totalScore]
    rcases Game.endLevelCalls_length world game event with none | ⟨only, one⟩
    · simp [none]
    · rw [one, List.mem_singleton] at called
      subst called
      have worthless : |call.worth| < 1 :=
        (countsHere call (by simp [one])).resolve_left (by simp [EndLevelCall.completes, died])
      simp [one, call.score_eq_zero_iff.mpr worthless]

open WrightLevel in
/-- The player walks into the guard two seconds into the level, and is given 1490 for it. -/
theorem death_scores :
    ¬ Game.ScoresCompletions (world allSounds) Game.create
      (enterLevel ++ [.level .beginPhysicsStep] ++ touchGuard) := by
  intro scores
  have counted := scores.1 _ (List.prefix_refl _)
  exact absurd counted (by decide +kernel)

end SneakySneaky
