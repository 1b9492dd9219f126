import SneakySneaky.EndLevelLatch
import SneakySneaky.Frame

/-! # Playthroughs

A playthrough begins when a frame goes from the menu, the intro or the final screen into a
level.  The totals of the game are compared with those of the playthrough, which start at
zero there. -/

namespace SneakySneaky

open SneakySneaky.Foundation

namespace Game

/-- The frame starts play: it reaches a level from a state outside of one. -/
def begins (world : World) (game : Game) : Event → Bool
  | .frame input =>
    decide (game.status = .running) && game.betweenSteps && !game.gameState.inLevel &&
      decide ((game.afterMovies world input).gameState = .playing)
  | .level _ | .postRenderUpdate => false

end Game

/-- The game, and the totals of the playthrough that began last. -/
structure Playthrough where
  game : Game
  totals : Totals

namespace Playthrough

def create : Playthrough := ⟨.create, .zero⟩

def step (world : World) (state : Playthrough) (event : Event) : Playthrough where
  game := state.game.step world event
  totals := (state.game.endLevelCalls world event).foldl EndLevelCall.addTo
    (if state.game.begins world event then .zero else state.totals)

/-- When a playthrough begins no level has been ended before. -/
def First (world : World) (state : Playthrough) (event : Event) : Prop :=
  state.game.begins world event = true → state.game.totals.ends = []

instance (world : World) (state : Playthrough) (event : Event) : Decidable (First world state event) :=
  inferInstanceAs (Decidable (state.game.begins world event = true → state.game.totals.ends = []))

theorem run_game (world : World) (state : Playthrough) (events : List Event) :
    (run (step world) state events).game = run (Game.step world) state.game events :=
  run_view Playthrough.game (fun _ _ => rfl) state events

/-! ## Sums -/

/-- Time and score agree. -/
structure SameSums (totals totals' : Totals) : Prop where
  time : totals.time = totals'.time
  score : totals.score = totals'.score

theorem SameSums.addTo {totals totals' : Totals} (same : SameSums totals totals') (call : EndLevelCall) :
    SameSums (EndLevelCall.addTo totals call) (EndLevelCall.addTo totals' call) := by
  simp only [EndLevelCall.addTo]
  cases call.state.scene.level with
  | none => exact same
  | some level => exact ⟨congrArg (· + _) same.time, congrArg (· + _) same.score⟩

theorem SameSums.foldl {totals totals' : Totals} (same : SameSums totals totals') (calls : List EndLevelCall) :
    SameSums (calls.foldl EndLevelCall.addTo totals) (calls.foldl EndLevelCall.addTo totals') := by
  induction calls generalizing totals totals' with
  | nil => exact same
  | cons call calls inductionHypothesis => exact inductionHypothesis (same.addTo call)

/-- What has been added is recorded. -/
theorem foldl_addTo_unrecorded (totals : Totals) (calls : List EndLevelCall)
    (none : (calls.foldl EndLevelCall.addTo totals).ends = []) :
    calls.foldl EndLevelCall.addTo totals = totals := by
  induction calls generalizing totals with
  | nil => rfl
  | cons call calls inductionHypothesis =>
    have rest := inductionHypothesis (EndLevelCall.addTo totals call) none
    rw [List.foldl_cons, rest] at none ⊢
    simp only [EndLevelCall.addTo] at none ⊢
    cases found : call.state.scene.level with
    | none => rfl
    | some level => simp [found] at none

/-! ## The invariant -/

/-- The totals are those of the playthrough, and zero as long as no level has been ended. -/
structure Own (state : Playthrough) : Prop where
  same : SameSums state.game.totals state.totals
  unended : state.game.totals.ends = [] → SameSums state.game.totals .zero

theorem Own.step {world : World} {state : Playthrough} {event : Event} (own : Own state)
    (first : First world state event) : Own (state.step world event) := by
  constructor
  · simp only [Playthrough.step, Game.step_totals]
    split
    · rename_i begins
      exact (own.unended (first begins)).foldl _
    · exact own.same.foldl _
  · simp only [Playthrough.step, Game.step_totals]
    intro none
    have unchanged := foldl_addTo_unrecorded _ _ none
    rw [unchanged] at none ⊢
    exact own.unended none

theorem create_own : Own create := ⟨⟨rfl, rfl⟩, fun _ => ⟨rfl, rfl⟩⟩

end Playthrough

/-- If no level has been ended when a playthrough begins, the totals are zero then, and those of the
    playthrough alone ever after. -/
theorem playthroughs_apart (world : World) (events : List Event)
    (first : Meets (Playthrough.step world) (Playthrough.First world) .create events) :
    (∀ before event, before ++ [event] <+: events →
        let game := run (Game.step world) Game.create before
        game.begins world event = true → game.totalTime = 0 ∧ game.totalScore = 0) ∧
      ∀ before, before <+: events →
        let game := run (Game.step world) Game.create before
        let own := (run (Playthrough.step world) .create before).totals
        game.totalTime = own.time ∧ game.totalScore = own.score := by
  -- The invariant holds after every prefix, whose steps meet the condition too.
  have own : ∀ before, before <+: events → Playthrough.Own (run (Playthrough.step world) .create before) := by
    rintro before ⟨rest, rfl⟩
    exact (meets_append.mp first).1.invariant Playthrough.Own (fun _ _ own first => own.step first)
      Playthrough.create_own
  constructor
  · intro before event isPrefix game begins
    obtain ⟨rest, rfl⟩ := isPrefix
    have firstHere : Playthrough.First world (run (Playthrough.step world) .create before) event :=
      (meets_append.mp (meets_append.mp first).1).2.1
    have ownHere := own before ((List.prefix_append before [event]).trans (List.prefix_append _ rest))
    simp only [Playthrough.First, Playthrough.run_game] at firstHere
    have unended := ownHere.unended (by rw [Playthrough.run_game]; exact firstHere begins)
    rw [Playthrough.run_game] at unended
    exact ⟨unended.time, unended.score⟩
  · intro before isPrefix game totals
    have same := (own before isPrefix).same
    rw [Playthrough.run_game] at same
    exact ⟨same.time, same.score⟩

namespace WrightLevel

/-- Without a frame of the credits they are over at once. -/
def shortCredits : World := { world allSounds with creditsFrame := fun _ => false }

/-- The puzzle is solved, its dialogue ends the level, and space goes on to the credits and on to the
    final screen. -/
def finishGame : List Event :=
  enterLevel ++ solvePuzzle ++ [.level .endPhysicsStep] ++ idleUpdates 9 ++ [frame (some .space)]

end WrightLevel

open WrightLevel in
/-- Space on the final screen begins a playthrough with the totals of the one before. -/
theorem second_playthrough_inherits :
    let game := run (Game.step shortCredits) Game.create finishGame
    game.gameState = .finished ∧ game.begins shortCredits (frame (some .space)) = true ∧
      game.totalTime ≠ 0 ∧ game.totalScore ≠ 0 := by
  decide +kernel

open WrightLevel in
theorem playthroughs_apart_first :
    let game := run (Game.step shortCredits) Game.create finishGame
    let own := (run (Playthrough.step shortCredits) .create finishGame).totals
    game.gameState = .finished ∧ game.totalTime = own.time ∧ game.totalScore = own.score := by
  intro game own
  have apart := playthroughs_apart shortCredits finishGame (by decide +kernel)
  exact ⟨by decide +kernel, apart.2 finishGame (List.prefix_refl _)⟩

end SneakySneaky
