import Mathlib.Data.Rat.Floor
import Mathlib.Tactic.Linarith
import SneakySneaky.EndLevelLatch
import SneakySneaky.Frame
import SneakySneaky.Progression

/-! # Movies

The logo of the menu, the intro and the credits keep their frame and timer in statics that
outlive the state.  They start again at zero when the state is entered only because the
movie was played to its end before, which `space` can prevent. -/

namespace SneakySneaky

open SneakySneaky.Foundation

/-! ## The catch-up loop -/

namespace Movie

def start : Movie := ⟨0, 0⟩

/-- Frames and timer make up the time that has passed. -/
def InSync (frameRate elapsed : ℚ) (movie : Movie) : Prop := movie.frame * frameRate + movie.frameTimer = elapsed

variable {frameRate elapsed : ℚ} {movie : Movie}

theorem start_inSync (frameRate : ℚ) : InSync frameRate 0 start := by
  simp [InSync, start]

theorem InSync.addTime (sync : InSync frameRate elapsed movie) (timeStep : ℚ) :
    InSync frameRate (elapsed + timeStep) (movie.addTime timeStep) := by
  simp only [InSync, Movie.addTime] at sync ⊢
  linarith

theorem InSync.catchUp (sync : InSync frameRate elapsed movie) (count : ℕ) :
    InSync frameRate elapsed (movie.catchUp frameRate count) := by
  induction count generalizing movie with
  | zero => exact sync
  | succ count inductionHypothesis =>
    simp only [Movie.catchUp]
    split
    · refine inductionHypothesis ?_
      simp only [InSync, Int.cast_add, Int.cast_one] at sync ⊢
      linarith
    · exact sync

theorem catchUp_nonneg (nonneg : 0 ≤ movie.frameTimer) (count : ℕ) :
    0 ≤ (movie.catchUp frameRate count).frameTimer := by
  induction count generalizing movie with
  | zero => exact nonneg
  | succ count inductionHypothesis =>
    simp only [Movie.catchUp]
    split
    · exact inductionHypothesis (by simp only; linarith)
    · exact nonneg

theorem catchUp_lt (count : ℕ) (enough : movie.frameTimer < (count + 1) * frameRate) :
    (movie.catchUp frameRate count).frameTimer < frameRate := by
  induction count generalizing movie with
  | zero => simpa [Movie.catchUp] using enough
  | succ count inductionHypothesis =>
    simp only [Movie.catchUp]
    split
    · refine inductionHypothesis ?_
      push_cast at enough
      simp only
      linarith
    · exact not_le.mp (by assumption)

theorem catchUpAll_lt (positive : 0 < frameRate) (movie : Movie) :
    (movie.catchUpAll frameRate).frameTimer < frameRate := by
  refine catchUp_lt _ ?_
  have below := Int.lt_floor_add_one (movie.frameTimer / frameRate)
  rw [div_lt_iff₀ positive] at below
  refine lt_of_lt_of_le below (mul_le_mul_of_nonneg_right ?_ positive.le)
  have rounded : ⌊movie.frameTimer / frameRate⌋ ≤ (⌊movie.frameTimer / frameRate⌋.toNat : ℤ) := Int.self_le_toNat _
  exact_mod_cast Int.add_le_add_right rounded 1

/-- After the loop the frame is the whole number of periods that have passed. -/
theorem InSync.catchUpAll_frame (sync : InSync frameRate elapsed movie) (positive : 0 < frameRate)
    (due : frameRate ≤ movie.frameTimer) : (movie.catchUpAll frameRate).frame = ⌊elapsed / frameRate⌋ := by
  have nonneg : 0 ≤ (movie.catchUpAll frameRate).frameTimer := catchUp_nonneg (by linarith) _
  have small := catchUpAll_lt positive movie
  have caught : InSync frameRate elapsed (movie.catchUpAll frameRate) := sync.catchUp _
  rw [InSync] at caught
  refine (Int.floor_eq_iff.mpr ⟨?_, ?_⟩).symm
  · rw [le_div_iff₀ positive]
    linarith
  · rw [div_lt_iff₀ positive]
    linarith

end Movie

/-! ## The three reels -/

inductive Reel where
  | logo | intro | credits
  deriving DecidableEq

namespace Reel

def state : Reel → GameState
  | .logo => .menu
  | .intro => .intro
  | .credits => .credits

def frameRate : Reel → ℚ
  | .logo => Movie.titleFrameRate
  | .intro | .credits => Movie.frameRate

theorem frameRate_pos (reel : Reel) : 0 < reel.frameRate := by
  cases reel with
  | logo => norm_num [frameRate, Movie.titleFrameRate, Movie.frameRate]
  | intro | credits => norm_num [frameRate, Movie.frameRate]

end Reel

namespace Game

def movie (game : Game) : Reel → Movie
  | .logo => game.titleMovie
  | .intro => game.introMovie
  | .credits => game.creditsMovie

variable (world : World) (input : Input) (game : Game)

/-- The state in which the code of a movie is reached. -/
def showing : Reel → Game
  | .logo => game.afterSpace world input
  | .intro | .credits => game.afterMenu world input

def plays (reel : Reel) : Bool :=
  (game.showing world input reel).status.returned &&
    decide ((game.showing world input reel).gameState = reel.state)

theorem plays_iff (reel : Reel) :
    game.plays world input reel = true ↔ (game.showing world input reel).status.returned = true ∧
      (game.showing world input reel).gameState = reel.state := by
  simp [plays]

/-- The number of the frame that an update asks the resource cache for. -/
def frameRequest (reel : Reel) : Option ℤ :=
  let before := (game.showing world input reel).movie reel
  let movie := before.addTime input.timeStep
  if game.plays world input reel = true ∧ (reel = .logo → 0 ≤ before.frame) ∧ reel.frameRate ≤ movie.frameTimer then
    some (movie.catchUpAll reel.frameRate).frame
  else none

/-- The stages of an event, each with the states before and after it. -/
def stages : Event → List (Game × Game)
  | .frame input =>
    if game.status = .running ∧ game.betweenSteps = true then
      [(game, game.afterSpace world input), (game.afterSpace world input, game.afterMenu world input),
        (game.afterMenu world input, game.afterMovies world input),
        (game.afterMovies world input, game.step world (.frame input))]
    else []
  | .level event => [(game, game.step world (.level event))]
  | .postRenderUpdate => [(game, game.step world .postRenderUpdate)]

end Game

/-- The game, and the time spent in the state of each reel since it was last entered. -/
structure Timed where
  game : Game
  elapsed : Reel → ℚ

namespace Timed

def create : Timed := ⟨.create, fun _ => 0⟩

/-- The time starts anew when the state is entered. -/
def enter (reel : Reel) (before after : Game) (elapsed : ℚ) : ℚ :=
  if after.gameState = reel.state ∧ before.gameState ≠ reel.state then 0 else elapsed

/-- The time when the code of the movie has been reached, with this update if it is. -/
def played (world : World) (input : Input) (state : Timed) (reel : Reel) : ℚ :=
  let space := state.game.afterSpace world input
  let entered := enter reel state.game space (state.elapsed reel)
  let entered := if reel = .logo then entered else enter reel space (state.game.afterMenu world input) entered
  if state.game.plays world input reel then entered + input.timeStep else entered

def step (world : World) (state : Timed) (event : Event) : Timed where
  game := state.game.step world event
  elapsed reel :=
    match event with
    | .frame input =>
      if state.game.status = .running ∧ state.game.betweenSteps = true then
        let menu := state.game.afterMenu world input
        let movies := state.game.afterMovies world input
        let played := state.played world input reel
        let entered := if reel = .logo then enter reel (state.game.afterSpace world input) menu played else played
        enter reel movies (state.game.step world event) (enter reel menu movies entered)
      else state.elapsed reel
    | _ => enter reel state.game (state.game.step world event) (state.elapsed reel)

end Timed

/-! ## What the stages do to states and movies -/

namespace Game

variable {world : World} {input : Input} {game : Game}

@[simp] theorem loadLevel_movie (world : World) (game : Game) (reel : Reel) :
    (game.loadLevel world).movie reel = game.movie reel := by
  have result := loadLevel_result world game
  generalize game.loadLevel world = after at result ⊢
  cases result with
  | credits missing | hang found | enter found read => cases reel <;> rfl

theorem loadLevel_ne (world : World) (game : Game) {state : GameState} (notPlaying : state ≠ .playing)
    (notCredits : state ≠ .credits) : (game.loadLevel world).gameState ≠ state := by
  rcases loadLevel_gameState world game with playing | credits
  · rw [playing]
    exact notPlaying.symm
  · rw [credits]
    exact notCredits.symm

def pressesSpace (input : Input) : Bool := input.joystickButton || input.keyPress .space

/-- `space` leaves the credits for the menu, and the other states but the level and the menu by
    `LoadLevel`. -/
theorem afterSpace_gameState (world : World) (input : Input) (game : Game) :
    (game.afterSpace world input).gameState = game.gameState ∨
      pressesSpace input = true ∧
        ((game.gameState = .credits ∧ (game.afterSpace world input).gameState = .menu) ∨
          (game.gameState ≠ .credits ∧ (game.afterSpace world input).gameState ≠ .menu)) := by
  rw [afterSpace, ← (handleExitKey_adjusts input game).gameState]
  have result := handleSpace_result world input (game.handleExitKey input)
  generalize ((game.handleExitKey input).handleSpace world input).1 = after at result ⊢
  cases result with
  | unused => exact .inl rfl
  | leaveCredits pressed credits => exact .inr ⟨pressed, .inl ⟨credits, rfl⟩⟩
  | load pressed elsewhere => exact .inr ⟨pressed, .inr ⟨elsewhere, loadLevel_ne world _ (by simp) (by simp)⟩⟩

theorem handleExitKey_movie (input : Input) (game : Game) (reel : Reel) :
    (game.handleExitKey input).movie reel = game.movie reel := by
  obtain ⟨status, exitTimer, result, -⟩ := handleExitKey_eq input game
  rw [result]
  cases reel <;> rfl

theorem afterSpace_movie (world : World) (input : Input) (game : Game) (reel : Reel) :
    (game.afterSpace world input).movie reel = game.movie reel := by
  rw [← handleExitKey_movie input game reel, afterSpace]
  have result := handleSpace_result world input (game.handleExitKey input)
  generalize ((game.handleExitKey input).handleSpace world input).1 = after at result ⊢
  cases result with
  | unused => rfl
  | leaveCredits pressed credits => cases reel <;> rfl
  | load pressed elsewhere => exact loadLevel_movie world _ reel

theorem leaveMenu_movie (spacePressed : Bool) (reel : Reel) :
    (game.leaveMenu world input spacePressed).movie reel = game.movie reel := by
  have result := leaveMenu_result world input game spacePressed
  generalize game.leaveMenu world input spacePressed = after at result ⊢
  cases result with
  | stay => rfl
  | movie shows => cases reel <;> rfl
  | load =>
    rw [loadLevel_movie]
    cases reel <;> rfl

theorem leaveMenu_gameState (game : Game) (spacePressed : Bool) :
    (game.leaveMenu world input spacePressed).gameState = game.gameState ∨
      (game.leaveMenu world input spacePressed).gameState ≠ .menu := by
  have result := leaveMenu_result world input game spacePressed
  generalize game.leaveMenu world input spacePressed = after at result ⊢
  cases result with
  | stay => exact .inl rfl
  | movie shows => rcases shows with rfl | rfl <;> simp
  | load => exact .inr (loadLevel_ne world _ (by simp) (by simp))

theorem afterMenu_eq (elsewhere : (game.afterSpace world input).status.returned = false ∨
    (game.afterSpace world input).gameState ≠ .menu) :
    game.afterMenu world input = game.afterSpace world input := by
  simp only [afterMenu, andThen]
  rcases elsewhere with stopped | elsewhere
  · rw [if_neg (by simp [stopped])]
  · simp [handleMenu, elsewhere]

theorem afterMenu_movie_of_ne (world : World) (input : Input) (game : Game) {reel : Reel} (other : reel ≠ .logo) :
    (game.afterMenu world input).movie reel = (game.afterSpace world input).movie reel := by
  simp only [afterMenu, andThen]
  split
  · simp only [handleMenu]
    split
    · obtain ⟨titleMovie, result⟩ := advanceTitle_eq world input (game.afterSpace world input).buildMenu
      rw [leaveMenu_movie, result]
      cases reel with
      | logo => exact absurd rfl other
      | intro | credits => rfl
    · rfl
  · rfl

theorem afterMenu_gameState (world : World) (input : Input) (game : Game) :
    (game.afterMenu world input).gameState = (game.afterSpace world input).gameState ∨
      ((game.afterSpace world input).gameState = .menu ∧ (game.afterMenu world input).gameState ≠ .menu) := by
  simp only [afterMenu, andThen]
  split
  · simp only [handleMenu]
    split
    · rename_i menu
      have still : (((game.afterSpace world input).buildMenu).advanceTitle world input).gameState = .menu :=
        (advanceTitle_gameState input _).trans menu
      rcases leaveMenu_gameState _ (game.spacePressed world input) with
        same | left
      · exact .inl (same.trans (still.trans menu.symm))
      · exact .inr ⟨menu, left⟩
    · exact .inl rfl
  · exact .inl rfl

theorem handleMovies_movie_of_ne (world : World) (input : Input) (game : Game) {reel : Reel}
    (other : game.gameState ≠ reel.state ∨ reel = .logo) :
    (game.handleMovies world input).movie reel = game.movie reel := by
  have result := handleMovies_result world input game
  generalize game.handleMovies world input = after at result ⊢
  cases result with
  | goOn intro credits | crash _ _ intro credits =>
    cases reel with
    | logo => rfl
    | intro => exact intro (other.resolve_right (by simp))
    | credits => exact credits (other.resolve_right (by simp))
  | introOver playing =>
    rw [loadLevel_movie]
    cases reel with
    | logo | credits => rfl
    | intro => exact absurd playing (other.resolve_right (by simp))
  | creditsOver playing =>
    cases reel with
    | logo | intro => rfl
    | credits => exact absurd playing (other.resolve_right (by simp))

theorem handleMovies_gameState (world : World) (input : Input) (game : Game) :
    (game.handleMovies world input).gameState = game.gameState ∨
      (game.gameState = .intro ∨ game.gameState = .credits) ∧
        (game.handleMovies world input).gameState ≠ .menu ∧ (game.handleMovies world input).gameState ≠ .intro := by
  have result := handleMovies_result world input game
  generalize game.handleMovies world input = after at result ⊢
  cases result with
  | goOn intro credits => exact .inl rfl
  | crash plays missing intro credits => exact .inl rfl
  | introOver intro =>
    exact .inr ⟨.inl intro, loadLevel_ne world _ (by simp) (by simp), loadLevel_ne world _ (by simp) (by simp)⟩
  | creditsOver credits => exact .inr ⟨.inr credits, by simp, by simp⟩

theorem endLevel_movie (caller : EndCaller) (call : EndCall) (reel : Reel) :
    (game.endLevel world caller call).movie reel = game.movie reel := by
  have result := endLevel_result world game caller call
  generalize game.endLevel world caller call = after at result ⊢
  cases result with
  | noPlayer missing => cases reel <;> rfl
  | load found =>
    rw [loadLevel_movie]
    cases reel <;> rfl
  | disable found => cases reel <;> rfl

theorem endLevel_gameState (game : Game) (caller : EndCaller) (call : EndCall) :
    (game.endLevel world caller call).gameState = game.gameState ∨
      (game.endLevel world caller call).gameState ≠ .menu := by
  have result := endLevel_result world game caller call
  generalize game.endLevel world caller call = after at result ⊢
  cases result with
  | noPlayer missing => exact .inl rfl
  | load found => exact .inr (loadLevel_ne world _ (by simp) (by simp))
  | disable found =>
    refine .inr ?_
    simp only [disable]
    split <;> simp

/-- Movies and state as before, or a level was being played and something else than the menu
    follows. -/
structure Continues (game game' : Game) : Prop where
  movie : ∀ reel, game'.movie reel = game.movie reel
  gameState : game'.gameState = game.gameState ∨ (game.gameState.inLevel = true ∧ game'.gameState ≠ .menu)

theorem Continues.same {game game' : Game} (movie : ∀ reel, game'.movie reel = game.movie reel)
    (gameState : game'.gameState = game.gameState) : Continues game game' := ⟨movie, .inl gameState⟩

theorem Continues.trans {first second third : Game} (left : Continues first second)
    (right : Continues second third) : Continues first third := by
  refine ⟨fun reel => (right.movie reel).trans (left.movie reel), ?_⟩
  rcases right.gameState with same | ⟨inside, notMenu⟩
  · rw [same]
    exact left.gameState
  · refine .inr ⟨?_, notMenu⟩
    rcases left.gameState with same | ⟨inside, -⟩
    · exact same ▸ inside
    · exact inside

theorem Continues.andThen {start game : Game} {next : Game → Game} (before : Continues start game)
    (after : Continues game (next game)) : Continues start (game.andThen next) := by
  simp only [Game.andThen]
  split
  · exact before.trans after
  · exact before

theorem loadLevel_continues (world : World) (inside : game.gameState.inLevel = true) :
    Continues game (game.loadLevel world) :=
  ⟨loadLevel_movie world game, .inr ⟨inside, loadLevel_ne world game (by simp) (by simp)⟩⟩

theorem endLevel_continues (inside : game.gameState.inLevel = true) (caller : EndCaller) (call : EndCall) :
    Continues game (game.endLevel world caller call) := by
  refine ⟨endLevel_movie caller call, ?_⟩
  exact (endLevel_gameState game caller call).imp id fun notMenu => ⟨inside, notMenu⟩

theorem handleDeveloper_continues (world : World) (input : Input) (game : Game) :
    Continues game (game.handleDeveloper world input) := by
  have inLevel : ∀ before : Game, before.gameState = .playing → before.gameState.inLevel = true := by
    intro before playing
    rw [playing]
    rfl
  by_cases developerMode : game.developerMode = true
  · rw [handleDeveloper_developerMode world input developerMode]
    have toggled : Continues game (game.toggleDebug input) := .same (fun reel => by cases reel <;> rfl) rfl
    have reloaded : Continues (game.toggleDebug input) ((game.toggleDebug input).handleReload world input) := by
      simp only [handleReload]
      split
      · rename_i playing
        exact loadLevel_continues world (inLevel _ playing.1)
      · exact .same (fun _ => rfl) rfl
    have next : ∀ before : Game, Continues before (before.handleNext world input) := by
      intro before
      simp only [handleNext]
      split
      · rename_i playing
        exact endLevel_continues (inLevel _ playing.1) _ _
      · exact .same (fun _ => rfl) rfl
    have crash : ∀ before : Game, Continues before (before.handleCrash input) := by
      intro before
      rcases handleCrash_cases input before with same | ⟨-, crashed⟩
      · rw [same]
        exact .same (fun _ => rfl) rfl
      · rw [crashed]
        exact .same (fun reel => by cases reel <;> rfl) rfl
    have unlock : ∀ before : Game, Continues before (before.handleUnlock input) := by
      intro before
      obtain ⟨items, result⟩ := handleUnlock_eq input before
      rw [result]
      exact .same (fun reel => by cases reel <;> rfl) rfl
    exact (((toggled.trans reloaded).andThen (next _)).andThen (crash _)).andThen (unlock _)
  · simp only [handleDeveloper, if_neg developerMode]
    split <;> exact .same (fun reel => by cases reel <;> rfl) rfl

/-- The last stage of a frame. -/
theorem handleUpdate_continues (world : World) (input : Input) (game : Game) :
    Continues (game.afterMovies world input) (game.handleUpdate world input) := by
  have cheat : ∀ before : Game, Continues before (before.handleCheat input) := by
    intro before
    rcases handleCheat_cases input before with ⟨_, _, result, -⟩ | ⟨-, -, result⟩
    · rw [result]
      exact .same (fun reel => by cases reel <;> rfl) rfl
    · rw [result]
      exact .same (fun reel => by cases reel <;> rfl) rfl
  rw [handleUpdate_eq]
  exact (Continues.andThen (.same (fun _ => rfl) rfl) (handleDeveloper_continues world input _)).andThen (cheat _)

/-- An event other than a frame. -/
theorem step_continues (placed : Placed world game) {event : Event} (notFrame : ∀ input, event ≠ .frame input) :
    Continues game (game.step world event) := by
  have result := step_result world game event
  generalize game.step world event = after at result ⊢
  cases result with
  | frame running input => exact absurd rfl (notFrame input)
  | @inLevel running event level found =>
    have inside := placed.inLevel level found
    have updated : Continues game (game.withLevel (level.step world.cache event).1) :=
      .same (fun reel => by cases reel <;> rfl) rfl
    refine updated.trans ?_
    cases (level.step world.cache event).2 with
    | nothing => exact .same (fun _ => rfl) rfl
    | played source => exact .same (fun reel => by cases reel <;> rfl) rfl
    | endLevel caller call =>
      have insideNow : (game.withLevel (level.step world.cache event).1).gameState.inLevel = true := inside
      exact endLevel_continues insideNow caller call
  | crash running => exact .same (fun reel => by cases reel <;> rfl) rfl
  | same => exact .same (fun _ => rfl) rfl

end Game

/-! ## Tracking -/

namespace Timed

open Game

/-- In its state a movie is in sync, or it is the logo after its last frame; elsewhere the intro and
    the credits are at their start. -/
def Tracks (reel : Reel) (elapsed : ℚ) (game : Game) : Prop :=
  if game.gameState = reel.state then
    (reel = .logo ∧ (game.movie reel).frame < 0) ∨ Movie.InSync reel.frameRate elapsed (game.movie reel)
  else reel ≠ .logo → game.movie reel = .start

theorem tracks_there {reel : Reel} {elapsed : ℚ} {game : Game} (there : game.gameState = reel.state) :
    Tracks reel elapsed game ↔
      (reel = .logo ∧ (game.movie reel).frame < 0) ∨ Movie.InSync reel.frameRate elapsed (game.movie reel) := by
  rw [Tracks, if_pos there]

theorem tracks_elsewhere {reel : Reel} {elapsed : ℚ} {game : Game} (elsewhere : game.gameState ≠ reel.state) :
    Tracks reel elapsed game ↔ (reel ≠ .logo → game.movie reel = .start) := by
  rw [Tracks, if_neg elsewhere]

theorem enter_there {reel : Reel} {before : Game} (there : before.gameState = reel.state) (after : Game)
    (elapsed : ℚ) : Timed.enter reel before after elapsed = elapsed :=
  if_neg fun both => both.2 there

theorem Tracks.enter {reel : Reel} {elapsed : ℚ} {before after : Game} (tracks : Tracks reel elapsed before)
    (movie : after.movie reel = before.movie reel)
    (enters : reel = .logo → after.gameState = reel.state → before.gameState ≠ reel.state →
      before.movie reel = .start)
    (leaves : reel ≠ .logo → before.gameState = reel.state → after.gameState ≠ reel.state →
      before.movie reel = .start) :
    Tracks reel (Timed.enter reel before after elapsed) after := by
  simp only [Tracks, Timed.enter, movie] at tracks ⊢
  by_cases stays : after.gameState = reel.state
  · rw [if_pos stays]
    by_cases there : before.gameState = reel.state
    · simpa [there] using tracks
    · rw [if_pos ⟨stays, there⟩]
      rw [if_neg there] at tracks
      have fresh : before.movie reel = .start := by
        by_cases logo : reel = .logo
        · exact enters logo stays there
        · exact tracks logo
      rw [fresh]
      exact .inr (Movie.start_inSync _)
  · rw [if_neg stays]
    intro other
    by_cases there : before.gameState = reel.state
    · exact leaves other there stays
    · rw [if_neg there] at tracks
      exact tracks other

/-- `space` skips neither an intro nor credits that have begun, and does not bring back a logo that
    has. -/
def Unskipped (game : Game) : Event → Prop
  | .frame input => pressesSpace input = true →
      (game.gameState = .intro → game.introMovie = .start) ∧
        (game.gameState = .credits → game.creditsMovie = .start ∧ game.titleMovie = .start)
  | .level _ | .postRenderUpdate => True

instance (game : Game) : ∀ event, Decidable (Unskipped game event)
  | .frame input => inferInstanceAs (Decidable (pressesSpace input = true →
      (game.gameState = .intro → game.introMovie = .start) ∧
        (game.gameState = .credits → game.creditsMovie = .start ∧ game.titleMovie = .start)))
  | .level _ | .postRenderUpdate => inferInstanceAs (Decidable True)

/-- Whenever the state of the reel is entered, its movie starts there. -/
def EntersAtStart (reel : Reel) (stage : Game × Game) : Prop :=
  stage.2.gameState = reel.state → stage.1.gameState ≠ reel.state → stage.2.movie reel = .start

section Stages

variable {world : World} {input : Input} {game : Game} {reel : Reel} {elapsed : ℚ}

theorem Tracks.entersAtStart {before after : Game} (tracks : Tracks reel elapsed before)
    (movie : after.movie reel = before.movie reel)
    (enters : reel = .logo → after.gameState = reel.state → before.gameState ≠ reel.state →
      before.movie reel = .start) : EntersAtStart reel (before, after) := by
  intro entered elsewhere
  rw [movie]
  by_cases logo : reel = .logo
  · exact enters logo entered elsewhere
  · rw [Tracks, if_neg elsewhere] at tracks
    exact tracks logo

theorem Tracks.continues {before after : Game} (tracks : Tracks reel elapsed before)
    (continues : Continues before after) :
    Tracks reel (Timed.enter reel before after elapsed) after ∧ EntersAtStart reel (before, after) := by
  have enters : reel = .logo → after.gameState = reel.state → before.gameState ≠ reel.state →
      before.movie reel = .start := by
    rintro rfl entered elsewhere
    rcases continues.gameState with same | ⟨-, notMenu⟩
    · exact absurd (same ▸ entered) elsewhere
    · exact absurd entered notMenu
  refine ⟨tracks.enter (continues.movie reel) enters fun other there left => ?_,
    tracks.entersAtStart (continues.movie reel) enters⟩
  rcases continues.gameState with same | ⟨inside, -⟩
  · exact absurd (same.trans there) left
  · rw [there] at inside
    cases reel with
    | logo => exact absurd rfl other
    | intro | credits => cases inside

/-- The first stage may leave the intro and the credits, and enter the menu. -/
theorem Tracks.afterSpace (tracks : Tracks reel elapsed game) (world : World)
    (unskipped : Unskipped game (.frame input)) :
    Tracks reel (Timed.enter reel game (game.afterSpace world input) elapsed) (game.afterSpace world input) ∧
      EntersAtStart reel (game, game.afterSpace world input) := by
  have movie := afterSpace_movie world input game reel
  have enters : reel = .logo → (game.afterSpace world input).gameState = reel.state →
      game.gameState ≠ reel.state → game.movie reel = .start := by
    rintro rfl entered elsewhere
    rcases afterSpace_gameState world input game with same | ⟨pressed, ⟨credits, -⟩ | ⟨-, notMenu⟩⟩
    · exact absurd (same ▸ entered) elsewhere
    · exact ((unskipped pressed).2 credits).2
    · exact absurd entered notMenu
  refine ⟨tracks.enter movie enters fun other there left => ?_, tracks.entersAtStart movie enters⟩
  rcases afterSpace_gameState world input game with same | ⟨pressed, -⟩
  · exact absurd (same.trans there) left
  · cases reel with
    | logo => exact absurd rfl other
    | intro => exact (unskipped pressed).1 there
    | credits => exact ((unskipped pressed).2 there).1

/-- The menu's stage enters the intro and the credits only. -/
theorem Tracks.afterMenu (tracks : Tracks reel elapsed (game.afterSpace world input)) (other : reel ≠ .logo) :
    Tracks reel (Timed.enter reel (game.afterSpace world input) (game.afterMenu world input) elapsed)
        (game.afterMenu world input) ∧
      EntersAtStart reel (game.afterSpace world input, game.afterMenu world input) := by
  have movie := afterMenu_movie_of_ne world input game other
  refine ⟨tracks.enter movie (fun logo => absurd logo other) fun _ there left => ?_,
    tracks.entersAtStart movie fun logo => absurd logo other⟩
  rcases afterMenu_gameState world input game with same | ⟨menu, -⟩
  · exact absurd (same.trans there) left
  · rw [menu] at there
    cases reel with
    | logo => exact absurd rfl other
    | intro | credits => cases there

/-- The menu's stage plays the logo. -/
theorem Tracks.afterMenu_logo (tracks : Tracks .logo elapsed (game.afterSpace world input)) :
    Tracks .logo
        (Timed.enter .logo (game.afterSpace world input) (game.afterMenu world input)
          (if game.plays world input .logo then elapsed + input.timeStep else elapsed))
        (game.afterMenu world input) ∧
      EntersAtStart .logo (game.afterSpace world input, game.afterMenu world input) := by
  have never : EntersAtStart .logo (game.afterSpace world input, game.afterMenu world input) := by
    intro entered elsewhere
    rcases afterMenu_gameState world input game with same | ⟨menu, -⟩
    · exact absurd (same ▸ entered) elsewhere
    · exact absurd menu elsewhere
  refine ⟨?_, never⟩
  by_cases plays : game.plays world input .logo = true
  · rw [if_pos plays]
    obtain ⟨returned, (menu : (game.afterSpace world input).gameState = Reel.logo.state)⟩ :=
      (plays_iff world input game .logo).mp plays
    have sync := (tracks_there menu).mp tracks
    rw [enter_there menu]
    by_cases stays : (game.afterMenu world input).gameState = Reel.logo.state
    · -- The code of the menu has run; what is left is whether the logo has another frame.
      refine (tracks_there stays).mpr ?_
      have menuRan : game.afterMenu world input =
          (((game.afterSpace world input).buildMenu).advanceTitle world input).leaveMenu world input
            (game.spacePressed world input) := by
        change (game.afterSpace world input).gameState = .menu at menu
        change (game.afterSpace world input).status.returned = true at returned
        rw [Game.afterMenu, Game.andThen, if_pos returned, handleMenu, if_pos menu]
      rw [menuRan, leaveMenu_movie]
      have built : (game.afterSpace world input).buildMenu.titleMovie = (game.afterSpace world input).titleMovie := rfl
      simp only [advanceTitle, built]
      split
      · rename_i running
        have sync : Movie.InSync Reel.logo.frameRate elapsed ((game.afterSpace world input).movie .logo) :=
          sync.resolve_left fun finished => absurd finished.2 (not_lt.mpr running)
        split
        · split
          · exact .inr ((sync.addTime input.timeStep).catchUp _)
          · exact .inl ⟨trivial, show (-1 : ℤ) < 0 by decide⟩
        · exact .inr (sync.addTime input.timeStep)
      · rename_i finished
        exact .inl ⟨trivial, not_le.mp finished⟩
    · exact (tracks_elsewhere stays).mpr fun logo => absurd rfl logo
  · rw [if_neg plays]
    have stays : game.afterMenu world input = game.afterSpace world input := by
      refine afterMenu_eq ?_
      rw [plays_iff, not_and_or, Bool.not_eq_true] at plays
      exact plays
    rw [stays] at never ⊢
    refine tracks.enter rfl (fun _ entered elsewhere => absurd entered elsewhere) fun logo => absurd rfl logo

/-- The stage of the movies leaves the logo alone. -/
theorem Tracks.afterMovies_logo (tracks : Tracks .logo elapsed (game.afterMenu world input)) :
    Tracks .logo (Timed.enter .logo (game.afterMenu world input) (game.afterMovies world input) elapsed)
        (game.afterMovies world input) ∧
      EntersAtStart .logo (game.afterMenu world input, game.afterMovies world input) := by
  simp only [Game.afterMovies, Game.andThen]
  split
  · have movie := handleMovies_movie_of_ne world input (game.afterMenu world input)
      (.inr (Eq.refl Reel.logo))
    have enters : Reel.logo = .logo →
        ((game.afterMenu world input).handleMovies world input).gameState = Reel.logo.state →
        (game.afterMenu world input).gameState ≠ Reel.logo.state →
          (game.afterMenu world input).movie .logo = .start := by
      intro _ entered elsewhere
      rcases handleMovies_gameState world input (game.afterMenu world input) with same | ⟨-, notMenu, -⟩
      · exact absurd (same ▸ entered) elsewhere
      · exact absurd entered notMenu
    exact ⟨tracks.enter movie enters fun logo => absurd rfl logo, tracks.entersAtStart movie enters⟩
  · exact ⟨tracks.enter rfl (fun _ entered elsewhere => absurd entered elsewhere) fun logo => absurd rfl logo,
      fun entered elsewhere => absurd entered elsewhere⟩

/-- A movie that is played stays in sync, or is over and back at its start. -/
theorem handleMovies_plays {game : Game} (other : reel ≠ .logo) (there : game.gameState = reel.state)
    (sync : Movie.InSync reel.frameRate elapsed (game.movie reel)) :
    Tracks reel (elapsed + input.timeStep) (game.handleMovies world input) := by
  have advanced := sync.addTime input.timeStep
  cases reel with
  | logo => exact absurd rfl other
  | intro =>
    have intro : game.gameState = .intro := there
    simp only [handleMovies, if_pos intro, handleIntro]
    split
    · split
      · split
        · refine (tracks_there ?_).mpr (.inr (advanced.catchUp _))
          exact there
        · refine (tracks_there ?_).mpr (.inr (advanced.catchUp _))
          exact there
      · refine (tracks_elsewhere (loadLevel_ne world _ (by decide) (by decide))).mpr fun _ => ?_
        rw [loadLevel_movie]
        rfl
    · refine (tracks_there ?_).mpr (.inr advanced)
      exact there
  | credits =>
    have credits : game.gameState = .credits := there
    have notIntro : game.gameState ≠ .intro := by rw [credits]; decide
    have notPlaying : game.gameState ≠ .playing := by rw [credits]; decide
    simp only [handleMovies, if_neg notIntro, if_neg notPlaying, if_pos credits, handleCredits]
    split
    · split
      · split
        · refine (tracks_there ?_).mpr (.inr (advanced.catchUp _))
          exact there
        · refine (tracks_there ?_).mpr (.inr (advanced.catchUp _))
          exact there
      · exact (tracks_elsewhere (show GameState.finished ≠ .credits by decide)).mpr fun _ => rfl
    · refine (tracks_there ?_).mpr (.inr advanced)
      exact there

/-- The stage of the movies plays the intro and the credits. -/
theorem Tracks.afterMovies (tracks : Tracks reel elapsed (game.afterMenu world input)) (other : reel ≠ .logo) :
    Tracks reel
        (Timed.enter reel (game.afterMenu world input) (game.afterMovies world input)
          (if game.plays world input reel then elapsed + input.timeStep else elapsed))
        (game.afterMovies world input) ∧
      EntersAtStart reel (game.afterMenu world input, game.afterMovies world input) := by
  have showing : game.showing world input reel = game.afterMenu world input := by
    cases reel with
    | logo => exact absurd rfl other
    | intro | credits => rfl
  have playing := plays_iff world input game reel
  rw [showing] at playing
  by_cases plays : game.plays world input reel = true
  · obtain ⟨returned, there⟩ := playing.mp plays
    have ran : game.afterMovies world input = (game.afterMenu world input).handleMovies world input := by
      rw [Game.afterMovies, Game.andThen, if_pos returned]
    have sync := ((tracks_there there).mp tracks).resolve_left fun finished => other finished.1
    rw [if_pos plays, enter_there there, ran]
    exact ⟨handleMovies_plays other there sync, fun _ elsewhere => absurd there elsewhere⟩
  · rw [if_neg plays]
    simp only [Game.afterMovies, Game.andThen]
    split
    · rename_i returned
      have elsewhere : (game.afterMenu world input).gameState ≠ reel.state := fun there =>
        plays (playing.mpr ⟨returned, there⟩)
      have movie := handleMovies_movie_of_ne world input _ (.inl elsewhere)
      exact ⟨tracks.enter movie (fun logo => absurd logo other) fun _ there => absurd there elsewhere,
        tracks.entersAtStart movie fun logo => absurd logo other⟩
    · exact ⟨tracks.enter rfl (fun logo => absurd logo other) fun _ there left => absurd there left,
        fun entered elsewhere => absurd entered elsewhere⟩

end Stages

/-! ## Runs -/

variable {world : World}

theorem Tracks.frame {reel : Reel} {state : Timed} {input : Input}
    (tracks : Tracks reel (state.elapsed reel) state.game)
    (unskipped : Unskipped state.game (.frame input)) (running : state.game.status = .running)
    (between : state.game.betweenSteps = true) :
    Tracks reel ((state.step world (.frame input)).elapsed reel) (state.step world (.frame input)).game ∧
      ∀ stage ∈ state.game.stages world (.frame input), EntersAtStart reel stage := by
  have stepped : state.game.step world (.frame input) = state.game.handleUpdate world input := by
    simp only [Game.step, running, between, if_true]
  have final := handleUpdate_continues world input state.game
  rw [← stepped] at final
  obtain ⟨space, entersSpace⟩ := tracks.afterSpace world unskipped
  simp only [Game.stages, Timed.step, Timed.played, running, between, and_self, if_true]
  by_cases logo : reel = .logo
  · subst logo
    obtain ⟨menu, entersMenu⟩ := space.afterMenu_logo
    obtain ⟨movies, entersMovies⟩ := menu.afterMovies_logo
    obtain ⟨last, entersLast⟩ := movies.continues final
    refine ⟨by simpa using last, ?_⟩
    simpa using ⟨entersSpace, entersMenu, entersMovies, entersLast⟩
  · obtain ⟨menu, entersMenu⟩ := space.afterMenu logo
    obtain ⟨movies, entersMovies⟩ := menu.afterMovies logo
    obtain ⟨last, entersLast⟩ := movies.continues final
    refine ⟨by simpa [logo] using last, ?_⟩
    simpa using ⟨entersSpace, entersMenu, entersMovies, entersLast⟩

theorem Tracks.step {reel : Reel} {state : Timed} {event : Event}
    (tracks : Tracks reel (state.elapsed reel) state.game)
    (placed : Placed world state.game) (unskipped : Unskipped state.game event) :
    Tracks reel ((state.step world event).elapsed reel) (state.step world event).game ∧
      ∀ stage ∈ state.game.stages world event, EntersAtStart reel stage := by
  cases event with
  | frame input =>
    by_cases handled : state.game.status = .running ∧ state.game.betweenSteps = true
    · exact tracks.frame unskipped handled.1 handled.2
    · have same : state.game.step world (.frame input) = state.game := by
        simp only [Game.step]
        split
        · rename_i running
          exact if_neg fun between => handled ⟨running, between⟩
        · rfl
      simp only [Timed.step, Game.stages, if_neg handled, same]
      exact ⟨tracks, fun _ none => by cases none⟩
  | level event =>
    have continues : Continues state.game (state.game.step world (.level event)) :=
      step_continues placed (by simp)
    obtain ⟨last, enters⟩ := tracks.continues continues
    exact ⟨last, by simpa [Game.stages] using enters⟩
  | postRenderUpdate =>
    have continues : Continues state.game (state.game.step world .postRenderUpdate) :=
      step_continues placed (by simp)
    obtain ⟨last, enters⟩ := tracks.continues continues
    exact ⟨last, by simpa [Game.stages] using enters⟩

/-- A frame that is asked for is the one that is due. -/
theorem Tracks.frameRequest {reel : Reel} {state : Timed} {input : Input}
    (tracks : Tracks reel (state.elapsed reel) state.game) (unskipped : Unskipped state.game (.frame input))
    {index : ℤ} (requested : state.game.frameRequest world input reel = some index) :
    index = ⌊state.played world input reel / reel.frameRate⌋ := by
  simp only [Game.frameRequest] at requested
  split at requested
  · rename_i asks
    obtain ⟨plays, running, due⟩ := asks
    cases requested
    obtain ⟨-, there⟩ := (plays_iff world input state.game reel).mp plays
    simp only [Timed.played, if_pos plays]
    obtain ⟨space, -⟩ := tracks.afterSpace world unskipped
    by_cases logo : reel = .logo
    · subst logo
      have sync := ((tracks_there there).mp space).resolve_left fun finished =>
        absurd finished.2 (not_lt.mpr (running rfl))
      simpa using (sync.addTime input.timeStep).catchUpAll_frame (Reel.frameRate_pos _) due
    · obtain ⟨menu, -⟩ := space.afterMenu logo
      have showing : state.game.showing world input reel = state.game.afterMenu world input := by
        cases reel with
        | logo => exact absurd rfl logo
        | intro | credits => rfl
      rw [showing] at there due ⊢
      have sync := ((tracks_there there).mp menu).resolve_left fun finished => logo finished.1
      rw [if_neg logo]
      exact (sync.addTime input.timeStep).catchUpAll_frame (Reel.frameRate_pos _) due
  · cases requested

theorem create_tracks (reel : Reel) : Tracks reel (create.elapsed reel) create.game := by
  cases reel with
  | logo => exact (tracks_there rfl).mpr (.inr (Movie.start_inSync _))
  | intro => exact (tracks_elsewhere (show GameState.menu ≠ .intro by decide)).mpr fun _ => rfl
  | credits => exact (tracks_elsewhere (show GameState.menu ≠ .credits by decide)).mpr fun _ => rfl

end Timed

/-- If `space` never cuts a movie short, every frame that is shown is the one that is due, and every
    movie starts at its beginning whenever its state is entered. -/
theorem movies_in_sync (world : World) (events : List Event)
    (unskipped : Meets (Timed.step world) (fun state event => Timed.Unskipped state.game event) .create events) :
    ∀ before event, before ++ [event] <+: events →
      let state := run (Timed.step world) .create before
      ∀ reel, (∀ input index, event = .frame input → state.game.frameRequest world input reel = some index →
          index = ⌊state.played world input reel / reel.frameRate⌋) ∧
        ∀ stage ∈ state.game.stages world event, Timed.EntersAtStart reel stage := by
  intro before event isPrefix state reel
  obtain ⟨rest, rfl⟩ := isPrefix
  obtain ⟨earlier, here, -⟩ := meets_append.mp (meets_append.mp unskipped).1
  have invariant : Game.Placed world state.game ∧ Timed.Tracks reel (state.elapsed reel) state.game :=
    earlier.invariant (fun state => Game.Placed world state.game ∧ Timed.Tracks reel (state.elapsed reel) state.game)
      (fun _ event both unskipped => ⟨both.1.step event, (both.2.step both.1 unskipped).1⟩)
      ⟨Game.create_placed world, Timed.create_tracks reel⟩
  obtain ⟨placed, tracks⟩ := invariant
  refine ⟨fun input index isFrame requested => ?_, (tracks.step placed here).2⟩
  subst isFrame
  exact tracks.frameRequest here requested

namespace WrightLevel

/-- Without a level `LoadLevel` goes on to the credits. -/
def noLevels : World := { world allSounds with levelImage := fun _ => none }

def second (pressed : Option Key) : Input := ⟨1, fun key => pressed = some key, fun _ => false, false⟩

end WrightLevel

open WrightLevel in
/-- The intro and the credits are skipped; when the intro is entered again from the menu its first
    second shows frame 47 instead of 23. -/
theorem skipped_intro_resumes :
    let state := run (Timed.step noLevels) .create
      [frame (some .space), frame (some .space), frame (some .space)]
    state.game.frameRequest noLevels (second (some .space)) .intro = some 47 ∧
      ⌊state.played noLevels (second (some .space)) .intro / Reel.intro.frameRate⌋ = 23 := by
  decide +kernel

open WrightLevel in
theorem movies_in_sync_intro :
    let state := run (Timed.step noLevels) .create [frame (some .space)]
    state.game.frameRequest noLevels (second none) .intro = some 47 ∧
      47 = ⌊state.played noLevels (second none) .intro / Reel.intro.frameRate⌋ := by
  intro state
  have sync := movies_in_sync noLevels [frame (some .space), frame none] (by decide +kernel)
    [frame (some .space)] (frame none) (List.prefix_refl _) .intro
  have request : state.game.frameRequest noLevels (second none) .intro = some 47 := by decide +kernel
  exact ⟨request, sync.1 (second none) 47 rfl request⟩

end SneakySneaky
