import SneakySneaky.EndLevelLatch
import SneakySneaky.Foundation.Words
import SneakySneaky.Frame

/-! # Keys over many frames

Two things in `HandleUpdate` depend on the keys of earlier frames: the exit timer counts the frames
for which escape has been held, and the cheat waits for the keys of its sequence, one at a
time and without a limit of time.  Nothing else in a frame, and no event in a level, touches
either. -/

namespace SneakySneaky

open SneakySneaky.Foundation

/-! ## What a frame leaves alone -/

structure HeldKeys where
  exitTimer : ℕ
  cheatCode : List Key
  unlocked : Bool

namespace Game

def heldKeys (game : Game) : HeldKeys := ⟨game.exitTimer, game.cheatCode, game.unceUnceUnceWubWubWub⟩

/-- The keys stay as they are, and a game that can go on is running or exited as before. -/
structure KeepsKeys (game game' : Game) : Prop where
  heldKeys : game'.heldKeys = game.heldKeys
  status : game'.status.returned = true → game'.status = game.status

variable {world : World} {input : Input} {game game' : Game}

theorem KeepsKeys.refl (game : Game) : KeepsKeys game game := ⟨rfl, fun _ => rfl⟩

theorem KeepsKeys.trans {game'' : Game} (first : KeepsKeys game game') (second : KeepsKeys game' game'') :
    KeepsKeys game game'' := by
  refine ⟨second.heldKeys.trans first.heldKeys, fun returned => ?_⟩
  have same := second.status returned
  rw [same] at returned ⊢
  exact first.status returned

theorem KeepsKeys.andThen {next : Game → Game} (keeps : KeepsKeys game game')
    (further : ∀ game, KeepsKeys game (next game)) : KeepsKeys game (game'.andThen next) := by
  simp only [Game.andThen]
  split
  · exact keeps.trans (further game')
  · exact keeps

theorem loadLevel_keepsKeys (world : World) (game : Game) : KeepsKeys game (game.loadLevel world) := by
  have result := loadLevel_result world game
  generalize game.loadLevel world = after at result ⊢
  cases result with
  | credits missing => exact ⟨rfl, fun _ => rfl⟩
  | hang found => exact ⟨rfl, fun returned => by cases returned⟩
  | enter found read => exact ⟨rfl, fun _ => rfl⟩

theorem endLevel_keepsKeys (world : World) (game : Game) (caller : EndCaller) (call : EndCall) :
    KeepsKeys game (game.endLevel world caller call) := by
  have result := endLevel_result world game caller call
  generalize game.endLevel world caller call = after at result ⊢
  cases result with
  | noPlayer missing => exact ⟨rfl, fun returned => by cases returned⟩
  | load found =>
    obtain ⟨heldKeys, status⟩ := loadLevel_keepsKeys world _
    exact ⟨heldKeys, status⟩
  | disable found => exact ⟨rfl, fun _ => rfl⟩

theorem act_keepsKeys (world : World) (game : Game) (action : LevelAction) :
    KeepsKeys game (act world game action) := by
  cases action with
  | nothing => exact .refl game
  | played source => exact ⟨rfl, fun _ => rfl⟩
  | endLevel caller call => exact endLevel_keepsKeys world game caller call

theorem handleSpace_keepsKeys (world : World) (input : Input) (game : Game) :
    KeepsKeys game (game.handleSpace world input).1 := by
  have result := handleSpace_result world input game
  generalize (game.handleSpace world input).1 = after at result ⊢
  cases result with
  | unused => exact .refl game
  | leaveCredits pressed credits => exact ⟨rfl, fun _ => rfl⟩
  | load pressed elsewhere => exact loadLevel_keepsKeys world game

theorem handleMenu_keepsKeys (world : World) (input : Input) (spacePressed : Bool) (game : Game) :
    KeepsKeys game (game.handleMenu world input spacePressed) := by
  simp only [handleMenu]
  split
  · obtain ⟨titleMovie, advanced⟩ := advanceTitle_eq world input game.buildMenu
    have result := leaveMenu_result world input (game.buildMenu.advanceTitle world input) spacePressed
    generalize (game.buildMenu.advanceTitle world input).leaveMenu world input spacePressed = after at result ⊢
    rw [advanced] at result
    cases result with
    | stay => exact ⟨rfl, fun _ => rfl⟩
    | movie shows => exact ⟨rfl, fun _ => rfl⟩
    | load =>
      obtain ⟨heldKeys, status⟩ := loadLevel_keepsKeys world _
      exact ⟨heldKeys, status⟩
  · exact .refl game

theorem handleMovies_keepsKeys (world : World) (input : Input) (game : Game) :
    KeepsKeys game (game.handleMovies world input) := by
  have result := handleMovies_result world input game
  generalize game.handleMovies world input = after at result ⊢
  cases result with
  | goOn intro credits => exact ⟨rfl, fun _ => rfl⟩
  | crash plays missing intro credits => exact ⟨rfl, fun returned => by cases returned⟩
  | introOver intro =>
    obtain ⟨heldKeys, status⟩ := loadLevel_keepsKeys world _
    exact ⟨heldKeys, status⟩
  | creditsOver credits => exact ⟨rfl, fun _ => rfl⟩

theorem handleReload_keepsKeys (world : World) (input : Input) (game : Game) :
    KeepsKeys game (game.handleReload world input) := by
  simp only [handleReload]
  split
  · exact loadLevel_keepsKeys world game
  · exact .refl game

theorem handleNext_keepsKeys (world : World) (input : Input) (game : Game) :
    KeepsKeys game (game.handleNext world input) := by
  simp only [handleNext]
  split
  · exact endLevel_keepsKeys world game .developer ⟨false, false⟩
  · exact .refl game

theorem handleLastKeys_keepsKeys (input : Input) (game : Game) : KeepsKeys game (game.handleLastKeys input) := by
  refine KeepsKeys.andThen (KeepsKeys.andThen (.refl game) fun game => ?_) fun game => ?_
  · rcases handleCrash_cases input game with same | ⟨-, crashed⟩
    · rw [same]
      exact .refl game
    · rw [crashed]
      exact ⟨rfl, fun returned => by cases returned⟩
  · obtain ⟨items, result⟩ := handleUnlock_eq input game
    rw [result]
    exact ⟨rfl, fun _ => rfl⟩

theorem handleDeveloper_keepsKeys (world : World) (input : Input) (game : Game) :
    KeepsKeys game (game.handleDeveloper world input) := by
  by_cases developerMode : game.developerMode = true
  · rw [handleDeveloper_developerMode world input developerMode]
    have toggled : KeepsKeys game (game.toggleDebug input) := ⟨rfl, fun _ => rfl⟩
    have reloaded := toggled.trans (handleReload_keepsKeys world input (game.toggleDebug input))
    exact (reloaded.andThen (handleNext_keepsKeys world input)).trans (handleLastKeys_keepsKeys input _)
  · rw [handleDeveloper, if_neg developerMode]
    split
    · exact ⟨rfl, fun _ => rfl⟩
    · exact .refl game

/-- Between the exit key and the cheat a frame touches neither. -/
theorem beforeCheat_keepsKeys (world : World) (input : Input) (game : Game) :
    KeepsKeys (game.handleExitKey input)
      ((game.afterMovies world input).andThen (handleDeveloper world input)) :=
  (((handleSpace_keepsKeys world input _).andThen (handleMenu_keepsKeys world input _)).andThen
    (handleMovies_keepsKeys world input)).andThen (handleDeveloper_keepsKeys world input)

/-! ## What the keys of the frames so far have done -/

/-- The input of a frame that the game handles. -/
def handled (game : Game) : Event → Option Input
  | .frame input => if game.status = .running ∧ game.betweenSteps = true then some input else none
  | .level _ | .postRenderUpdate => none

def secret : List Key := [.up, .up, .down, .down, .left, .right, .left, .right, .b, .a]

def isDown (key : Key) (input : Input) : Bool := input.keyDown key

/-- The keys of the frames so far, as the game remembers them. -/
structure Held (frames : List Input) (game : Game) : Prop where
  code : game.cheatCode.reverse = run (readLetter isDown) secret frames
  unlocked : game.unceUnceUnceWubWubWub = game.cheatCode.isEmpty
  running : game.status = .running →
    game.exitTimer = streak (isDown .esc) frames ∧ streak (isDown .esc) frames ≤ 30
  exited : game.status = .exited → streak (isDown .esc) frames = 31

theorem create_held : Held [] create := by
  refine ⟨rfl, rfl, fun _ => ⟨rfl, Nat.zero_le 30⟩, fun exited => ?_⟩
  cases exited

theorem Held.keeps {frames : List Input} (held : Held frames game) (keeps : KeepsKeys game game')
    (returned : game'.status.returned = true) : Held frames game' := by
  have same := keeps.heldKeys
  simp only [heldKeys, HeldKeys.mk.injEq] at same
  obtain ⟨exitTimer, cheatCode, unlocked⟩ := same
  have status := keeps.status returned
  obtain ⟨code, empty, running, exited⟩ := held
  rw [← cheatCode] at code
  rw [← unlocked, ← cheatCode] at empty
  rw [← exitTimer, ← status] at running
  rw [← status] at exited
  exact ⟨code, empty, running, exited⟩

/-- The frame in which the streak reaches 31 is the last. -/
theorem handleExitKey_spec {frames : List Input} (held : Held frames game) (running : game.status = .running)
    (input : Input) :
    (game.handleExitKey input).cheatCode = game.cheatCode ∧
      (game.handleExitKey input).unceUnceUnceWubWubWub = game.unceUnceUnceWubWubWub ∧
      ((game.handleExitKey input).status = .running →
        (game.handleExitKey input).exitTimer = streak (isDown .esc) (frames ++ [input]) ∧
          streak (isDown .esc) (frames ++ [input]) ≤ 30) ∧
      ((game.handleExitKey input).status = .exited → streak (isDown .esc) (frames ++ [input]) = 31) := by
  obtain ⟨timer, short⟩ := held.running running
  rw [streak_append_singleton, ← timer] at *
  rw [handleExitKey, isDown]
  by_cases down : input.keyDown .esc = true
  · rw [if_pos down, if_pos down]
    by_cases long : 30 < game.exitTimer + 1
    · rw [if_pos long]
      refine ⟨rfl, rfl, fun stillRunning => ?_, fun _ => by omega⟩
      cases stillRunning
    · rw [if_neg long]
      refine ⟨rfl, rfl, fun _ => ⟨rfl, by omega⟩, fun exited => ?_⟩
      cases running.symm.trans exited
  · rw [if_neg down, if_neg down]
    refine ⟨rfl, rfl, fun _ => ⟨rfl, Nat.zero_le 30⟩, fun exited => ?_⟩
    cases running.symm.trans exited

/-- The cheat reads one letter of its sequence from the back. -/
theorem handleCheat_spec (unlocked : game.unceUnceUnceWubWubWub = game.cheatCode.isEmpty) (input : Input) :
    (game.handleCheat input).cheatCode.reverse = readLetter isDown game.cheatCode.reverse input ∧
      (game.handleCheat input).unceUnceUnceWubWubWub = (game.handleCheat input).cheatCode.isEmpty ∧
      (game.handleCheat input).status = game.status ∧ (game.handleCheat input).exitTimer = game.exitTimer := by
  obtain done | ⟨rest, key, code⟩ := List.eq_nil_or_concat' game.cheatCode
  · have same : game.handleCheat input = game := by
      rw [handleCheat, if_pos (by rw [unlocked, done]; rfl)]
    rw [same, done]
    exact ⟨rfl, by rw [unlocked, done], rfl, rfl⟩
  · have locked : ¬ game.unceUnceUnceWubWubWub = true := by simp [unlocked, code]
    have next : game.cheatCode.getLast? = some key := by rw [code, List.getLast?_concat]
    simp only [handleCheat, if_neg locked, next]
    rw [code, List.reverse_append, List.reverse_singleton, List.singleton_append, List.dropLast_concat, readLetter,
      isDown]
    by_cases down : input.keyDown key = true
    · rw [if_pos down, if_pos down]
      exact ⟨rfl, rfl, rfl, rfl⟩
    · rw [if_neg down, if_neg down]
      refine ⟨?_, unlocked, rfl, rfl⟩
      rw [code, List.reverse_append, List.reverse_singleton, List.singleton_append]

theorem Held.frame {frames : List Input} (held : Held frames game) (running : game.status = .running) (world : World)
    (input : Input) (returned : (game.handleUpdate world input).status.returned = true) :
    Held (frames ++ [input]) (game.handleUpdate world input) := by
  obtain ⟨cheatCode, unlocked, timer, exited⟩ := handleExitKey_spec held running input
  have keeps := beforeCheat_keepsKeys world input game
  rw [handleUpdate_eq] at returned ⊢
  generalize (game.afterMovies world input).andThen (handleDeveloper world input) = before at keeps returned ⊢
  have same := keeps.heldKeys
  simp only [heldKeys, HeldKeys.mk.injEq, cheatCode, unlocked] at same
  obtain ⟨exitTimer, cheatCode, unlocked⟩ := same
  by_cases goesOn : before.status.returned = true
  · rw [Game.andThen, if_pos goesOn] at returned ⊢
    have status := keeps.status goesOn
    have empty : before.unceUnceUnceWubWubWub = before.cheatCode.isEmpty := by
      rw [unlocked, cheatCode]
      exact held.unlocked
    obtain ⟨code, stillEmpty, sameStatus, sameTimer⟩ := handleCheat_spec empty input
    refine ⟨?_, stillEmpty, ?_, ?_⟩
    · rw [code, cheatCode, held.code, run_append, run_cons, run_nil]
    · rw [sameStatus, sameTimer, status, exitTimer]
      exact timer
    · rw [sameStatus, status]
      exact exited
  · rw [Game.andThen, if_neg goesOn] at returned
    exact absurd returned goesOn

theorem step_handled (world : World) {event : Event} (handles : game.handled event = some input) :
    game.status = .running ∧ game.step world event = game.handleUpdate world input := by
  cases event with
  | frame pressed =>
    rw [handled] at handles
    split at handles
    · rename_i both
      cases handles
      exact ⟨both.1, by simp only [Game.step, if_pos both.1, if_pos both.2]⟩
    · cases handles
  | level event => cases handles
  | postRenderUpdate => cases handles

theorem step_unhandled (world : World) {event : Event} (unhandled : game.handled event = none) :
    KeepsKeys game (game.step world event) := by
  cases event with
  | frame input =>
    have stays : game.step world (.frame input) = game := by
      rw [handled] at unhandled
      split at unhandled
      · cases unhandled
      · rename_i neither
        simp only [Game.step]
        split
        · rename_i running
          rw [if_neg fun between => neither ⟨running, between⟩]
        · rfl
    rw [stays]
    exact .refl game
  | level event =>
    have result := step_result world game (.level event)
    generalize game.step world (.level event) = after at result ⊢
    cases result with
    | inLevel running found =>
      obtain ⟨heldKeys, status⟩ := act_keepsKeys world _ _
      exact ⟨heldKeys, status⟩
    | same => exact .refl game
  | postRenderUpdate =>
    have result := step_result world game .postRenderUpdate
    generalize game.step world .postRenderUpdate = after at result ⊢
    cases result with
    | crash running => exact ⟨rfl, fun returned => by cases returned⟩
    | same => exact .refl game

theorem Held.step {frames : List Input} (held : game.status.returned = true → Held frames game) (world : World)
    (event : Event) (returned : (game.step world event).status.returned = true) :
    Held (frames ++ (game.handled event).toList) (game.step world event) := by
  cases handles : game.handled event with
  | none =>
    have keeps := step_unhandled world handles
    rw [Option.toList_none, List.append_nil]
    exact (held (by rw [← keeps.status returned, returned])).keeps keeps returned
  | some input =>
    obtain ⟨running, stepped⟩ := step_handled world handles
    rw [stepped] at returned ⊢
    exact (held (by rw [running]; rfl)).frame running world input returned

theorem run_held (world : World) (events : List Event)
    (returned : (run (step world) create events).status.returned = true) :
    Held (projection (step world) handled create events) (run (step world) create events) := by
  induction events using List.reverseRecOn with
  | nil => exact create_held
  | append_singleton events event inductionHypothesis =>
    rw [run_append, run_cons, run_nil] at returned ⊢
    rw [projection_append, projection, projection, List.append_nil]
    exact Held.step inductionHypothesis world event returned

end Game

/-- In every run that has neither crashed nor hung, the cheat is on just when frames of the run, in order and with any
    others between them, had its ten keys down; and the game has exited just when escape was down in the last
    31 frames. -/
theorem held_keys_decide (world : World) (events : List Event)
    (returned : (run (Game.step world) Game.create events).status.returned = true) :
    ((run (Game.step world) Game.create events).unceUnceUnceWubWubWub = true ↔
        Spells Game.isDown Game.secret (projection (Game.step world) Game.handled Game.create events)) ∧
      ((run (Game.step world) Game.create events).status = .exited ↔
        31 ≤ streak (Game.isDown .esc) (projection (Game.step world) Game.handled Game.create events)) := by
  obtain ⟨code, unlocked, running, exited⟩ := Game.run_held world events returned
  constructor
  · rw [← run_readLetter_eq_nil_iff, ← code, unlocked, List.isEmpty_iff, List.reverse_eq_nil_iff]
  · constructor
    · intro isExited
      rw [exited isExited]
    · intro long
      cases status : (run (Game.step world) Game.create events).status with
      | exited => rfl
      | running =>
        have short := (running status).2
        omega
      | crashed | hung =>
        rw [status] at returned
        cases returned

namespace WrightLevel

def hold (key : Key) : Event := .frame ⟨1 / 60, fun _ => false, fun pressed => pressed = key, false⟩

/-- The keys of the cheat in the menu, each with a frame of escape after it. -/
def enterCheat : List Event := Game.secret.flatMap fun key => [hold key, hold .esc]

end WrightLevel

open WrightLevel in
theorem held_keys_decide_cheat :
    ((run (Game.step (world allSounds)) Game.create enterCheat).unceUnceUnceWubWubWub = true ↔
        Spells Game.isDown Game.secret
          (projection (Game.step (world allSounds)) Game.handled Game.create enterCheat)) ∧
      ((run (Game.step (world allSounds)) Game.create enterCheat).status = .exited ↔
        31 ≤ streak (Game.isDown .esc)
          (projection (Game.step (world allSounds)) Game.handled Game.create enterCheat)) :=
  held_keys_decide (world allSounds) enterCheat (by decide +kernel)

open WrightLevel in
-- The cheat is on, and escape was never down for two frames together.
example : (run (Game.step (world allSounds)) Game.create enterCheat).unceUnceUnceWubWubWub = true ∧
    (run (Game.step (world allSounds)) Game.create enterCheat).status = .running := by
  decide +kernel

end SneakySneaky
