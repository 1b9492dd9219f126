import SneakySneaky.EndLevelLatch
import SneakySneaky.Scenes

/-! # Debug drawing

`HandlePostRenderUpdate` takes the physics world and the navigation mesh from the scene
without a check.  The menu and the levels have both; the intro, the credits and the final
screen have neither, and the flags outlive the changes of state. -/

namespace SneakySneaky

open SneakySneaky.Foundation

namespace Game

/-- The components whose drawing is switched on are in the scene. -/
structure DebugSafe (game : Game) : Prop where
  physics : game.debugPhysics = true → game.scene.physicsWorld = true
  navigation : game.debugNavigation = true → game.scene.navigationMesh = true

theorem handlePostRenderUpdate_crashed {game : Game} (alive : game.status ≠ .crashed) :
    game.handlePostRenderUpdate.status = .crashed ↔ ¬ DebugSafe game := by
  have safe : DebugSafe game ↔ (game.debugPhysics && !game.scene.physicsWorld ||
      game.debugNavigation && !game.scene.navigationMesh) = false := by
    constructor
    · rintro ⟨physics, navigation⟩
      cases debugPhysics : game.debugPhysics <;> cases debugNavigation : game.debugNavigation <;>
        simp_all
    · intro drawn
      simp only [Bool.or_eq_false_iff, Bool.and_eq_false_imp, Bool.not_eq_false'] at drawn
      exact ⟨drawn.1, drawn.2⟩
  rw [safe, Bool.not_eq_false, handlePostRenderUpdate]
  split
  · rename_i drawn
    simp [drawn]
  · rename_i drawn
    simp [drawn, alive]

theorem alive_of_returned {game : Game} (returned : game.status.returned = true) : game.status ≠ .crashed := by
  intro crashed
  rw [crashed] at returned
  cases returned

/-! ## The menu's scene -/

/-- The menu's scene is there: so at the end of every frame that ends in the menu. -/
def MenuBuilt (game : Game) : Prop := game.gameState = .menu → game.scene.titleContainer = true

variable {world : World} {input : Input} {game : Game}

theorem loadLevel_menuBuilt (world : World) (game : Game) : MenuBuilt (game.loadLevel world) := by
  intro menu
  rcases loadLevel_gameState world game with playing | credits
  · rw [playing] at menu
    cases menu
  · rw [credits] at menu
    cases menu

theorem MenuBuilt.andThen {next : Game → Game} (built : MenuBuilt game)
    (keeps : MenuBuilt (next game)) : MenuBuilt (game.andThen next) := by
  simp only [Game.andThen]
  split
  · exact keeps
  · exact built

theorem buildMenu_titleContainer (game : Game) : game.buildMenu.scene.titleContainer = true := by
  simp only [buildMenu]
  split
  · assumption
  · rfl

theorem handleMenu_menuBuilt (world : World) (input : Input) (spacePressed : Bool) (game : Game) :
    MenuBuilt (game.handleMenu world input spacePressed) := by
  simp only [handleMenu]
  split
  · have container : (game.buildMenu.advanceTitle world input).scene.titleContainer = true := by
      obtain ⟨titleMovie, result⟩ := advanceTitle_eq world input game.buildMenu
      rw [result]
      exact buildMenu_titleContainer game
    have result := leaveMenu_result world input (game.buildMenu.advanceTitle world input) spacePressed
    generalize (game.buildMenu.advanceTitle world input).leaveMenu world input spacePressed = after at result ⊢
    cases result with
    | stay => exact fun _ => container
    | movie shows =>
      intro menu
      rcases shows with rfl | rfl <;> cases menu
    | load => exact loadLevel_menuBuilt world _
  · rename_i elsewhere
    exact fun menu => absurd menu elsewhere

/-- If space did not get as far as the menu's code, `LoadLevel` hangs. -/
theorem afterMenu_menuBuilt (running : game.status = .running) (world : World) (input : Input) :
    MenuBuilt (game.afterMenu world input) := by
  simp only [afterMenu, Game.andThen]
  split
  · exact handleMenu_menuBuilt world input _ _
  · rename_i stopped
    have alive : (game.handleExitKey input).status.returned = true := by
      obtain ⟨status, exitTimer, result, same | exited⟩ := handleExitKey_eq input game
      · simp [result, same, running, Status.returned]
      · simp [result, exited, Status.returned]
    rw [afterSpace] at stopped ⊢
    have result := handleSpace_result world input (game.handleExitKey input)
    generalize ((game.handleExitKey input).handleSpace world input).1 = after at result stopped ⊢
    cases result with
    | unused => exact absurd alive stopped
    | leaveCredits pressed credits => exact absurd alive stopped
    | load pressed elsewhere => exact loadLevel_menuBuilt world _

theorem MenuBuilt.handleMovies (built : MenuBuilt game) (world : World) (input : Input) :
    MenuBuilt (game.handleMovies world input) := by
  have result := handleMovies_result world input game
  generalize game.handleMovies world input = after at result ⊢
  cases result with
  | goOn intro credits => exact built
  | crash plays missing intro credits => exact built
  | introOver intro => exact loadLevel_menuBuilt world _
  | creditsOver credits =>
    intro menu
    cases menu

theorem endLevel_menuBuilt (built : MenuBuilt game) (caller : EndCaller) (call : EndCall) :
    MenuBuilt (game.endLevel world caller call) := by
  have result := endLevel_result world game caller call
  generalize game.endLevel world caller call = after at result ⊢
  cases result with
  | noPlayer missing => exact built
  | load found => exact loadLevel_menuBuilt world _
  | disable found =>
    intro menu
    simp only [disable] at menu
    split at menu <;> cases menu

theorem MenuBuilt.handleLastKeys (built : MenuBuilt game) (input : Input) :
    MenuBuilt (game.handleLastKeys input) := by
  have crash : MenuBuilt (game.handleCrash input) := by
    rcases handleCrash_cases input game with same | ⟨-, crashed⟩
    · rw [same]
      exact built
    · rw [crashed]
      exact built
  have unlock : ∀ before, MenuBuilt before → MenuBuilt (before.handleUnlock input) := by
    intro before built
    obtain ⟨items, result⟩ := handleUnlock_eq input before
    rw [result]
    exact built
  have crashed := built.andThen crash
  exact crashed.andThen (unlock _ crashed)

theorem MenuBuilt.handleDeveloper (built : MenuBuilt game) (world : World) (input : Input) :
    MenuBuilt (game.handleDeveloper world input) := by
  by_cases developerMode : game.developerMode = true
  · rw [handleDeveloper_developerMode world input developerMode]
    have reloaded : MenuBuilt ((game.toggleDebug input).handleReload world input) := by
      simp only [handleReload]
      split
      · exact loadLevel_menuBuilt world _
      · exact built
    refine (reloaded.andThen ?_).handleLastKeys input
    simp only [handleNext]
    split
    · exact endLevel_menuBuilt reloaded _ _
    · exact reloaded
  · simp only [Game.handleDeveloper, if_neg developerMode]
    split <;> exact built

theorem handleUpdate_menuBuilt (running : game.status = .running) (world : World) (input : Input) :
    MenuBuilt (game.handleUpdate world input) := by
  have menu := afterMenu_menuBuilt running world input
  have movies : MenuBuilt (game.afterMovies world input) := menu.andThen (menu.handleMovies world input)
  have developer := movies.andThen (movies.handleDeveloper world input)
  refine developer.andThen ?_
  rcases handleCheat_cases input ((game.afterMovies world input).andThen (handleDeveloper world input)) with
    ⟨_, _, result, -⟩ | ⟨-, -, result⟩
  · rw [result]
    exact developer
  · rw [result]
    exact developer

/-! ## Runs -/

/-- Before the first frame the menu's scene is missing, and the flags are unset. -/
def Drawable (game : Game) : Prop :=
  game.gameState = .menu →
    game.scene.titleContainer = true ∨ (game.debugPhysics = false ∧ game.debugNavigation = false)

theorem MenuBuilt.drawable (built : MenuBuilt game) : Drawable game := fun menu => .inl (built menu)

theorem Drawable.step (drawable : Drawable game) (placed : Placed world game) (event : Event) :
    Drawable (game.step world event) := by
  have result := step_result world game event
  generalize game.step world event = after at result ⊢
  cases result with
  | frame running input => exact (handleUpdate_menuBuilt running world input).drawable
  | @inLevel running event level found =>
    -- There is no level in the menu.
    have inside := placed.inLevel level found
    have updated : MenuBuilt (game.withLevel (level.step world.cache event).1) := by
      intro menu
      have menu : game.gameState = .menu := menu
      rw [menu] at inside
      cases inside
    cases (level.step world.cache event).2 with
    | nothing => exact updated.drawable
    | played source => exact MenuBuilt.drawable updated
    | endLevel caller call => exact (endLevel_menuBuilt updated caller call).drawable
  | crash running => exact drawable
  | same => exact drawable

theorem run_drawable (world : World) (events : List Event) : Drawable (run (step world) create events) :=
  (run_invariant (fun game => Drawable game ∧ Placed world game)
    (fun _ event both => ⟨both.1.step both.2 event, both.2.step event⟩)
    ⟨fun _ => .inr ⟨rfl, rfl⟩, create_placed world⟩ events).1

end Game

/-- In every reachable state from which the game goes on, debug drawing finds the components it is
    switched on for just when it is switched off during the intro, the credits and the final
    screen. -/
theorem debug_drawing_safe_iff (world : World) (events : List Event) :
    let game := run (Game.step world) Game.create events
    game.status.returned = true →
      (game.DebugSafe ↔
        (game.gameState = .intro ∨ game.gameState = .credits ∨ game.gameState = .finished →
          game.debugPhysics = false ∧ game.debugNavigation = false)) ∧
      (game.handlePostRenderUpdate.status = .crashed ↔ ¬ game.DebugSafe) := by
  intro game returned
  have built : Game.Built game := Game.run_built world events
  refine ⟨?_, Game.handlePostRenderUpdate_crashed (Game.alive_of_returned returned)⟩
  constructor
  · rintro ⟨physics, navigation⟩ state
    obtain ⟨noPhysics, noNavigation⟩ := built.bare ((GameState.isBare_iff _).mpr state)
    rw [noPhysics] at physics
    rw [noNavigation] at navigation
    exact ⟨by simpa using physics, by simpa using navigation⟩
  · intro off
    cases state : game.gameState with
    | menu =>
      rcases Game.run_drawable world events state with container | ⟨noPhysics, noNavigation⟩
      · exact ⟨fun _ => (built.drawn (.inl container)).1, fun _ => (built.drawn (.inl container)).2⟩
      · exact ⟨fun debug => absurd debug (by simp [game, noPhysics]),
          fun debug => absurd debug (by simp [game, noNavigation])⟩
    | playing | dead | stairs =>
      have present := built.level_isSome (by rw [state]; rfl) returned
      exact ⟨fun _ => (built.drawn (.inr present)).1, fun _ => (built.drawn (.inr present)).2⟩
    | intro | credits | finished =>
      obtain ⟨noPhysics, noNavigation⟩ := off (by simp [state])
      exact ⟨fun debug => absurd debug (by simp [noPhysics]), fun debug => absurd debug (by simp [noNavigation])⟩

namespace WrightLevel

/-- The menu is left for the intro with the developer's keys switched on. -/
def developerIntro : List Event := [frame (some .backquote), frame (some .space)]

end WrightLevel

open WrightLevel in
/-- Key 2 during the intro switches the drawing of a physics world on that is not there. -/
theorem intro_draws_no_physics :
    let game := run (Game.step (world allSounds)) Game.create (developerIntro ++ [frame (some (.digit 2))])
    game.gameState = .intro ∧ game.status = .running ∧ game.debugPhysics = true ∧
      game.scene.physicsWorld = false ∧ (game.step (world allSounds) .postRenderUpdate).status = .crashed := by
  decide +kernel

open WrightLevel in
theorem debug_drawing_safe_level :
    let game := run (Game.step (world allSounds)) Game.create
      (developerIntro ++ [frame (some .space), frame (some (.digit 2))])
    game.DebugSafe := by
  intro game
  exact (debug_drawing_safe_iff (world allSounds) _ (by decide +kernel)).1.mpr (by decide +kernel)

end SneakySneaky
