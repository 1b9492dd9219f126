import SneakySneaky.EndLevelLatch
import SneakySneaky.Frame
import SneakySneaky.PadlockPanels

/-! # Teardown and the panels of the padlocks

The operations on padlocks and panels that each event of the engine comes to, and what
they leave between events: every panel in the tree belongs to a padlock of the scene, and
the panel of a padlock that is gone has left the tree once and is destroyed. -/

namespace SneakySneaky

open SneakySneaky.Foundation

namespace Game

/-! ## The operations of an event -/

def padlocks (game : Game) : List Padlock := (game.scene.level.map (·.items.padlocks)).getD []

/-- The operations of a `LoadLevel` that ends in this state. -/
def loadOps (loaded : Game) : List DisplayOp := [.uiClear, .sceneClear, .createPadlocks loaded.padlocks.length]

section Stages

variable (world : World) (input : Input) (game : Game)

def spaceOps : List DisplayOp :=
  if game.gameState ≠ .menu ∧ game.gameState ≠ .playing ∧
      (input.joystickButton || input.keyPress .space) = true then
    (if game.gameState ≠ .credits then loadOps (game.loadLevel world) else [])
  else []

def buildMenuOps : List DisplayOp :=
  (if game.scene.titleContainer then [] else [.sceneClear]) ++ (if game.root.title then [] else [.uiClear])

def leaveMenuOps (spacePressed : Bool) : List DisplayOp :=
  if spacePressed = true ∨ targetLevel input ≠ -1 then
    -- A level that is chosen by its key is cleared for twice.
    [.uiClear, .sceneClear] ++
      if spacePressed = true ∨ targetLevel input = 9 then [] else loadOps (game.leaveMenu world input spacePressed)
  else []

def menuOps (spacePressed : Bool) : List DisplayOp :=
  if game.gameState = .menu then
    game.buildMenuOps ++ (game.buildMenu.advanceTitle world input).leaveMenuOps world input spacePressed
  else []

def introOps : List DisplayOp :=
  let movie := game.introMovie.addTime input.timeStep
  if Movie.frameRate ≤ movie.frameTimer then
    if world.introFrame (movie.catchUpAll Movie.frameRate).frame then [] else loadOps (game.handleIntro world input)
  else []

def creditsOps : List DisplayOp :=
  let movie := game.creditsMovie.addTime input.timeStep
  if Movie.frameRate ≤ movie.frameTimer then
    if world.creditsFrame (movie.catchUpAll Movie.frameRate).frame then [] else [.uiClear]
  else []

def moviesOps : List DisplayOp :=
  if game.gameState = .intro then game.introOps world input
  else if game.gameState = .credits then game.creditsOps world input
  else []

def reloadOps : List DisplayOp :=
  if game.gameState = .playing ∧ input.keyPress .r = true then loadOps (game.loadLevel world) else []

def unlockOps : List DisplayOp := if input.keyPress .u then [.removePadlocks] else []

def developerOps : List DisplayOp :=
  if game.developerMode then
    let ended := ((game.toggleDebug input).handleReload world input).andThen (handleNext world input)
    -- N ends the level without loading one.
    (game.toggleDebug input).reloadOps world input ++
      if (ended.andThen (handleCrash input)).status.returned then unlockOps input else []
  else []

def frameOps : List DisplayOp :=
  (game.handleExitKey input).spaceOps world input ++
    ((if (game.afterSpace world input).status.returned then
        (game.afterSpace world input).menuOps world input (game.spacePressed world input) else []) ++
      ((if (game.afterMenu world input).status.returned then
          (game.afterMenu world input).moviesOps world input else []) ++
        if (game.afterMovies world input).status.returned then
          (game.afterMovies world input).developerOps world input else []))

end Stages

def levelOps (world : World) (game : Game) (event : LevelEvent) : List DisplayOp :=
  match game.scene.level with
  | none => []
  | some level =>
    match event with
    | .update (.item (.padlockUpdate padlock difference)) =>
      if level.sends (.item (.padlockUpdate padlock difference)) then
        [.updatePadlock padlock
          (decide ((level.items.step (.padlockUpdate padlock difference)).2 = .unlocked padlock))]
      else []
    | event =>
      match (level.step world.cache event).2 with
      | .endLevel _ call => if call.suppressScore then loadOps (game.levelStep world event) else []
      | .nothing | .played _ => []

def displayOps (world : World) (game : Game) (event : Event) : List DisplayOp :=
  if game.status = .running then
    match event with
    | .frame input => if game.betweenSteps then game.frameOps world input else []
    | .level event => game.levelOps world event
    | .postRenderUpdate => []
  else []

end Game

/-- The game, and the panels of its padlocks. -/
structure Display where
  game : Game
  panels : Panels

namespace Display

def create : Display := ⟨.create, .create⟩

def step (world : World) (display : Display) (event : Event) : Display where
  game := display.game.step world event
  panels := run Panels.step display.panels (display.game.displayOps world event)

theorem run_game (world : World) (display : Display) (events : List Event) :
    (run (step world) display events).game = run (Game.step world) display.game events :=
  run_view Display.game (fun _ _ => rfl) display events

end Display

/-! ## Padlocks of a level -/

theorem map_nodeRemoved_modify {padlocks : List Padlock} {padlock : ℕ} :
    (padlocks.modify padlock ({ · with nodeRemoved := true })).map Padlock.nodeRemoved =
      (padlocks.map Padlock.nodeRemoved).set padlock true := by
  refine List.ext_getElem? fun index => ?_
  by_cases same : padlock = index
  · subst same
    cases found : padlocks[padlock]? with
    | none => simp_all
    | some lock =>
      obtain ⟨bound, -⟩ := List.getElem?_eq_some_iff.mp found
      simp [bound]
  · simp [same]

namespace Items

/-- The update that unlocks a padlock finds it in the scene. -/
theorem padlockUpdate_cases (items : Items) (padlock : ℕ) (difference : Vector3) :
    ((items.step (.padlockUpdate padlock difference)).2 ≠ .unlocked padlock ∧
        (items.step (.padlockUpdate padlock difference)).1.padlocks = items.padlocks) ∨
      ((items.step (.padlockUpdate padlock difference)).2 = .unlocked padlock ∧
        (items.padlocks.map Padlock.nodeRemoved)[padlock]? = some false ∧
        (items.step (.padlockUpdate padlock difference)).1.padlocks =
          items.padlocks.modify padlock ({ · with nodeRemoved := true })) := by
  simp only [Items.step]
  cases found : items.padlocks[padlock]? with
  | none => exact .inl ⟨by simp, rfl⟩
  | some lock =>
    simp only
    split
    · exact .inl ⟨by simp, rfl⟩
    · rename_i usable
      have present : lock.nodeRemoved = false := by
        cases removed : lock.nodeRemoved with
        | false => rfl
        | true => simp [removed] at usable
      split
      · exact .inl ⟨by simp, rfl⟩
      · exact .inr ⟨rfl, by simp [found, present], rfl⟩

theorem step_padlocks (items : Items) {event : ItemEvent}
    (other : ∀ padlock difference, event ≠ .padlockUpdate padlock difference) :
    (items.step event).1.padlocks = items.padlocks := by
  cases event with
  | pickupUpdate pickup colliders =>
    simp only [Items.step]
    split <;> rfl
  | selfDestroyUpdate pickup timeStep => rfl
  | throwerUpdate throwPressed =>
    simp only [Items.step]
    split
    · rfl
    · split <;> rfl
  | padlockUpdate padlock difference => exact absurd rfl (other padlock difference)
  | inventoryUpdate => rfl

end Items

namespace Level

theorem playIfAny_items (level : Level) (source : PlaySource) (queue : Option (List AudioQueueEntry)) :
    (level.playIfAny source queue).1.items = level.items := by
  cases queue <;> rfl

theorem handleContact_items (cache : SoundCache) (level : Level) (contact : Contact) :
    (level.handleContact cache contact).1.items = level.items := by
  cases contact with
  | guard guard | bertha bertha =>
    simp only [handleContact]
    split <;> rfl
  | laserOnPerson laser =>
    simp only [handleContact]
    split <;> rfl
  | laserOnBertha laser bertha =>
    simp only [handleContact]
    split
    · rfl
    · split
      · exact playIfAny_items _ _ _
      · rfl
  | audioZone zone =>
    simp only [handleContact]
    split
    · rfl
    · split <;> rfl
  | poster room wright poster =>
    simp only [handleContact]
    split
    · rfl
    · split
      · rfl
      · exact playIfAny_items _ _ _
  | terminal wife terminal => rfl

/-- Only the update of a padlock changes the padlocks. -/
theorem step_padlocks (cache : SoundCache) (level : Level) {event : LevelEvent}
    (other : ∀ padlock difference, event ≠ .update (.item (.padlockUpdate padlock difference))) :
    (level.step cache event).1.items.padlocks = level.items.padlocks := by
  cases event with
  | beginPhysicsStep =>
    simp only [Level.step]
    split <;> rfl
  | contact contact =>
    simp only [Level.step]
    split
    · rw [handleContact_items]
    · rfl
  | endPhysicsStep => rfl
  | update update =>
    simp only [Level.step]
    split
    · cases update with
      | item event =>
        exact level.items.step_padlocks fun padlock difference same => other padlock difference (same ▸ rfl)
      | stairs personOffset =>
        simp only [handleUpdate]
        split <;> rfl
      | wrightStart room wright random swapTimer =>
        simp only [handleUpdate]
        split
        · rfl
        · split <;> rfl
      | wright room wright timeStep random =>
        simp only [handleUpdate]
        split <;> rfl
      | wife wife position personPosition =>
        simp only [handleUpdate]
        split <;> rfl
      | audioManager isPlaying timeStep | guard guard playerDetected | laser laser timeStep
      | wifeStart wife random => rfl
    · rfl

end Level

/-! ## The invariant -/

/-- The pointers are those of the level's padlocks, and outside of a level there are none. -/
structure Displays (game : Game) (panels : Panels) : Prop where
  shown : panels.Shown
  agrees : panels.flags = game.padlocks.map Padlock.nodeRemoved
  outside : game.gameState.inLevel = false → game.padlocks = []

namespace Displays

variable {world : World} {input : Input} {game game' : Game} {panels : Panels}

theorem create : Displays .create .create := ⟨Panels.create_shown, rfl, fun _ => rfl⟩

theorem keeps (displays : Displays game panels) (padlocks : game'.padlocks = game.padlocks)
    (gameState : game'.gameState = game.gameState) : Displays game' panels :=
  ⟨displays.shown, by rw [padlocks]; exact displays.agrees, by rw [padlocks, gameState]; exact displays.outside⟩

/-- Without padlocks in the game there are no pointers. -/
theorem no_padlocks (displays : Displays game panels) (none : game.padlocks = []) : panels.padlocks = [] := by
  have agrees := displays.agrees
  rw [none] at agrees
  exact List.map_eq_nil_iff.mp agrees

theorem empty (shown : panels.Shown) (pointers : panels.padlocks = []) (none : game.padlocks = []) :
    Displays game panels := by
  refine ⟨shown, ?_, fun _ => none⟩
  rw [none, Panels.flags, pointers]
  rfl

theorem stage {next : Game → Game} {ops : List DisplayOp} (displays : Displays game panels)
    (keeps : Displays (next game) (run Panels.step panels ops)) :
    Displays (game.andThen next) (run Panels.step panels (if game.status.returned then ops else [])) := by
  simp only [Game.andThen]
  split
  · exact keeps
  · exact displays

/-! ## `LoadLevel` and `EndLevel` -/

/-- A level is loaded with all its padlocks in the scene. -/
theorem loadLevel_padlocks (world : World) (game : Game) :
    (game.loadLevel world).padlocks.map Padlock.nodeRemoved =
      List.replicate (game.loadLevel world).padlocks.length false := by
  rw [List.eq_replicate_iff]
  refine ⟨List.length_map _, fun flag member => ?_⟩
  obtain ⟨lock, loaded, rfl⟩ := List.mem_map.mp member
  cases found : (game.loadLevel world).scene.level with
  | none => simp [Game.padlocks, found] at loaded
  | some level =>
    obtain ⟨rooms, rfl⟩ := Game.loadLevel_level found
    simp only [Game.padlocks, found, Option.map_some, Option.getD_some, Level.load, Items.load] at loaded
    obtain ⟨element, -, rfl⟩ := List.mem_map.mp loaded
    rfl

/-- `Stop` acts on panels that `UI::Clear` has taken out of the tree, and finds them alive. -/
theorem loadLevel (settled : panels.Settled) (world : World) (game : Game) :
    Displays (game.loadLevel world) (run Panels.step panels (Game.loadOps (game.loadLevel world))) := by
  have cleared := settled.uiClear.sceneClear
  refine ⟨cleared.createPadlocks _, ?_, fun outside => ?_⟩
  · rw [loadLevel_padlocks]
    simp [Game.loadOps, Panels.step, Panels.flags, PanelPointer.isStopped]
  · have result := Game.loadLevel_result world game
    generalize game.loadLevel world = after at result outside ⊢
    cases result with
    | credits missing => rfl
    | hang found => rfl
    | enter found read => cases outside

theorem endLevel_disables {level : Level} (displays : Displays game panels)
    (found : game.scene.level = some level) (world : World) (caller : EndCaller) (died : Bool) :
    Displays (game.endLevel world caller ⟨died, false⟩) panels := by
  rw [Game.endLevel_ends found]
  refine ⟨displays.shown, ?_, fun outside => ?_⟩
  · rw [displays.agrees]
    simp [Game.padlocks, Game.disable, found]
  · cases died <;> cases outside

/-! ## The stages of a frame -/

theorem exitKey (displays : Displays game panels) (input : Input) :
    Displays (game.handleExitKey input) panels := by
  obtain ⟨status, exitTimer, result, -⟩ := Game.handleExitKey_eq input game
  rw [result]
  exact displays.keeps rfl rfl

theorem space (displays : Displays game panels) (world : World) (input : Input) :
    Displays (game.handleSpace world input).1 (run Panels.step panels (game.spaceOps world input)) := by
  simp only [Game.handleSpace, Game.spaceOps]
  split
  · simp only
    split
    · exact loadLevel displays.shown.settled world game
    · rename_i credits
      have none : game.padlocks = [] := displays.outside (by rw [not_not.mp credits]; rfl)
      exact empty displays.shown (displays.no_padlocks none) none
  · exact displays

theorem buildMenu (displays : Displays game panels) (menu : game.gameState = .menu) :
    Displays game.buildMenu (run Panels.step panels game.buildMenuOps) := by
  have none : game.padlocks = [] := displays.outside (by rw [menu]; rfl)
  have built : game.buildMenu.padlocks = [] := by
    simp only [Game.padlocks, Game.buildMenu]
    split
    · exact none
    · rfl
  simp only [Game.buildMenuOps, run_append]
  -- After the first operation the scene has no padlock, whether it was cleared or not.
  have scene : (run Panels.step panels (if game.scene.titleContainer then [] else [.sceneClear])).Shown ∧
      (run Panels.step panels (if game.scene.titleContainer then [] else [.sceneClear])).padlocks = [] := by
    split
    · exact ⟨displays.shown, displays.no_padlocks none⟩
    · exact ⟨displays.shown.settled.sceneClear, rfl⟩
  generalize run Panels.step panels (if game.scene.titleContainer then [] else [.sceneClear]) = cleared at scene ⊢
  obtain ⟨shown, pointers⟩ := scene
  split
  · exact empty shown pointers built
  · exact empty (shown.uiClear pointers) pointers built

theorem advanceTitle (displays : Displays game panels) (world : World) (input : Input) :
    Displays (game.advanceTitle world input) panels := by
  obtain ⟨titleMovie, result⟩ := Game.advanceTitle_eq world input game
  rw [result]
  exact displays.keeps rfl rfl

theorem leaveMenu (displays : Displays game panels) (world : World) (input : Input) (spacePressed : Bool) :
    Displays (game.leaveMenu world input spacePressed)
      (run Panels.step panels (game.leaveMenuOps world input spacePressed)) := by
  simp only [Game.leaveMenuOps]
  split
  · rename_i leaves
    have cleared := displays.shown.settled.uiClear.sceneClear
    split
    · rename_i movie
      simp only [Game.leaveMenu, if_pos leaves, if_pos movie]
      exact empty cleared rfl rfl
    · rename_i level
      simp only [Game.leaveMenu, if_pos leaves, if_neg level]
      exact loadLevel cleared.settled world _
  · rename_i stays
    simp only [Game.leaveMenu, if_neg stays]
    exact displays

theorem menu (displays : Displays game panels) (world : World) (input : Input) (spacePressed : Bool) :
    Displays (game.handleMenu world input spacePressed)
      (run Panels.step panels (game.menuOps world input spacePressed)) := by
  simp only [Game.handleMenu, Game.menuOps]
  split
  · rename_i isMenu
    rw [run_append]
    exact ((displays.buildMenu isMenu).advanceTitle world input).leaveMenu world input spacePressed
  · exact displays

/-- The credits clear the UI alone, in a scene without padlocks. -/
theorem movies (displays : Displays game panels) (world : World) (input : Input) :
    Displays (game.handleMovies world input) (run Panels.step panels (game.moviesOps world input)) := by
  simp only [Game.handleMovies, Game.moviesOps]
  split
  · simp only [Game.handleIntro, Game.introOps]
    split
    · split
      · split
        · exact displays.keeps rfl rfl
        · exact displays.keeps rfl rfl
      · exact loadLevel displays.shown.settled world _
    · exact displays.keeps rfl rfl
  · split
    · rename_i playing
      rw [if_neg (by simp [playing])]
      exact displays.keeps rfl rfl
    · split
      · rename_i credits
        have none : game.padlocks = [] := displays.outside (by rw [credits]; rfl)
        have pointers := displays.no_padlocks none
        simp only [Game.handleCredits, Game.creditsOps]
        split
        · split
          · split
            · exact displays.keeps rfl rfl
            · exact displays.keeps rfl rfl
          · exact empty (displays.shown.uiClear pointers) pointers none
        · exact displays.keeps rfl rfl
      · exact displays

theorem toggleDebug (displays : Displays game panels) (input : Input) :
    Displays (game.toggleDebug input) panels := displays.keeps rfl rfl

theorem reload (displays : Displays game panels) (world : World) (input : Input) :
    Displays (game.handleReload world input) (run Panels.step panels (game.reloadOps world input)) := by
  simp only [Game.handleReload, Game.reloadOps]
  split
  · exact loadLevel displays.shown.settled world game
  · exact displays

theorem next (displays : Displays game panels) (world : World) (input : Input) :
    Displays (game.handleNext world input) panels := by
  simp only [Game.handleNext]
  split
  · cases found : game.scene.level with
    | none =>
      simp only [Game.endLevel, found]
      exact displays.keeps rfl rfl
    | some level => exact displays.endLevel_disables found world .developer false
  · exact displays

theorem crash (displays : Displays game panels) (input : Input) :
    Displays (game.handleCrash input) panels := by
  rcases Game.handleCrash_cases input game with same | ⟨-, crashed⟩
  · rw [same]
    exact displays
  · rw [crashed]
    exact displays.keeps rfl rfl

/-- The developer's U removes the nodes of all padlocks, and of those that have been opened again. -/
theorem unlock (displays : Displays game panels) (input : Input) :
    Displays (game.handleUnlock input) (run Panels.step panels (Game.unlockOps input)) := by
  simp only [Game.handleUnlock, Game.unlockOps]
  split
  · have padlocks : ({ game with
        scene := { game.scene with
          level := game.scene.level.map fun level =>
            { level with items := { level.items with
              padlocks := level.items.padlocks.map ({ · with nodeRemoved := true }) } } } } : Game).padlocks =
        game.padlocks.map ({ · with nodeRemoved := true }) := by
      cases found : game.scene.level <;> simp [Game.padlocks, found]
    have length : panels.padlocks.length = game.padlocks.length := by
      simpa [Panels.flags] using congrArg List.length displays.agrees
    refine ⟨displays.shown.removePadlocks, ?_, fun outside => ?_⟩
    · rw [padlocks]
      refine (Panels.stopAll_flags panels).trans ?_
      simp [length, Function.comp_def, List.map_const']
    · rw [padlocks, displays.outside outside]
      rfl
  · exact displays

theorem developer (displays : Displays game panels) (world : World) (input : Input) :
    Displays (game.handleDeveloper world input) (run Panels.step panels (game.developerOps world input)) := by
  simp only [Game.handleDeveloper, Game.developerOps]
  split
  · rw [run_append]
    have reloaded := (displays.toggleDebug input).reload world input
    have ended : Displays
        (((game.toggleDebug input).handleReload world input).andThen (Game.handleNext world input))
        (run Panels.step panels ((game.toggleDebug input).reloadOps world input)) := by
      simp only [Game.andThen]
      split
      · exact reloaded.next world input
      · exact reloaded
    have crashed : Displays ((((game.toggleDebug input).handleReload world input).andThen
        (Game.handleNext world input)).andThen (Game.handleCrash input))
        (run Panels.step panels ((game.toggleDebug input).reloadOps world input)) := by
      rw [Game.andThen]
      split
      · exact ended.crash input
      · exact ended
    exact crashed.stage (crashed.unlock input)
  · split
    · exact displays.keeps rfl rfl
    · exact displays

theorem cheat (displays : Displays game panels) (input : Input) : Displays (game.handleCheat input) panels := by
  rcases Game.handleCheat_cases input game with ⟨_, _, result, -⟩ | ⟨-, -, result⟩
  · rw [result]
    exact displays.keeps rfl rfl
  · rw [result]
    exact displays.keeps rfl rfl

theorem frame (displays : Displays game panels) (world : World) (input : Input) :
    Displays (game.handleUpdate world input) (run Panels.step panels (game.frameOps world input)) := by
  have afterSpace := (displays.exitKey input).space world input
  have afterMenu := afterSpace.stage (afterSpace.menu world input (game.spacePressed world input))
  have afterMovies := afterMenu.stage (afterMenu.movies world input)
  have developed := afterMovies.stage (afterMovies.developer world input)
  rw [Game.handleUpdate_eq, Game.frameOps, run_append, run_append, run_append, Game.andThen]
  split
  · exact developed.cheat input
  · exact developed

/-! ## Events in a level -/

theorem withLevel {level next : Level} (displays : Displays game panels) (found : game.scene.level = some level)
    (padlocks : next.items.padlocks = level.items.padlocks) : Displays (game.withLevel next) panels :=
  displays.keeps (by simp [Game.padlocks, Game.withLevel, found, padlocks]) rfl

/-- `EndLevel` clears UI and scene only when it goes on to load a level. -/
theorem act {level next : Level} (displays : Displays game panels) (found : game.scene.level = some level)
    (padlocks : next.items.padlocks = level.items.padlocks) (world : World) (action : LevelAction) :
    Displays (Game.act world (game.withLevel next) action)
      (run Panels.step panels
        (match action with
        | .endLevel _ call =>
          if call.suppressScore then Game.loadOps (Game.act world (game.withLevel next) action) else []
        | .nothing | .played _ => [])) := by
  have updated := displays.withLevel found padlocks
  cases action with
  | nothing => exact updated
  | played source => exact updated.keeps rfl rfl
  | endLevel caller call =>
    obtain ⟨died, suppressScore⟩ := call
    have present : (game.withLevel next).scene.level = some next := rfl
    cases suppressScore with
    | false => exact updated.endLevel_disables present world caller died
    | true =>
      simp only [Game.act, Game.endLevel_loads present, if_true]
      exact loadLevel displays.shown.settled world _

theorem padlockUpdate {level : Level} (displays : Displays game panels) (found : game.scene.level = some level)
    (padlock : ℕ) (difference : Vector3) :
    Displays (game.levelStep world (.update (.item (.padlockUpdate padlock difference))))
      (run Panels.step panels (game.levelOps world (.update (.item (.padlockUpdate padlock difference))))) := by
  have padlocks : game.padlocks = level.items.padlocks := by simp [Game.padlocks, found]
  simp only [Game.levelStep, Game.levelOps, found, Level.step]
  split
  · simp only [Level.handleUpdate, Game.act, run_cons, run_nil]
    have flags := displays.agrees
    rw [padlocks] at flags
    refine ⟨displays.shown.updatePadlock padlock _, ?_, fun outside => ?_⟩
    · rcases level.items.padlockUpdate_cases padlock difference with ⟨kept, same⟩ | ⟨unlocked, present, removed⟩
      · rw [Panels.updatePadlock_flags _ _ _ (by simp [kept]), flags]
        simp [Game.padlocks, kept, same]
      · rw [Panels.updatePadlock_flags _ _ _ (by simp [flags, present]), flags]
        simp only [Game.padlocks, Option.map_some, Option.getD_some, removed, map_nodeRemoved_modify, unlocked]
        simp
    · have none := displays.outside outside
      rw [padlocks] at none
      rcases level.items.padlockUpdate_cases padlock difference with ⟨-, same⟩ | ⟨-, present, -⟩
      · simp [Game.padlocks, same, none]
      · simp [none] at present
  · exact displays.withLevel found rfl

theorem level (displays : Displays game panels) (world : World) (event : LevelEvent) :
    Displays (game.levelStep world event) (run Panels.step panels (game.levelOps world event)) := by
  cases found : game.scene.level with
  | none =>
    simp only [Game.levelStep, Game.levelOps, found]
    exact displays
  | some level =>
    by_cases padlock : ∃ padlock difference, event = .update (.item (.padlockUpdate padlock difference))
    · obtain ⟨padlock, difference, rfl⟩ := padlock
      exact displays.padlockUpdate found padlock difference
    · have other : ∀ padlock difference, event ≠ .update (.item (.padlockUpdate padlock difference)) :=
        fun index difference same => padlock ⟨index, difference, same⟩
      have acted := displays.act found (level.step_padlocks world.cache other) world
        (level.step world.cache event).2
      simp only [Game.levelStep, Game.levelOps, found]
      exact acted

/-! ## Runs -/

theorem event (displays : Displays game panels) (world : World) (event : Event) :
    Displays (game.step world event) (run Panels.step panels (game.displayOps world event)) := by
  simp only [Game.step, Game.displayOps]
  split
  · cases event with
    | frame input =>
      simp only
      split
      · exact displays.frame world input
      · exact displays
    | level event => exact displays.level world event
    | postRenderUpdate =>
      simp only
      split
      · rcases Game.handlePostRenderUpdate_cases game with same | crashed
        · rw [same]
          exact displays
        · rw [crashed]
          exact displays.keeps rfl rfl
      · exact displays
  · exact displays

theorem run (world : World) (events : List Event) :
    Displays (run (Display.step world) .create events).game (run (Display.step world) .create events).panels :=
  run_invariant (fun display : Display => Displays display.game display.panels)
    (fun _ event displays => displays.event world event) Displays.create events

end Displays

/-- In every run `Stop` and `Update` act on living panels only, and `Update` on panels in the tree.  The
    panel of a padlock in the scene is in the tree; that of a padlock that has been unlocked or
    cleared away has left it once, and is destroyed. -/
theorem panels_released_once (world : World) (events : List Event) :
    let display := run (Display.step world) .create events
    display.game = run (Game.step world) .create events ∧
      display.panels.padlocks.map PanelPointer.isStopped = display.game.padlocks.map Padlock.nodeRemoved ∧
      ∀ panel < display.panels.created,
        let history := display.panels.history panel
        history.refHistory.Sane ∧ history.UpdatedInTree ∧
          if .panel panel ∈ display.panels.padlocks then history.exits = 0 ∧ 0 < history.refHistory.refs
          else history.exits = 1 ∧ history.refHistory.refs = 0 := by
  intro display
  obtain ⟨shown, agrees, -⟩ : Displays display.game display.panels := Displays.run world events
  refine ⟨Display.run_game world .create events, agrees, fun panel isMade => ?_⟩
  refine ⟨(shown.settled.owned.account panel).sane, shown.settled.updated panel, ?_⟩
  split
  · rename_i stored
    exact shown.stored stored
  · rename_i gone
    exact shown.settled.owned.gone isMade gone

namespace PadlockLevel

/-- Every room holds one padlock. -/
def world : World :=
  { WrightLevel.world WrightLevel.allSounds with
    roomXml := fun _ _ _ =>
      some (.mk "room" [] "" [.mk "object" [("interaction", "Padlock"), ("type", "Key")] "" []]) }

/-- The padlock is updated once, far from the player, and a developer loads the level again. -/
def reload : List Event :=
  WrightLevel.enterLevel ++
    [.level (.update (.item (.padlockUpdate 0 ⟨2, 0, 0⟩))), WrightLevel.frame (some .backquote),
      WrightLevel.frame (some .r)]

end PadlockLevel

/-- `LoadLevel` clears the UI first, and `Stop` then acts on a panel that `UI::Clear` has taken out. -/
theorem load_stops_cleared_panel :
    let panels := (run (Display.step PadlockLevel.world) .create PadlockLevel.reload).panels
    ¬ ∀ panel < panels.created, (panels.history panel).UntouchedOnceCleared := by
  intro panels untouched
  exact absurd (untouched 0 (by decide +kernel)) (by decide +kernel)

end SneakySneaky
