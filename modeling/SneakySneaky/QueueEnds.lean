import SneakySneaky.BossVictory

/-! # Who ends a level through the audio queue

`HandleSceneUpdate` takes every entry with a NULL sound for the one that ends the level.
As long as all clips that are handed to `Play` have loaded, each such entry comes from a
boss that was defeated in the level, and so does each `EndLevel` of the audio manager. -/

namespace SneakySneaky

open SneakySneaky.Foundation

/-! ## The calls -/

def Call.defeatsBoss : Call → Bool
  | .play source => source ≠ .audioZone
  | _ => false

/-- A boss has handed over its queue since the level was loaded. -/
def bossDefeated (calls : List Call) : Bool := (calls.takeWhile (· ≠ .loadLevel)).any Call.defeatsBoss

/-- Whenever the audio manager has called `EndLevel` it had popped a level-end entry, and a boss of
    the level had been defeated. -/
def EndsByBoss (calls : List Call) : Prop :=
  ∀ later popped call earlier, calls = later ++ .endLevel (.audioManager popped) call :: earlier →
    popped = .levelEnd ∧ bossDefeated earlier = true

theorem bossDefeated_cons {call : Call} {calls : List Call} (defeated : bossDefeated calls = true)
    (sameLevel : call ≠ .loadLevel) : bossDefeated (call :: calls) = true := by
  rw [bossDefeated, List.takeWhile_cons_of_pos (by simpa using sameLevel), List.any_cons, Bool.or_eq_true]
  exact .inr defeated

theorem bossDefeated_play {source : PlaySource} (boss : source ≠ .audioZone) (calls : List Call) :
    bossDefeated (.play source :: calls) = true := by
  simp [bossDefeated, Call.defeatsBoss, boss]

theorem EndsByBoss.cons {call : Call} {calls : List Call} (ends : EndsByBoss calls)
    (justified : ∀ popped arguments, call = .endLevel (.audioManager popped) arguments →
      popped = .levelEnd ∧ bossDefeated calls = true) : EndsByBoss (call :: calls) := by
  intro later popped arguments earlier split
  cases later with
  -- The call in question is the new one, or an old one.
  | nil =>
    obtain ⟨rfl, rfl⟩ := List.cons.inj split
    exact justified popped arguments rfl
  | cons newest later => exact ends later popped arguments earlier (List.cons.inj split).2

/-! ## The queue -/

/-- Every entry with a NULL sound comes from a boss that was defeated in the level. -/
structure Attributed (manager : AudioManager) (calls : List Call) : Prop where
  load : clipsLoad manager.queue = true
  marker : ∀ entry ∈ manager.queue, entry.origin = .levelEnd → bossDefeated calls = true

namespace Attributed

variable {manager manager' : AudioManager} {calls : List Call}

theorem cons (attributed : Attributed manager calls) {call : Call} (sameLevel : call ≠ .loadLevel) :
    Attributed manager (call :: calls) :=
  ⟨attributed.load, fun entry member marked => bossDefeated_cons (attributed.marker entry member marked) sameLevel⟩

theorem endLevel (attributed : Attributed manager calls) (caller : EndCaller) (call : EndCall) :
    Attributed manager (.endLevel caller call :: calls) :=
  attributed.cons (by simp)

theorem empty (calls : List Call) : Attributed .empty calls := ⟨rfl, nofun⟩

theorem of_labels (attributed : Attributed manager calls) (labels : manager'.labels = manager.labels) :
    Attributed manager' calls := by
  obtain ⟨load, marker⟩ := attributed
  refine ⟨?_, fun entry member marked => ?_⟩
  · rw [AudioManager.clipsLoad_eq_labels, labels, ← AudioManager.clipsLoad_eq_labels]
    exact load
  · have labelled : (entry.sound, entry.origin) ∈ manager'.labels := List.mem_map_of_mem member
    rw [labels] at labelled
    obtain ⟨before, memberBefore, same⟩ := List.mem_map.mp labelled
    exact marker before memberBefore ((Prod.mk.inj same).2.trans marked)

theorem of_pop (attributed : Attributed manager calls) {front : List AudioQueueEntry} {next : AudioQueueEntry}
    (queue : manager.queue = front ++ [next]) : Attributed ⟨front⟩ calls := by
  obtain ⟨load, marker⟩ := attributed
  rw [queue] at load marker
  rw [clipsLoad, List.all_append, Bool.and_eq_true] at load
  exact ⟨load.1, fun entry member => marker entry (List.mem_append_left _ member)⟩

theorem popped (attributed : Attributed manager calls) {front : List AudioQueueEntry} {next : AudioQueueEntry}
    (queue : manager.queue = front ++ [next]) (null : next.sound = none) :
    next.origin = .levelEnd ∧ bossDefeated calls = true := by
  have member : next ∈ manager.queue := by rw [queue]; exact List.mem_append_right _ (List.mem_singleton_self _)
  have load := List.all_eq_true.mp attributed.load next member
  have marked : next.origin = .levelEnd := by simpa [null] using load
  exact ⟨marked, attributed.marker next member marked⟩

end Attributed

/-! ## Events in a level -/

/-- The queue that the contact makes its handler hand over has loaded. -/
def Level.handsLoaded (cache : SoundCache) (level : Level) (contact : Contact) : Bool :=
  (level.entersZone contact).all (fun zone => clipsLoad zone.queue) &&
    (!level.defeatsBoss contact || clipsLoad (Level.finalQueue cache contact))

/-- What an event leaves in the queue is attributed by the calls that it makes. -/
theorem Attributed.move {cache : SoundCache} {level level' : Level} {event : LevelEvent} {action : LevelAction}
    {calls : List Call} (attributed : Attributed level.audio calls)
    (move : Level.Move cache level event level' action)
    (loaded : ∀ contact, event = .contact contact → level.physics = .stepping true →
      level.handsLoaded cache contact = true) : Attributed level'.audio (action.calls ++ calls) := by
  cases move with
  | quiet keeps =>
    rw [keeps.audio]
    exact attributed
  | fatal _ _ _ keeps | wife _ _ keeps =>
    rw [keeps.audio]
    exact attributed.endLevel _ _
  | stairs => exact attributed.endLevel _ _
  | @enter contact zone _ stepping enters _ audio =>
    have load := loaded contact rfl stepping
    rw [Level.handsLoaded, enters, Bool.and_eq_true] at load
    rw [audio]
    refine ⟨?_, fun entry member marked => ?_⟩
    · rw [AudioManager.queue_play]
      exact load.1
    -- A zone's entries are clips, whatever their sounds.
    · rw [AudioManager.queue_play] at member
      rw [zone.fromClips entry member] at marked
      cases marked
  | @defeat contact source _ stepping defeats boss _ audio =>
    have load := loaded contact rfl stepping
    rw [Level.handsLoaded, defeats, Bool.and_eq_true] at load
    rw [audio]
    refine ⟨?_, fun _ _ _ => bossDefeated_play boss calls⟩
    rw [AudioManager.queue_play]
    exact load.2
  | @dialogue isPlaying timeStep sends =>
    simp only [Level.handleAudioUpdate]
    rcases level.audio.handleSceneUpdate_cases binary32 isPlaying timeStep with
      ⟨nothing, labels⟩ | ⟨front, next, sound, queue, -, popped⟩ | ⟨front, next, queue, -, -, popped⟩
    · rw [nothing]
      exact attributed.of_labels labels
    · rw [popped]
      exact attributed.of_pop queue
    · rw [popped]
      exact (attributed.of_pop queue).endLevel _ _

theorem Attributed.ends {cache : SoundCache} {level level' : Level} {event : LevelEvent} {action : LevelAction}
    {calls : List Call} (attributed : Attributed level.audio calls)
    (move : Level.Move cache level event level' action) (ends : EndsByBoss calls) :
    EndsByBoss (action.calls ++ calls) := by
  cases move with
  | quiet => exact ends
  | fatal _ _ other =>
    -- Guards, Bertha and lasers call it themselves.
    refine ends.cons fun popped arguments same => ?_
    cases same
    exact absurd rfl (other popped)
  | stairs | wife | enter | defeat => exact ends.cons nofun
  | @dialogue isPlaying timeStep sends =>
    simp only [Level.handleAudioUpdate]
    rcases level.audio.handleSceneUpdate_cases binary32 isPlaying timeStep with
      ⟨nothing, -⟩ | ⟨front, next, sound, -, -, popped⟩ | ⟨front, next, queue, null, -, popped⟩
    · rw [nothing]
      exact ends
    · rw [popped]
      exact ends
    · rw [popped]
      refine ends.cons fun origin arguments same => ?_
      obtain ⟨marked, defeated⟩ := attributed.popped queue null
      simp only [queue, List.getLast?_concat, Option.map_some, Option.getD_some, Call.endLevel.injEq,
        EndCaller.audioManager.injEq] at same
      exact ⟨same.1.symm.trans marked, defeated⟩

/-! ## Runs -/

namespace Game

variable {world : World}

def handsLoaded (world : World) (game : Game) : Event → Bool
  | .level (.contact contact) =>
    game.scene.level.all fun level => level.physics ≠ .stepping true || level.handsLoaded world.cache contact
  | _ => true

structure BossesEnd (game : Game) : Prop where
  ends : EndsByBoss game.calls
  attributed : ∀ level, game.scene.level = some level → Attributed level.audio game.calls

theorem BossesEnd.load {game : Game} (ends : EndsByBoss game.calls) : (game.loadLevel world).BossesEnd := by
  constructor
  · rw [loadLevel_calls]
    exact ends.cons nofun
  · intro level found
    obtain ⟨rooms, rfl⟩ := loadLevel_level found
    exact .empty _

theorem BossesEnd.adjusts {game game' : Game} (bosses : game.BossesEnd) (adjusts : Adjusts game game') :
    game'.BossesEnd := by
  obtain ⟨ends, attributed⟩ := bosses
  constructor
  · rw [adjusts.calls]
    exact ends
  · intro level found
    obtain ⟨items, same⟩ := adjusts.level
    rw [same, Option.map_eq_some_iff] at found
    obtain ⟨before, foundBefore, rfl⟩ := found
    rw [adjusts.calls]
    exact attributed before foundBefore

theorem BossesEnd.move {game game' : Game} {input : Input} (bosses : game.BossesEnd) (placed : Placed world game)
    (move : Move world input game game') : game'.BossesEnd := by
  cases move with
  | adjust adjusts => exact bosses.adjusts adjusts
  | load _ _ _ calls => exact .load (by rw [calls]; exact bosses.ends)
  | leave outside _ _ _ _ calls _ level =>
    constructor
    · rw [calls]
      exact bosses.ends
    · intro left found
      rw [level (placed.no_level outside)] at found
      cases found
  | next =>
    cases found : game.scene.level with
    | none =>
      simp only [endLevel, found]
      exact bosses.adjusts (.same rfl rfl rfl rfl rfl rfl)
    | some level =>
      rw [endLevel_ends found]
      refine ⟨bosses.ends.cons (by simp), fun ended same => ?_⟩
      cases same
      exact (bosses.attributed level found).endLevel _ _

theorem BossesEnd.moves {game game' : Game} {input : Input} (bosses : game.BossesEnd) (placed : Placed world game)
    (moves : Moves world input game game') : game'.BossesEnd := by
  induction moves with
  | refl => exact bosses
  | tail before move inductionHypothesis => exact inductionHypothesis.move (placed.moves before) move

theorem BossesEnd.step {game : Game} {event : Event} (bosses : game.BossesEnd) (placed : Placed world game)
    (loaded : game.handsLoaded world event = true) : (game.step world event).BossesEnd := by
  refine step_preserves BossesEnd (fun _ _ => BossesEnd.adjusts) bosses
    (fun input middle _ moves => bosses.moves placed moves) ?_
  rintro levelEvent level rfl found
  have move := level.step_move world.cache levelEvent
  have before := bosses.attributed level found
  have ends := before.ends move bosses.ends
  rcases act_cases game (level.step world.cache levelEvent).1 (level.step world.cache levelEvent).2 with
    ⟨calls, level', found', audio⟩ | ⟨entered, calls, reloaded⟩
  · constructor
    · rw [calls]
      exact ends
    · intro after same
      obtain rfl : level' = after := Option.some.inj (found'.symm.trans same)
      rw [calls, audio]
      refine before.move move ?_
      rintro contact rfl stepping
      simpa [handsLoaded, found, stepping] using loaded
  · rw [reloaded]
    exact .load (by rw [calls]; exact ends)

theorem create_bossesEnd : create.BossesEnd := ⟨by simp [EndsByBoss, create], nofun⟩

end Game

/-- Only a defeated boss ends a level through the audio queue, in every run in which the clips of
    the zones the player walks into and of the bosses that are defeated have loaded. -/
theorem only_bosses_end_levels (world : World) (events : List Event)
    (loaded : Meets (Game.step world) (fun game event => game.handsLoaded world event = true) Game.create events) :
    EndsByBoss (run (Game.step world) Game.create events).calls := by
  have invariant := loaded.invariant (fun game => Game.Placed world game ∧ game.BossesEnd)
    (fun _ event both loaded => ⟨both.1.step event, both.2.step both.1 loaded⟩)
    ⟨Game.create_placed world, Game.create_bossesEnd⟩
  exact invariant.2.ends

/-- A zone's clip is heard, the puzzle is solved and the final dialogue ends the level. -/
theorem only_bosses_end_levels_wright :
    EndsByBoss (run (Game.step (WrightLevel.world WrightLevel.allSounds)) Game.create
      (WrightLevel.enterLevel ++ [.level .beginPhysicsStep, .level (.contact (.audioZone 0)),
        .level .endPhysicsStep] ++ WrightLevel.idleUpdates 1 ++ WrightLevel.solvePuzzle ++
          [.level .endPhysicsStep] ++ WrightLevel.idleUpdates 9)).calls :=
  only_bosses_end_levels (WrightLevel.world WrightLevel.allSounds)
    (WrightLevel.enterLevel ++ [.level .beginPhysicsStep, .level (.contact (.audioZone 0)),
      .level .endPhysicsStep] ++ WrightLevel.idleUpdates 1 ++ WrightLevel.solvePuzzle ++
        [.level .endPhysicsStep] ++ WrightLevel.idleUpdates 9)
    (by decide +kernel)

namespace WrightLevel

/-- A cache that cannot load the clip of the level's zone. -/
def missingClip : SoundCache := fun name => if name = "Audio/Hello.wav" then none else some ⟨name⟩

end WrightLevel

/-- The player walks into an audio zone whose clip cannot be loaded, and has completed the level. -/
theorem zone_ends_level :
    let game := run (Game.step (WrightLevel.world WrightLevel.missingClip)) Game.create
      (WrightLevel.enterLevel ++ [.level .beginPhysicsStep, .level (.contact (.audioZone 0)),
        .level .endPhysicsStep] ++ WrightLevel.idleUpdates 1)
    game.gameState = .stairs ∧ ¬EndsByBoss game.calls := by
  intro game
  refine ⟨by decide +kernel, fun ends => ?_⟩
  have popped := ends [] .zoneClip ⟨false, false⟩ game.calls.tail (by decide +kernel)
  cases popped.1

end SneakySneaky
