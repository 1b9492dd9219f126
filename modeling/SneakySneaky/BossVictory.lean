import SneakySneaky.EndLevelLatch

/-! # A boss victory and the audio queue

MrWright and Bertha, once defeated, end the level through an entry of the audio queue.
The entry is lost if an audio zone replaces the queue before it is popped; if none does,
it waits until the audio manager pops it. -/

namespace SneakySneaky

open SneakySneaky.Foundation

/-! ## The queue -/

/-- Only level-end entries have a NULL sound. -/
def clipsLoad (queue : List AudioQueueEntry) : Bool :=
  queue.all fun entry => entry.origin = .levelEnd || entry.sound.isSome

namespace AudioManager

def levelEnds (manager : AudioManager) : ℕ := manager.queue.countP fun entry => entry.origin = .levelEnd

def nulls (manager : AudioManager) : ℕ := manager.queue.countP fun entry => entry.sound.isNone

theorem levelEnds_eq_labels (manager : AudioManager) :
    manager.levelEnds = manager.labels.countP fun label => label.2 = .levelEnd := by
  rw [levelEnds, labels, List.countP_map]
  rfl

theorem clipsLoad_eq_labels (manager : AudioManager) :
    clipsLoad manager.queue = manager.labels.all fun label => label.2 = .levelEnd || label.1.isSome := by
  rw [clipsLoad, labels, List.all_map]
  rfl

theorem queue_play (manager : AudioManager) (sounds : List AudioQueueEntry) :
    (manager.play sounds false).queue = sounds :=
  List.append_nil sounds

theorem nulls_eq_levelEnds {manager : AudioManager} (load : clipsLoad manager.queue = true) :
    manager.nulls = manager.levelEnds := by
  refine List.countP_congr fun entry member => ?_
  have marked := List.all_eq_true.mp load entry member
  rw [Bool.or_eq_true, decide_eq_true_iff, Option.isSome_iff_ne_none] at marked
  rw [Option.isNone_iff_eq_none, decide_eq_true_iff]
  exact ⟨fun null => marked.resolve_right fun sound => sound null, entry.levelEnd_null⟩

end AudioManager

def bossClipsLoad (cache : SoundCache) : Bool :=
  clipsLoad (MrWright.finalQueue cache) && clipsLoad (BossBertha.finalQueue cache)

theorem finalQueue_cases {level : Level} {contact : Contact} (cache : SoundCache)
    (defeats : level.defeatsBoss contact = true) :
    Level.finalQueue cache contact = MrWright.finalQueue cache ∨
      Level.finalQueue cache contact = BossBertha.finalQueue cache := by
  cases contact with
  | poster => exact .inl rfl
  | laserOnBertha => exact .inr rfl
  | guard | bertha | laserOnPerson | audioZone | terminal => cases defeats

/-! ## The entry in the queue -/

/-- The manager will end the level through one entry. -/
structure Wins (cache : SoundCache) (manager : AudioManager) : Prop where
  one : manager.levelEnds = 1
  load : bossClipsLoad cache = true → clipsLoad manager.queue = true

namespace Wins

variable {cache : SoundCache} {manager manager' : AudioManager}

theorem of_labels (wins : Wins cache manager) (labels : manager'.labels = manager.labels) :
    Wins cache manager' := by
  refine ⟨?_, fun clips => ?_⟩
  · rw [AudioManager.levelEnds_eq_labels, labels, ← AudioManager.levelEnds_eq_labels]
    exact wins.one
  · rw [AudioManager.clipsLoad_eq_labels, labels, ← AudioManager.clipsLoad_eq_labels]
    exact wins.load clips

/-- Popping another entry than the level-end entry leaves that one. -/
theorem of_pop (wins : Wins cache manager) {front : List AudioQueueEntry} {next : AudioQueueEntry}
    (queue : manager.queue = front ++ [next]) (other : next.origin ≠ .levelEnd) : Wins cache ⟨front⟩ := by
  obtain ⟨one, load⟩ := wins
  refine ⟨?_, fun clips => ?_⟩
  · rw [AudioManager.levelEnds, queue, List.countP_append] at one
    simpa [other, AudioManager.levelEnds] using one
  · have loaded := load clips
    rw [clipsLoad, queue, List.all_append, Bool.and_eq_true] at loaded
    exact loaded.1

theorem of_defeat {level : Level} {contact : Contact} (defeats : level.defeatsBoss contact = true)
    (manager : AudioManager) : Wins cache (manager.play (Level.finalQueue cache contact) false) := by
  refine ⟨?_, fun clips => ?_⟩
  · rcases finalQueue_cases cache defeats with final | final
    · rw [final]
      rfl
    · rw [final]
      rfl
  · rw [bossClipsLoad, Bool.and_eq_true] at clips
    rw [AudioManager.queue_play]
    rcases finalQueue_cases cache defeats with final | final
    · rw [final]
      exact clips.1
    · rw [final]
      exact clips.2

/-- Unless the player walks into a zone, the entry waits or is popped. -/
theorem move {level level' : Level} {event : LevelEvent} {action : LevelAction}
    (wins : Wins cache level.audio) (move : Level.Move cache level event level' action)
    (outside : ∀ contact, event = .contact contact → level.physics = .stepping true →
      level.entersZone contact = none)
    (unpopped : action ≠ .endLevel (.audioManager .levelEnd) ⟨false, false⟩) : Wins cache level'.audio := by
  cases move with
  | quiet keeps | fatal _ _ _ keeps | wife _ _ keeps =>
    rw [keeps.audio]
    exact wins
  | stairs => exact wins
  | enter stepping enters =>
    rw [outside _ rfl stepping] at enters
    cases enters
  | defeat _ defeats _ _ audio =>
    rw [audio]
    exact .of_defeat defeats _
  | @dialogue isPlaying timeStep sends =>
    simp only [Level.handleAudioUpdate] at unpopped ⊢
    rcases level.audio.handleSceneUpdate_cases binary32 isPlaying timeStep with
      ⟨-, labels⟩ | ⟨front, next, sound, queue, heard, popped⟩ | ⟨front, next, queue, -, -, popped⟩
    · exact wins.of_labels labels
    · rw [popped]
      refine wins.of_pop queue fun marker => ?_
      -- What is heard is no level-end entry.
      rw [next.levelEnd_null marker] at heard
      cases heard
    · rw [popped] at unpopped ⊢
      refine wins.of_pop queue fun marker => ?_
      simp [queue, marker] at unpopped

theorem of_played {level level' : Level} {event : LevelEvent} {action : LevelAction} {source : PlaySource}
    (move : Level.Move cache level event level' action) (boss : source ≠ .audioZone)
    (played : action = .played source) : Wins cache level'.audio := by
  cases move with
  | quiet | fatal | stairs | wife => cases played
  | enter =>
    cases played
    exact absurd rfl boss
  | defeat _ defeats _ _ audio =>
    rw [audio]
    exact .of_defeat defeats _
  | dialogue =>
    simp only [Level.handleAudioUpdate] at played
    split at played <;> cases played

end Wins

/-! ## The victory is kept -/

namespace Game

variable {world : World}

/-- The number of times the audio manager has popped a level-end entry and called `EndLevel`. -/
def levelEndPops (game : Game) : ℕ :=
  game.calls.count (.endLevel (.audioManager .levelEnd) ⟨false, false⟩)

def entersNoZone (game : Game) : Event → Bool
  | .level (.contact contact) =>
    game.scene.level.all fun level => level.physics ≠ .stepping true || (level.entersZone contact).isNone
  | _ => true

/-- Stands still until another level is loaded or the entry is popped. -/
def settled (game : Game) : ℕ := game.loads + game.levelEndPops

theorem pops_le_of_suffix {game game' : Game} (calls : game.calls <:+ game'.calls) :
    game.levelEndPops ≤ game'.levelEndPops :=
  calls.sublist.count_le _

theorem settled_le_of_suffix {game game' : Game} (calls : game.calls <:+ game'.calls) :
    game.settled ≤ game'.settled :=
  Nat.add_le_add (loads_le_of_suffix calls) (pops_le_of_suffix calls)

theorem unsettled {game game' : Game} (calls : game.calls <:+ game'.calls) (still : game'.settled = game.settled) :
    game'.loads = game.loads ∧ game'.levelEndPops = game.levelEndPops := by
  have loads := loads_le_of_suffix calls
  have pops := pops_le_of_suffix calls
  simp only [settled] at still
  omega

/-- The entry of a victory waits in the level's queue. -/
def VictoryWaits (world : World) (game : Game) : Prop :=
  ∃ level, game.scene.level = some level ∧ Wins world.cache level.audio

theorem VictoryWaits.adjusts {game game' : Game} (waits : VictoryWaits world game)
    (adjusts : Adjusts game game') : VictoryWaits world game' := by
  obtain ⟨level, found, wins⟩ := waits
  obtain ⟨items, same⟩ := adjusts.level
  exact ⟨{ level with items := items level.items }, by rw [same, found]; rfl, wins⟩

theorem VictoryWaits.move {game game' : Game} {input : Input} (waits : VictoryWaits world game)
    (placed : Placed world game) (move : Move world input game game') (unloaded : game'.loads = game.loads) :
    VictoryWaits world game' := by
  cases move with
  | adjust adjusts => exact waits.adjusts adjusts
  | load _ _ _ calls => exact absurd unloaded (loads_loadLevel_ne world calls)
  | leave outside =>
    obtain ⟨level, found, -⟩ := waits
    rw [placed.no_level outside] at found
    cases found
  | next =>
    obtain ⟨level, found, wins⟩ := waits
    exact ⟨{ level with enabled := false }, by rw [endLevel_ends found]; rfl, wins⟩

theorem VictoryWaits.act {game : Game} {level : Level} {event : LevelEvent} (found : game.scene.level = some level)
    (waits : VictoryWaits world game) (outside : game.entersNoZone (.level event) = true)
    (still : (act world (game.withLevel (level.step world.cache event).1)
      (level.step world.cache event).2).settled = game.settled) :
    VictoryWaits world (act world (game.withLevel (level.step world.cache event).1)
      (level.step world.cache event).2) := by
  obtain ⟨level₀, found₀, wins⟩ := waits
  obtain rfl : level = level₀ := Option.some.inj (found.symm.trans found₀)
  -- The counter stands still, so the event neither loaded a level nor popped the entry.
  obtain ⟨unloaded, unpopped⟩ := unsettled (act_calls game _ _) still
  obtain ⟨calls, level', found', audio⟩ := act_unloaded unloaded
  refine ⟨level', found', audio ▸ wins.move (level.step_move world.cache event) ?_ ?_⟩
  · rintro contact rfl stepping
    simpa [entersNoZone, found, stepping] using outside
  · intro popped
    rw [levelEndPops, calls, popped, List.count_append, levelEndPops] at unpopped
    simp [LevelAction.calls] at unpopped

abbrev Kept (world : World) (won : Game) : Game → Prop := Until settled (VictoryWaits world) won.settled

theorem Kept.adjusts {won game game' : Game} (kept : Kept world won game) (adjusts : Adjusts game game') :
    Kept world won game' :=
  kept.next (settled_le_of_suffix ⟨[], adjusts.calls.symm⟩) fun _ waits => waits.adjusts adjusts

theorem Kept.moves {won game game' : Game} {input : Input} (placed : Placed world game) (kept : Kept world won game)
    (moves : Moves world input game game') : Kept world won game' := by
  induction moves with
  | refl => exact kept
  | tail before move inductionHypothesis =>
    exact inductionHypothesis.next (settled_le_of_suffix move.calls) fun still waits =>
      waits.move (placed.moves before) move (unsettled move.calls still).1

theorem Kept.step {won game : Game} {event : Event} (placed : Placed world game) (kept : Kept world won game)
    (outside : game.entersNoZone event = true) : Kept world won (game.step world event) := by
  refine step_preserves (Kept world won) (fun _ _ => Kept.adjusts) kept
    (fun input middle _ moves => Kept.moves placed kept moves) ?_
  rintro levelEvent level rfl found
  exact kept.next (settled_le_of_suffix (act_calls game _ _)) fun still waits => waits.act found outside still

/-- A step in which a boss has handed over its queue puts the entry into the queue. -/
theorem VictoryWaits.start {game : Game} {event : Event} {source : PlaySource} (boss : source ≠ .audioZone)
    (handed : (game.step world event).calls = .play source :: game.calls) :
    VictoryWaits world (game.step world event) := by
  rcases step_cases world game event with
    ⟨input, rfl, stepped⟩ | ⟨levelEvent, level, rfl, found, stepped⟩ | adjusts
  · obtain ⟨middle, moves, adjusts⟩ := handleUpdate_moves world input game
    -- A frame hands nothing to the audio manager.
    obtain ⟨made, calls, ofFrame⟩ := moves.calls_made
    rw [stepped, adjusts.calls, calls] at handed
    obtain rfl : made = [.play source] := List.append_cancel_right (handed.trans rfl)
    cases ofFrame _ List.mem_cons_self
  · rw [stepped] at handed ⊢
    have move := level.step_move world.cache levelEvent
    rcases act_cases game (level.step world.cache levelEvent).1 (level.step world.cache levelEvent).2 with
      ⟨calls, level', found', audio⟩ | ⟨entered, -, loaded⟩
    · have played : (level.step world.cache levelEvent).2.calls = [.play source] :=
        List.append_cancel_right (calls.symm.trans handed)
      refine ⟨level', found', audio ▸ Wins.of_played move boss ?_⟩
      cases acted : (level.step world.cache levelEvent).2 with
      | nothing | endLevel =>
        rw [acted] at played
        cases played
      | played =>
        rw [acted] at played
        cases played
        rfl
    · rw [loaded, loadLevel_calls] at handed
      cases handed
  · rw [adjusts.calls] at handed
    exact absurd handed.symm (List.cons_ne_self _ _)

end Game

/-- Once a boss has handed over its queue, exactly one level-end entry waits until it is popped and
    `EndLevel` is called, as long as the player walks into no audio zone; if the bosses' lines have
    loaded it is also the only entry with a NULL sound. -/
theorem boss_victory_kept (world : World) (before after : List Event) (victory : Event) (source : PlaySource) :
    let game := run (Game.step world) Game.create before
    let won := game.step world victory
    let later := run (Game.step world) won after
    source ≠ .audioZone → won.calls = .play source :: game.calls →
      Meets (Game.step world) (fun game event => game.entersNoZone event = true) won after →
        later.loads = won.loads → later.levelEndPops = won.levelEndPops →
          ∃ level, later.scene.level = some level ∧ level.audio.levelEnds = 1 ∧
            (bossClipsLoad world.cache = true → level.audio.nulls = 1) := by
  intro game won later boss handed outside unloaded unpopped
  have placed : Game.Placed world won := (Game.run_placed world before).step victory
  have kept : Game.Placed world later ∧ Game.Kept world won later := outside.invariant
    (fun state => Game.Placed world state ∧ Game.Kept world won state)
    (fun _ event both outside => ⟨both.1.step event, both.2.step both.1 outside⟩)
    ⟨placed, .start (.start boss handed)⟩
  have still : later.settled = won.settled := by rw [Game.settled, unloaded, unpopped, Game.settled]
  obtain ⟨level, found, wins⟩ := kept.2.holds still
  refine ⟨level, found, wins.one, fun clips => ?_⟩
  rw [AudioManager.nulls_eq_levelEnds (wins.load clips)]
  exact wins.one

namespace WrightLevel

def lastTouch : Event := .level (.contact (.poster 0 0 5))

def beforeLastTouch : List Event := enterLevel ++ solvePuzzle.dropLast

end WrightLevel

/-- The puzzle is solved and the first lines of the final dialogue are heard. -/
theorem boss_victory_kept_wright :
    let won := (run (Game.step (WrightLevel.world WrightLevel.allSounds)) Game.create
      WrightLevel.beforeLastTouch).step (WrightLevel.world WrightLevel.allSounds) WrightLevel.lastTouch
    ∃ level, (run (Game.step (WrightLevel.world WrightLevel.allSounds)) won
      (.level .endPhysicsStep :: WrightLevel.idleUpdates 3)).scene.level = some level ∧
        level.audio.levelEnds = 1 ∧
          (bossClipsLoad WrightLevel.allSounds = true → level.audio.nulls = 1) :=
  boss_victory_kept (WrightLevel.world WrightLevel.allSounds) WrightLevel.beforeLastTouch
    (.level .endPhysicsStep :: WrightLevel.idleUpdates 3) WrightLevel.lastTouch .mrWright nofun (by decide +kernel)
    (by decide +kernel) (by decide +kernel) (by decide +kernel)

/-- The puzzle is solved and the player walks into an audio zone: the entry is gone, though it was
    not popped and the level is the same.  Touching the posters does not bring it back. -/
theorem victory_lost_in_zone :
    let world := WrightLevel.world WrightLevel.allSounds
    let game := run (Game.step world) Game.create WrightLevel.beforeLastTouch
    let won := game.step world WrightLevel.lastTouch
    let later := run (Game.step world) won
      (.level (.contact (.audioZone 0)) :: WrightLevel.touches [0, 1, 2, 3, 4, 5])
    won.calls = .play .mrWright :: game.calls ∧ later.loads = won.loads ∧
      later.levelEndPops = won.levelEndPops ∧
        later.scene.level.map (fun level => level.audio.levelEnds) = some 0 := by
  decide +kernel

end SneakySneaky
