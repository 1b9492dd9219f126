import SneakySneaky.Items
import SneakySneaky.LevelComponents
import SneakySneaky.LoadLevel.Room
import SneakySneaky.MrWright

/-! # A level and what happens in it

The components of a loaded level, and the events the engine sends them: contacts during a
physics step, and updates of the scene between physics steps.  `EndLevel` disables all
components but the `AudioManager`, which sits on the scene root; a contact can still come
from the physics step that was running then.

A contact is with the player's body: the handlers return at once for any other. -/

namespace SneakySneaky

open SneakySneaky.Foundation

/-! ## The state -/

/-- An `AudioZone`, whose node is removed when the player has walked into it. -/
structure LevelZone where
  zone : AudioZone
  removed : Bool
  deriving DecidableEq

/-- The posters of a room and the `MrWright`s in it, `none` before `DelayedStart`. -/
structure LevelRoom where
  posters : List String
  wrights : List (Option (MrWright String ℚ))
  deriving DecidableEq

/-- Where the physics stands: not running, or in a step that began with the bodies enabled or not. -/
inductive Physics where
  | idle
  | stepping (bodiesEnabled : Bool)
  deriving DecidableEq

structure Level where
  enabled : Bool
  physics : Physics
  audio : AudioManager
  zones : List LevelZone
  /-- `hasSeenPlayer_` of each guard. -/
  guards : List Bool
  person : Person
  items : Items
  rooms : List LevelRoom
  berthas : List BossBertha
  lasers : List BossLaser
  wives : List Wife
  stairs : ℕ

namespace RoomContents

def interactables (contents : RoomContents) (component : String) : List XMLElement :=
  (contents.objects.filterMap ObjectNode.interaction).filterMap fun interaction =>
    if interaction.1 = component then some interaction.2 else none

def posters (contents : RoomContents) : List String :=
  contents.objects.filterMap fun object =>
    if object.interaction.map Prod.fst = some "InteractablePoster" then some object.material else none

end RoomContents

namespace Level

/-- The components of the rooms of a level; `dirty` is the value of the inventory's uninitialised
    flag. -/
def load (conversions : Conversions) (dirty : Bool) (rooms : List RoomContents) : Level where
  enabled := true
  physics := .idle
  audio := .empty
  zones := rooms.flatMap fun room => room.zones.map fun node => ⟨node.zone, false⟩
  guards := rooms.flatMap fun room => room.guards.map fun _ => false
  person := .create
  items := .load (rooms.flatMap (·.interactables "Pickup")) (rooms.flatMap (·.interactables "Padlock")) dirty
  rooms := rooms.map fun room => ⟨room.posters, (room.interactables "MrWright").map fun _ => none⟩
  berthas := rooms.flatMap fun room => (room.interactables "BossBertha").map fun _ => .create
  lasers := rooms.flatMap fun room => (room.interactables "BossLaser").map (.loadFromXML conversions)
  -- The first `Wife` of a room removes the `Terminal` components that a second would look for.
  wives := rooms.flatMap fun room => (room.interactables "Wife").mapIdx fun index _ =>
    .create (if index = 0 then (room.interactables "Terminal").length else 0)
  stairs := (rooms.flatMap (·.interactables "Stairs")).length

end Level

/-! ## The events -/

inductive Contact where
  | guard (guard : ℕ)
  | bertha (bertha : ℕ)
  | laserOnPerson (laser : ℕ)
  | laserOnBertha (laser bertha : ℕ)
  | audioZone (zone : ℕ)
  | poster (room wright poster : ℕ)
  | terminal (wife terminal : ℕ)
  deriving DecidableEq

inductive Update where
  | audioManager (isPlaying : Bool) (timeStep : ℚ)
  | guard (guard : ℕ) (playerDetected : Bool)
  | item (event : ItemEvent)
  | laser (laser : ℕ) (timeStep : ℚ)
  | stairs (personOffset : Vector3)
  | wrightStart (room wright : ℕ) (random : Random) (swapTimer : ℚ)
  | wright (room wright : ℕ) (timeStep : ℚ) (random : Random)
  | wifeStart (wife : ℕ) (random : Random)
  | wife (wife : ℕ) (position personPosition : Vector3)

inductive LevelEvent where
  | beginPhysicsStep
  | contact (contact : Contact)
  | endPhysicsStep
  | update (update : Update)

/-- Which code handed a queue to `AudioManager::Play`. -/
inductive PlaySource where
  | audioZone | mrWright | bossBertha
  deriving DecidableEq

/-- Which code called `EndLevel`; the audio manager on popping an entry of some origin. -/
inductive EndCaller where
  | guard | bossBertha | person | stairs | wife | developer
  | audioManager (popped : EntryOrigin)
  deriving DecidableEq

inductive LevelAction where
  | nothing
  | played (source : PlaySource)
  | endLevel (caller : EndCaller) (call : EndCall)
  deriving DecidableEq

def LevelAction.ofCall (caller : EndCaller) : Option EndCall → LevelAction
  | none => .nothing
  | some call => .endLevel caller call

/-! ## The handlers -/

namespace Level

def playIfAny (level : Level) (source : PlaySource) : Option (List AudioQueueEntry) → Level × LevelAction
  | none => (level, .nothing)
  | some queue => ({ level with audio := level.audio.play queue false }, .played source)

def wright? (level : Level) (room wright : ℕ) : Option (LevelRoom × MrWright String ℚ) :=
  match level.rooms[room]? with
  | none => none
  | some levelRoom => (levelRoom.wrights[wright]?.join).map fun started => (levelRoom, started)

def setWright (level : Level) (room wright : ℕ) (started : MrWright String ℚ) : Level :=
  { level with
    rooms := level.rooms.modify room fun levelRoom =>
      { levelRoom with wrights := levelRoom.wrights.set wright (some started) } }

def setPosters (level : Level) (room : ℕ) (posters : List String) : Level :=
  { level with rooms := level.rooms.modify room ({ · with posters := posters }) }

def laserOn (level : Level) (laser : ℕ) : Bool := (level.lasers[laser]?.map BossLaser.modelEnabled) = some true

/-- The handlers of `NodeCollision` and `NodeCollisionStart`. -/
def handleContact (cache : SoundCache) (level : Level) : Contact → Level × LevelAction
  | .guard guard =>
    if guard < level.guards.length then (level, .endLevel .guard ⟨true, false⟩) else (level, .nothing)
  | .bertha bertha =>
    if bertha < level.berthas.length then (level, .endLevel .bossBertha ⟨true, false⟩) else (level, .nothing)
  | .laserOnPerson laser =>
    if level.laserOn laser then
      let (person, call) := level.person.takeDamage BossLaser.damage
      ({ level with person := person }, .ofCall .person call)
    else (level, .nothing)
  | .laserOnBertha laser bertha =>
    match level.berthas[bertha]? with
    | none => (level, .nothing)
    | some hit =>
      if level.laserOn laser then
        let (hurt, queue) := hit.takeDamage cache BossLaser.damage
        playIfAny { level with berthas := level.berthas.set bertha hurt } .bossBertha queue
      else (level, .nothing)
  | .audioZone zone =>
    match level.zones[zone]? with
    | none => (level, .nothing)
    | some entered =>
      if entered.removed then (level, .nothing)
      else
        ({ level with
            audio := entered.zone.handleNodeCollisionStart level.audio
            zones := level.zones.set zone { entered with removed := true } },
          .played .audioZone)
  | .poster room wright poster =>
    match level.wright? room wright with
    | none => (level, .nothing)
    | some (levelRoom, started) =>
      match levelRoom.posters[poster]? with
      | none => (level, .nothing)
      | some material =>
        let (touched, result) := started.handleNodeCollision cache true material
        playIfAny (level.setWright room wright touched) .mrWright result.played?
  | .terminal wife terminal =>
    -- Terminals end nothing themselves: `Wife::Update` looks at the sequence.
    ({ level with wives := level.wives.modify wife (·.handleNodeCollision terminal) }, .nothing)

def handleAudioUpdate (level : Level) (isPlaying : Bool) (timeStep : ℚ) : Level × LevelAction :=
  let (audio, action) := level.audio.handleSceneUpdate binary32 isPlaying timeStep
  -- The back entry is the one popped; an empty queue pops none and ends nothing.
  let popped := (level.audio.queue.getLast?.map AudioQueueEntry.origin).getD .levelEnd
  ({ level with audio := audio },
    if action = .endLevel then .endLevel (.audioManager popped) ⟨false, false⟩ else .nothing)

/-- `Update`, and `DelayedStart` before it, of the level's components. -/
def handleUpdate (level : Level) : Update → Level × LevelAction
  | .audioManager isPlaying timeStep => level.handleAudioUpdate isPlaying timeStep
  | .guard guard playerDetected =>
    ({ level with guards := level.guards.modify guard (· || playerDetected) }, .nothing)
  -- Pickups, thrown items, padlocks and the inventory never end a level.
  | .item event => ({ level with items := (level.items.step event).1 }, .nothing)
  | .laser laser timeStep =>
    ({ level with lasers := level.lasers.modify laser (·.update timeStep) }, .nothing)
  | .stairs personOffset =>
    if 0 < level.stairs then (level, .ofCall .stairs (Stairs.update personOffset)) else (level, .nothing)
  | .wrightStart room wright random swapTimer =>
    match level.rooms[room]? with
    | none => (level, .nothing)
    | some levelRoom =>
      match levelRoom.wrights[wright]?, MrWright.delayedStart random swapTimer levelRoom.posters with
      | some none, some started => (level.setWright room wright started, .nothing)
      | _, _ => (level, .nothing)
  | .wright room wright timeStep random =>
    match level.wright? room wright with
    | none => (level, .nothing)
    | some (levelRoom, started) =>
      let (updated, posters) := started.update levelRoom.posters timeStep random
      ((level.setWright room wright updated).setPosters room posters, .nothing)
  | .wifeStart wife random =>
    ({ level with
        wives := level.wives.modify wife fun wife =>
          if wife.sequence.isSome then wife else wife.delayedStart random },
      .nothing)
  | .wife wife position personPosition =>
    match level.wives[wife]? with
    | none => (level, .nothing)
    | some updated =>
      let (showHealth, call) := updated.update position personPosition
      ({ level with person := { level.person with showHealth := level.person.showHealth || showHealth } },
        .ofCall .wife call)

/-- Does the engine send this update: between physics steps, and to the disabled components of an
    ended level only that of the `AudioManager`. -/
def sends (level : Level) (update : Update) : Bool :=
  level.physics = .idle &&
    match update with
    | .audioManager _ _ => true -- on the scene root, which has no `StaticModel`
    | _ => level.enabled

/-- An event in a level, before the game acts on a call of `EndLevel`. -/
def step (cache : SoundCache) (level : Level) : LevelEvent → Level × LevelAction
  | .beginPhysicsStep =>
    if level.physics = .idle then ({ level with physics := .stepping level.enabled }, .nothing)
    else (level, .nothing)
  -- Disabling a body takes effect with the next physics step.
  | .contact contact =>
    if level.physics = .stepping true then level.handleContact cache contact else (level, .nothing)
  | .endPhysicsStep => ({ level with physics := .idle }, .nothing)
  | .update update => if level.sends update then level.handleUpdate update else (level, .nothing)

end Level

end SneakySneaky
