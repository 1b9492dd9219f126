import SneakySneaky.Engine
import SneakySneaky.Foundation.Binary32
import SneakySneaky.Foundation.TimedQueue
import Mathlib.Tactic.NormNum

/-! # `AudioManager` and `AudioZone`

The dialogue queue of a level.  Both classes keep their clips in a vector: a zone inserts
each clip at index 0, the manager takes its next entry from the back and inserts what is
handed to it at index 0.  The two reversals cancel, so that seen from the back the
manager's vector is a queue whose entries wait for their delays
(`AudioManager.step_simulates`); the order of the clips follows from that.  A delay is a
float, so that the delays are those of the level file up to rounding
(`clips_play_in_order`). -/

namespace SneakySneaky

open SneakySneaky.Foundation

/-! ## The classes -/

/-- Which code wrote a queue entry.  Nothing in the source reads it; it tells the marker that
    ends the level from a sound that could not be loaded, as both have a NULL sound. -/
inductive EntryOrigin where
  | zoneClip | bossClip | levelEnd
  deriving DecidableEq

structure AudioQueueEntry where
  sound : Option Sound
  delay : ℚ
  origin : EntryOrigin
  levelEnd_null : origin = .levelEnd → sound = none
  deriving DecidableEq

namespace AudioQueueEntry

def zoneClip (sound : Option Sound) (delay : ℚ) : AudioQueueEntry := ⟨sound, delay, .zoneClip, nofun⟩

def bossClip (sound : Option Sound) : AudioQueueEntry := ⟨sound, 0, .bossClip, nofun⟩

/-- The entry `{(Sound *)NULL, 0.0f}` that ends the level. -/
def levelEnd : AudioQueueEntry := ⟨none, 0, .levelEnd, fun _ => rfl⟩

end AudioQueueEntry

structure AudioManager where
  queue : List AudioQueueEntry
  deriving DecidableEq

/-- What a scene update does: `endLevel` is the call `EndLevel(false, false)`. -/
inductive AudioAction where
  | nothing
  | play (sound : Sound)
  | endLevel
  deriving DecidableEq

namespace AudioManager

def empty : AudioManager := ⟨[]⟩

/-- `round` is what the subtraction makes of its exact value: `binary32` in the game, `id` in exact
    arithmetic. -/
def handleSceneUpdate (round : ℚ → ℚ) (manager : AudioManager) (isPlaying : Bool) (timeStep : ℚ) :
    AudioManager × AudioAction :=
  if isPlaying then (manager, .nothing)
  else
    match manager.queue.getLast? with
    | none => (manager, .nothing)
    | some next =>
      -- The delay of the back entry runs down in place, a whole time step at once.
      if 0 < next.delay then
        (⟨manager.queue.dropLast ++ [{ next with delay := round (next.delay - timeStep) }]⟩, .nothing)
      else
        match next.sound with
        | some sound => (⟨manager.queue.dropLast⟩, .play sound)
        | none => (⟨manager.queue.dropLast⟩, .endLevel)

/-- `queue_.Clear()` unless the caller asks to queue, then `queue_.Insert(0, sounds)`. -/
def play (manager : AudioManager) (sounds : List AudioQueueEntry) (queue : Bool) : AudioManager :=
  ⟨sounds ++ if queue then manager.queue else []⟩

end AudioManager

namespace AudioManager

/-- What a later update sees of an entry, its delay apart. -/
def labels (manager : AudioManager) : List (Option Sound × EntryOrigin) :=
  manager.queue.map fun entry => (entry.sound, entry.origin)

def endPending (manager : AudioManager) : Bool := manager.queue.any fun entry => entry.sound.isNone

/-- The next update pops an entry with a NULL sound. -/
def endsNext (manager : AudioManager) (isPlaying : Bool) : Bool :=
  !isPlaying && manager.queue.getLast?.any fun next => !decide (0 < next.delay) && next.sound.isNone

/-- A scene update pops the back entry or leaves sounds and origins alone. -/
theorem handleSceneUpdate_cases (round : ℚ → ℚ) (manager : AudioManager) (isPlaying : Bool) (timeStep : ℚ) :
    ((handleSceneUpdate round manager isPlaying timeStep).2 = .nothing ∧
        (handleSceneUpdate round manager isPlaying timeStep).1.labels = manager.labels) ∨
      (∃ front next sound, manager.queue = front ++ [next] ∧ next.sound = some sound ∧
        handleSceneUpdate round manager isPlaying timeStep = (⟨front⟩, .play sound)) ∨
      (∃ front next, manager.queue = front ++ [next] ∧ next.sound = none ∧
        manager.endsNext isPlaying = true ∧
        handleSceneUpdate round manager isPlaying timeStep = (⟨front⟩, .endLevel)) := by
  obtain ⟨queue⟩ := manager
  cases isPlaying with
  | true => exact .inl ⟨rfl, rfl⟩
  | false =>
    rcases List.eq_nil_or_concat queue with rfl | ⟨front, next, rfl⟩
    · exact .inl ⟨rfl, rfl⟩
    · by_cases delayed : 0 < next.delay
      · exact .inl (by simp [handleSceneUpdate, delayed, labels])
      · cases sound : next.sound with
        | some clip =>
          exact .inr (.inl ⟨front, next, clip, by simp, sound, by simp [handleSceneUpdate, delayed, sound]⟩)
        | none =>
          refine .inr (.inr ⟨front, next, by simp, sound, ?_, by simp [handleSceneUpdate, delayed, sound]⟩)
          simp [endsNext, sound, not_lt.mp delayed]

theorem endPending_eq_labels (manager : AudioManager) :
    manager.endPending = manager.labels.any fun label => label.1.isNone := by
  rw [endPending, labels, List.any_map]
  rfl

end AudioManager

structure AudioZone where
  queue : List AudioQueueEntry
  fromClips : ∀ entry ∈ queue, entry.origin = .zoneClip
  deriving DecidableEq

namespace AudioZone

def empty : AudioZone := ⟨[], nofun⟩

def enqueueAudioClip (zone : AudioZone) (sound : Option Sound) (delay : ℚ) : AudioZone where
  queue := .zoneClip sound delay :: zone.queue
  fromClips := List.forall_mem_cons.mpr ⟨rfl, zone.fromClips⟩

/-- The handler's effect on the manager when the other node is the player's; it then removes the
    zone's node. -/
def handleNodeCollisionStart (zone : AudioZone) (manager : AudioManager) : AudioManager :=
  manager.play zone.queue false

/-- The zone after `EnqueueAudioClip` for each clip in turn. -/
def collect (clips : List (Option Sound × ℚ)) : AudioZone :=
  clips.foldl (fun zone clip => zone.enqueueAudioClip clip.1 clip.2) empty

theorem queue_foldl (clips : List (Option Sound × ℚ)) (zone : AudioZone) :
    (clips.foldl (fun zone clip => zone.enqueueAudioClip clip.1 clip.2) zone).queue =
      (clips.map fun clip => AudioQueueEntry.zoneClip clip.1 clip.2).reverse ++ zone.queue := by
  induction clips generalizing zone with
  | nil => rfl
  | cons clip clips inductionHypothesis =>
    rw [List.foldl_cons, inductionHypothesis]
    simp [enqueueAudioClip]

theorem collect_queue (clips : List (Option Sound × ℚ)) :
    (collect clips).queue = (clips.map fun clip => AudioQueueEntry.zoneClip clip.1 clip.2).reverse := by
  rw [collect, queue_foldl, empty, List.append_nil]

end AudioZone

/-! ## Runs of the manager -/

inductive AudioEvent where
  | sceneUpdate (isPlaying : Bool) (timeStep : ℚ)
  | play (sounds : List AudioQueueEntry) (queue : Bool)

def AudioEvent.Queues : AudioEvent → Prop
  | .play _ false => False
  | _ => True

namespace AudioManager

def step (round : ℚ → ℚ) (manager : AudioManager) : AudioEvent → AudioManager × AudioAction
  | .sceneUpdate isPlaying timeStep => handleSceneUpdate round manager isPlaying timeStep
  | .play sounds queue => (manager.play sounds queue, .nothing)

end AudioManager

/-- A record of the manager's events and actions, newest first. -/
abbrev AudioPast := List (AudioEvent × AudioAction)

/-- The sound pointer an action popped off the queue. -/
def AudioAction.popped : AudioAction → Option (Option Sound)
  | .nothing => none
  | .play sound => some (some sound)
  | .endLevel => some none

namespace AudioPast

/-- The sound pointers popped, oldest first. -/
def popped (past : AudioPast) : List (Option Sound) :=
  past.reverse.filterMap fun entry => entry.2.popped

/-- The sound pointers handed over by `Play` with `queue = true`, in the order of the calls and
    from the back of each vector to its front. -/
def queuedLater : AudioPast → List (Option Sound)
  | [] => []
  | (.play sounds true, _) :: past => queuedLater past ++ sounds.reverse.map AudioQueueEntry.sound
  | _ :: past => queuedLater past

/-- The time steps of the idle updates since the last entry was popped, newest first. -/
def idleSteps : AudioPast → List ℚ
  | [] => []
  | (_, .play _) :: _ => []
  | (_, .endLevel) :: _ => []
  | (.sceneUpdate false timeStep, .nothing) :: past => timeStep :: idleSteps past
  | _ :: past => idleSteps past

def idleTime (past : AudioPast) : ℚ := past.idleSteps.sum

end AudioPast

/-! ## The vector as a timed queue -/

def AudioQueueEntry.waiting (entry : AudioQueueEntry) : TimedQueue.Entry (Option Sound) ℚ :=
  ⟨entry.sound, entry.delay⟩

def AudioManager.waiting (manager : AudioManager) : List (TimedQueue.Entry (Option Sound) ℚ) :=
  manager.queue.reverse.map AudioQueueEntry.waiting

def AudioEvent.toQueue : AudioEvent → TimedQueue.Event (Option Sound) ℚ
  | .sceneUpdate isPlaying timeStep => .tick isPlaying timeStep
  | .play sounds true => .append (sounds.reverse.map AudioQueueEntry.waiting)
  | .play sounds false => .replace (sounds.reverse.map AudioQueueEntry.waiting)

theorem AudioEvent.Queues.keeps {event : AudioEvent} (queues : event.Queues) : event.toQueue.keeps := by
  cases event with
  | sceneUpdate isPlaying timeStep => trivial
  | play sounds queue =>
    cases queue with
    | true => trivial
    | false => cases queues

/-- Seen from the back, the manager's vector is a timed queue. -/
theorem AudioManager.step_simulates (round : ℚ → ℚ) (manager : AudioManager) (event : AudioEvent) :
    TimedQueue.step round manager.waiting event.toQueue =
      ((step round manager event).1.waiting, (step round manager event).2.popped) := by
  obtain ⟨entries⟩ := manager
  cases event with
  | play sounds queue =>
    -- Insertion at the front of the vector is appending at the end of its reverse.
    cases queue <;> simp [AudioEvent.toQueue, TimedQueue.step, AudioManager.step, AudioManager.play,
      AudioManager.waiting, AudioAction.popped]
  | sceneUpdate isPlaying timeStep =>
    rcases List.eq_nil_or_concat entries with rfl | ⟨front, next, rfl⟩
    · cases isPlaying <;> rfl
    · obtain ⟨sound, delay, origin, levelEnd_null⟩ := next
      cases isPlaying with
      | true =>
        simp [AudioEvent.toQueue, TimedQueue.step, AudioManager.step, handleSceneUpdate, waiting,
          AudioAction.popped]
      | false =>
        by_cases delayed : 0 < delay
        · simp [AudioEvent.toQueue, TimedQueue.step, AudioManager.step, handleSceneUpdate, waiting,
            AudioQueueEntry.waiting, AudioAction.popped, delayed]
        · cases sound <;>
            simp [AudioEvent.toQueue, TimedQueue.step, AudioManager.step, handleSceneUpdate, waiting,
              AudioQueueEntry.waiting, AudioAction.popped, delayed]

namespace AudioPast

def toQueue (past : AudioPast) : TimedQueue.Past (Option Sound) ℚ :=
  past.map (Prod.map AudioEvent.toQueue AudioAction.popped)

theorem served_toQueue (past : AudioPast) : TimedQueue.served past.toQueue = past.popped := by
  rw [TimedQueue.served, toQueue, ← List.map_reverse, List.filterMap_map]
  rfl

theorem appended_toQueue (past : AudioPast) :
    (TimedQueue.appended past.toQueue).map TimedQueue.Entry.item = past.queuedLater := by
  induction past with
  | nil => rfl
  | cons entry past inductionHypothesis =>
    obtain ⟨event, action⟩ := entry
    cases event with
    | sceneUpdate isPlaying timeStep => exact inductionHypothesis
    | play sounds queue =>
      cases queue with
      | false => exact inductionHypothesis
      | true =>
        simp only [toQueue, List.map_cons, Prod.map, AudioEvent.toQueue, TimedQueue.appended,
          List.map_append, List.map_map, queuedLater]
        rw [← inductionHypothesis]
        rfl

theorem idleSteps_toQueue (past : AudioPast) : TimedQueue.idleSteps past.toQueue = past.idleSteps := by
  induction past with
  | nil => rfl
  | cons entry past inductionHypothesis =>
    obtain ⟨event, action⟩ := entry
    cases action with
    | play _ | endLevel => rfl
    | nothing =>
      cases event with
      | play sounds queue => cases queue <;> exact inductionHypothesis
      | sceneUpdate isPlaying timeStep =>
        cases isPlaying with
        | true => exact inductionHypothesis
        | false => exact congrArg (timeStep :: ·) inductionHypothesis

end AudioPast

/-! ## Clips play in document order -/

/-- Where a zone's clips stand after the player has walked into the zone and `past` has happened. -/
structure ClipsInOrder (round : ℚ → ℚ) (clips : List (Sound × ℚ)) (manager : AudioManager)
    (past : AudioPast) : Prop where
  /-- What was popped is the beginning of the clips in order, followed by what was queued later. -/
  ordered : past.popped <+: clips.map (fun clip => some clip.1) ++ past.queuedLater
  /-- Nothing starts while the source is playing. -/
  exclusive : ∀ event, (AudioManager.step round manager event).2 ≠ .nothing →
    ∃ timeStep, event = .sceneUpdate false timeStep
  /-- The next clip starts only when the idle updates have run its delay down. -/
  delayed : ∀ clip, clips[past.popped.length]? = some clip → ∀ event,
    (AudioManager.step round manager event).2 ≠ .nothing →
      (AudioManager.step round manager event).2 = .play clip.1 ∧
        TimedQueue.countdown round clip.2 past.idleSteps ≤ 0

/-- The next clip starts only after idle updates whose time steps sum to its delay, less the share
    `loss` of it for each of them. -/
def KeepsDelays (round : ℚ → ℚ) (loss : ℚ) (clips : List (Sound × ℚ)) (manager : AudioManager)
    (past : AudioPast) : Prop :=
  ∀ clip, clips[past.popped.length]? = some clip → ∀ event,
    (AudioManager.step round manager event).2 ≠ .nothing →
      (1 - loss) ^ past.idleSteps.length * clip.2 ≤ past.idleTime

/-- The manager and its record after the player has walked into the clips' zone. -/
def playedFrom (round : ℚ → ℚ) (clips : List (Sound × ℚ)) (manager : AudioManager)
    (events : List AudioEvent) : AudioManager × AudioPast :=
  let zone := AudioZone.collect (clips.map fun clip => (some clip.1, clip.2))
  record (AudioManager.step round) (zone.handleNodeCollisionStart manager) events

theorem clips_in_order (round : ℚ → ℚ) (clips : List (Sound × ℚ)) (manager : AudioManager)
    (events : List AudioEvent) (queues : ∀ event ∈ events, event.Queues) :
    ClipsInOrder round clips (playedFrom round clips manager events).1
      (playedFrom round clips manager events).2 := by
  let zone := AudioZone.collect (clips.map fun clip => (some clip.1, clip.2))
  let first : List (TimedQueue.Entry (Option Sound) ℚ) := clips.map fun clip => ⟨some clip.1, clip.2⟩
  -- The zone inserts at the front and the manager pops from the back: document order again.
  have start : (zone.handleNodeCollisionStart manager).waiting = first := by
    simp only [AudioZone.handleNodeCollisionStart, AudioManager.play, AudioManager.waiting, zone,
      AudioZone.collect_queue, first]
    simp [Function.comp_def, AudioQueueEntry.waiting, AudioQueueEntry.zoneClip]
  have simulated := record_simulates AudioManager.waiting AudioEvent.toQueue AudioAction.popped
    (AudioManager.step_simulates round) (zone.handleNodeCollisionStart manager) events
  rw [start] at simulated
  have keeps : ∀ event ∈ events.map AudioEvent.toQueue, event.keeps := by
    intro event member
    obtain ⟨source, sourceMember, rfl⟩ := List.mem_map.mp member
    exact (queues source sourceMember).keeps
  -- Order and delays are laws of the timed queue; no event of the run replaces its entries.
  have laws := record_invariant (TimedQueue.step round) TimedQueue.Event.keeps
    (fun waiting past => TimedQueue.InOrder first waiting past ∧ TimedQueue.Waits round first waiting past)
    (fun waiting past event both keeps => ⟨both.1.step keeps, both.2.step keeps⟩) first
    ⟨by simp [TimedQueue.InOrder, TimedQueue.served, TimedQueue.appended],
      by simp [TimedQueue.Waits, TimedQueue.served, TimedQueue.appended, TimedQueue.idleSteps]⟩ keeps
  rw [simulated] at laws
  obtain ⟨inOrder, waits⟩ := laws
  change TimedQueue.InOrder first (playedFrom round clips manager events).1.waiting
    (AudioPast.toQueue (playedFrom round clips manager events).2) at inOrder
  change TimedQueue.Waits round first (playedFrom round clips manager events).1.waiting
    (AudioPast.toQueue (playedFrom round clips manager events).2) at waits
  generalize playedFrom round clips manager events = recorded at inOrder waits ⊢
  -- What a further event does is read off the timed queue too.
  have step := AudioManager.step_simulates round recorded.1
  constructor
  · refine ⟨recorded.1.waiting.map TimedQueue.Entry.item, ?_⟩
    rw [← AudioPast.served_toQueue, inOrder, List.map_append, AudioPast.appended_toQueue]
    simp [first, Function.comp_def]
  · intro event acts
    cases event with
    | play sounds queue => exact absurd rfl acts
    | sceneUpdate isPlaying timeStep =>
      cases isPlaying with
      | false => exact ⟨timeStep, rfl⟩
      | true => exact absurd rfl acts
  · intro clip current event acts
    obtain ⟨sound, pops⟩ : ∃ sound, (AudioManager.step round recorded.1 event).2.popped = some sound := by
      cases action : (AudioManager.step round recorded.1 event).2 with
      | nothing => exact absurd action acts
      | play sound => exact ⟨some sound, rfl⟩
      | endLevel => exact ⟨none, rfl⟩
    have serves : (TimedQueue.step round recorded.1.waiting event.toQueue).2 = some sound := by
      rw [step event]; exact pops
    have remain : (TimedQueue.served (AudioPast.toQueue recorded.2)).length < first.length := by
      rw [AudioPast.served_toQueue, List.length_map]
      exact (List.getElem?_eq_some_iff.mp current).1
    obtain ⟨entry, found, item, waited⟩ := waits.serve serves remain
    rw [AudioPast.served_toQueue, List.getElem?_map, current, Option.map_some, Option.some.injEq] at found
    subst found
    rw [AudioPast.idleSteps_toQueue] at waited
    refine ⟨?_, waited⟩
    rw [← item] at pops
    cases action : (AudioManager.step round recorded.1 event).2 with
    | nothing => exact absurd action acts
    | endLevel => rw [action] at pops; cases pops
    | play played => rw [action] at pops; cases pops; rfl

def AudioEvent.Forward : AudioEvent → Prop
  | .sceneUpdate _ timeStep => 0 ≤ timeStep
  | .play _ _ => True

theorem idleSteps_nonneg (round : ℚ → ℚ) (manager : AudioManager) (events : List AudioEvent)
    (forward : ∀ event ∈ events, event.Forward) :
    ∀ timeStep ∈ AudioPast.idleSteps (record (AudioManager.step round) manager events).2, 0 ≤ timeStep := by
  refine record_invariant (AudioManager.step round) AudioEvent.Forward
    (fun _ past => ∀ timeStep ∈ AudioPast.idleSteps past, 0 ≤ timeStep) ?_ manager nofun forward
  intro manager past event nonneg forward
  cases event with
  | play sounds queue => exact nonneg
  | sceneUpdate isPlaying timeStep =>
    cases action : (AudioManager.step round manager (.sceneUpdate isPlaying timeStep)).2 with
    | play _ | endLevel => simp [AudioPast.idleSteps]
    | nothing =>
      cases isPlaying with
      | true => exact nonneg
      | false => exact List.forall_mem_cons.mpr ⟨forward, nonneg⟩

/-- The clips a zone collects play in document order, once each and never while the source is
    playing, whatever the updates and the later `Play` calls that queue.  In exact arithmetic each
    waits for its delay; the game's floats take at most the 2²⁴th part of it away in each update. -/
theorem clips_play_in_order (clips : List (Sound × ℚ)) (manager : AudioManager) (events : List AudioEvent)
    (queues : ∀ event ∈ events, event.Queues) :
    let played round := playedFrom round clips manager events
    (∀ round, ClipsInOrder round clips (played round).1 (played round).2) ∧
      KeepsDelays id 0 clips (played id).1 (played id).2 ∧
      ((∀ event ∈ events, event.Forward) →
        KeepsDelays binary32 (1 / 2 ^ 24) clips (played binary32).1 (played binary32).2) := by
  intro played
  have inOrder : ∀ round, ClipsInOrder round clips (played round).1 (played round).2 :=
    fun round => clips_in_order round clips manager events queues
  refine ⟨inOrder, ?_, ?_⟩
  · intro clip current event acts
    have waited := ((inOrder id).delayed clip current event acts).2
    rw [TimedQueue.countdown_id] at waited
    rw [sub_zero, one_pow, one_mul]
    exact sub_nonpos.mp waited
  · intro forward clip current event acts
    have waited := ((inOrder binary32).delayed clip current event acts).2
    have nonneg : ∀ timeStep ∈ (played binary32).2.idleSteps, 0 ≤ timeStep :=
      idleSteps_nonneg binary32 _ events forward
    have bound := TimedQueue.countdown_ge (by norm_num) (by norm_num) (fun _ => binary32_ge) clip.2
      (played binary32).2.idleSteps nonneg
    rw [max_eq_left waited, zero_add] at bound
    exact bound

/-- Two clips, the second after a second of silence; the source plays the first one for a while. -/
theorem clips_play_in_order_twoClips :
    let played round := playedFrom round [(⟨"a"⟩, 0), (⟨"b"⟩, 1)] .empty
      [.sceneUpdate false 1, .play [.bossClip (some ⟨"c"⟩)] true, .sceneUpdate true 1,
        .sceneUpdate false (3 / 4), .sceneUpdate false (1 / 4)]
    (∀ round, ClipsInOrder round [(⟨"a"⟩, 0), (⟨"b"⟩, 1)] (played round).1 (played round).2) ∧
      KeepsDelays id 0 [(⟨"a"⟩, 0), (⟨"b"⟩, 1)] (played id).1 (played id).2 ∧
      KeepsDelays binary32 (1 / 2 ^ 24) [(⟨"a"⟩, 0), (⟨"b"⟩, 1)] (played binary32).1 (played binary32).2 :=
  have both := clips_play_in_order [(⟨"a"⟩, 0), (⟨"b"⟩, 1)] .empty
    [.sceneUpdate false 1, .play [.bossClip (some ⟨"c"⟩)] true, .sceneUpdate true 1,
      .sceneUpdate false (3 / 4), .sceneUpdate false (1 / 4)]
    (by simp [AudioEvent.Queues])
  ⟨both.1, both.2.1, both.2.2 (by simp [AudioEvent.Forward]; norm_num)⟩

/-- A clip that was to wait for a second starts after silences of 0.1 and 0.9 s, the floats nearest
    to these: they sum to a little less. -/
theorem clip_starts_early :
    let tenth := binary32 (1 / 10)
    let rest := binary32 (9 / 10)
    let played := playedFrom binary32 [(⟨"a"⟩, 0), (⟨"b"⟩, 1)] .empty
      [.sceneUpdate false tenth, .sceneUpdate true 1, .sceneUpdate false tenth, .sceneUpdate false rest]
    played.2.popped = [some ⟨"a"⟩] ∧
      (AudioManager.step binary32 played.1 (.sceneUpdate false tenth)).2 = .play ⟨"b"⟩ ∧
      ¬ 1 ≤ played.2.idleTime := by
  decide +kernel

end SneakySneaky
