import SneakySneaky.CameraSweep
import SneakySneaky.GuardAlerts
import SneakySneaky.Lasers
import SneakySneaky.Level

/-! # The security of a level

The guards of a level, with what sets them on the player: their own eyes, the cameras and the
lasers of their room, and thrown items.  A camera or a laser takes the guards below the node
of its room, an item every guard within 4 m in any room.

The lights and sounds are left out, and what a ray hits is an input. -/

namespace SneakySneaky

open SneakySneaky.Foundation

/-! ## The components and their rooms -/

/-- A component below the node of a room. -/
structure Posted (α : Type) where
  room : IntVector2
  component : α
  deriving DecidableEq

namespace Posted

variable {α : Type}

def map (f : α → α) (posted : Posted α) : Posted α := { posted with component := f posted.component }

@[simp] theorem map_room (f : α → α) (posted : Posted α) : (posted.map f).room = posted.room := rfl

@[simp] theorem map_component (f : α → α) (posted : Posted α) : (posted.map f).component = f posted.component := rfl

end Posted

/-- `inCone` is the test of the angle; `hit` tells whether the body that the ray hits is the player's, if it hits
    one in its length. -/
structure Sight where
  inCone : Bool
  hit : Option Bool
  deriving DecidableEq

/-- A ray that hits nothing counts as one that hits the player. -/
def Sight.sees (sight : Sight) : Bool := sight.inCone && !(sight.hit = some false)

def Guard.detectPlayer (guard : Guard) (personPosition : Vector3) (sight : Sight) : Bool :=
  !decide (25 < (personPosition - guard.position).lengthSquared) && sight.sees

structure Security where
  guards : List (Posted Guard)
  cameras : List (Posted SecurityCamera)
  lasers : List (Posted Laser)
  personPosition : Vector3

inductive SecurityEvent where
  | personMoved (position : Vector3)
  | guardMoved (guard : ℕ) (position velocity : Vector3)
  | guardUpdate (guard : ℕ) (navMesh : NavigationMesh) (timeStep : ℚ) (sight : Sight)
  | cameraUpdate (camera : ℕ) (navMesh : NavigationMesh) (timeStep : ℚ) (sight : Sight)
  | laserUpdate (laser : ℕ) (timeStep : ℚ)
  | laserTouched (laser : ℕ) (navMesh : NavigationMesh) (otherIsPerson : Bool)
  | itemLanded (itemPosition : Vector3)

namespace Security

/-- The guards, cameras and lasers of the rooms of a level. -/
def load (conversions : Conversions) (rooms : List (IntVector2 × RoomContents)) (personPosition : Vector3) :
    Security where
  guards := rooms.flatMap fun (room, contents) =>
    contents.guards.map fun node => ⟨room, .create ⟨node.worldPosition, node.waypoints.tail⟩⟩
  cameras := rooms.flatMap fun (room, contents) =>
    (contents.interactables "SecurityCamera").map fun _ => ⟨room, .create⟩
  lasers := rooms.flatMap fun (room, contents) =>
    (contents.interactables "Laser").map fun element => ⟨room, .loadFromXML conversions element⟩
  personPosition := personPosition

/-- The loop over the guards of a room in `AlertGuards` and in `Laser::HandleNodeCollision`. -/
def alarm (security : Security) (room : IntVector2) (navMesh : NavigationMesh) : Security :=
  { security with
    guards := security.guards.map fun posted =>
      if posted.room = room then
        posted.map fun guard => guard.setPath (navMesh.findPath guard.position security.personPosition)
      else posted }

def updateCamera (security : Security) (camera : ℕ) (navMesh : NavigationMesh) (timeStep : ℚ) (sight : Sight) :
    Security :=
  match security.cameras[camera]? with
  | none => security
  | some posted =>
    let swept := { security with cameras := security.cameras.set camera (posted.map (·.update timeStep)) }
    if sight.sees then swept.alarm posted.room navMesh else swept

def touchLaser (security : Security) (laser : ℕ) (navMesh : NavigationMesh) (otherIsPerson : Bool) : Security :=
  match security.lasers[laser]? with
  | none => security
  | some posted =>
    if !posted.component.modelEnabled then security
    else if !otherIsPerson then security
    else
      { security with lasers := security.lasers.set laser (posted.map (·.touch otherIsPerson)) }.alarm posted.room
        navMesh

/-- `Thrower::DistractGuard`. -/
def distractGuard (security : Security) (itemPosition : Vector3) : Security :=
  { security with
    guards := security.guards.map fun posted =>
      if 16 < (posted.component.position - itemPosition).lengthSquared then posted
      else posted.map (·.heardSound itemPosition) }

def step (normalize : Normalization) (security : Security) : SecurityEvent → Security
  | .personMoved position => { security with personPosition := position }
  | .guardMoved guard position velocity =>
    { security with guards := security.guards.modify guard (·.map (·.step normalize (.moved position velocity))) }
  | .guardUpdate guard navMesh timeStep sight =>
    { security with
      guards := security.guards.modify guard (·.map fun guard =>
        guard.update normalize navMesh security.personPosition timeStep
          (guard.detectPlayer security.personPosition sight)) }
  | .cameraUpdate camera navMesh timeStep sight => security.updateCamera camera navMesh timeStep sight
  | .laserUpdate laser timeStep =>
    { security with lasers := security.lasers.modify laser (·.map (·.update timeStep)) }
  | .laserTouched laser navMesh otherIsPerson => security.touchLaser laser navMesh otherIsPerson
  | .itemLanded itemPosition => security.distractGuard itemPosition

/-! ## What a guard is told -/

/-- The room whose guards an event alerts. -/
def alarmRoom (security : Security) : SecurityEvent → Option IntVector2
  | .cameraUpdate camera _ _ sight => if sight.sees then security.cameras[camera]?.map Posted.room else none
  | .laserTouched laser _ otherIsPerson =>
    (security.lasers[laser]?.filter fun posted => posted.component.modelEnabled && otherIsPerson).map Posted.room
  | .personMoved _ | .guardMoved _ _ _ | .guardUpdate _ _ _ _ | .laserUpdate _ _ | .itemLanded _ => none

def near (guard : Guard) (itemPosition : Vector3) : Bool :=
  !decide (16 < (guard.position - itemPosition).lengthSquared)

/-- What an event is to a guard with some number. -/
def tells (security : Security) (index : ℕ) (posted : Posted Guard) (event : SecurityEvent) : Option GuardEvent :=
  match event with
  | .guardMoved guard position velocity => if guard = index then some (.moved position velocity) else none
  | .guardUpdate guard navMesh timeStep sight =>
    if guard = index then
      some (.update navMesh security.personPosition timeStep
        (posted.component.detectPlayer security.personPosition sight))
    else none
  | .cameraUpdate _ navMesh _ _ | .laserTouched _ navMesh _ =>
    if security.alarmRoom event = some posted.room then some (.alerted navMesh security.personPosition) else none
  | .itemLanded itemPosition => if near posted.component itemPosition then some (.heardSound itemPosition) else none
  | .personMoved _ | .laserUpdate _ _ => none

def perceives (index : ℕ) (security : Security) (event : SecurityEvent) : Option GuardEvent :=
  security.guards[index]?.bind (security.tells index · event)

variable {security : Security} {index : ℕ} {posted : Posted Guard}

/-- A camera and a laser alert the guards of a room, or change none. -/
theorem alarm_cases (normalize : Normalization) (security : Security) {event : SecurityEvent}
    {navMesh : NavigationMesh}
    (raised : (∃ camera timeStep sight, event = .cameraUpdate camera navMesh timeStep sight) ∨
      ∃ laser otherIsPerson, event = .laserTouched laser navMesh otherIsPerson) :
    (security.step normalize event).guards = security.guards.map fun posted =>
      if security.alarmRoom event = some posted.room then
        posted.map (·.step normalize (.alerted navMesh security.personPosition))
      else posted := by
  obtain ⟨camera, timeStep, sight, rfl⟩ | ⟨laser, otherIsPerson, rfl⟩ := raised
  · rw [alarmRoom, step, updateCamera]
    cases found : security.cameras[camera]? with
    | none => simp
    | some watcher =>
      cases sees : sight.sees with
      | false => simp
      | true => simp [alarm, Guard.step, eq_comm]
  · rw [alarmRoom, step, touchLaser]
    cases found : security.lasers[laser]? with
    | none => simp
    | some beam =>
      cases on : beam.component.modelEnabled with
      | false => simp [Option.filter, on]
      | true =>
        cases otherIsPerson with
        | false => simp [Option.filter, on]
        | true => simp [Option.filter, on, alarm, Guard.step, eq_comm]

/-- An event changes the guard that is told of it, in the way the guard takes it, and no other. -/
theorem step_guard (normalize : Normalization) (present : security.guards[index]? = some posted)
    (event : SecurityEvent) :
    (security.step normalize event).guards[index]? =
      some ((security.tells index posted event).elim posted fun event => posted.map (·.step normalize event)) := by
  cases event with
  | personMoved position => exact present
  | laserUpdate laser timeStep => exact present
  | guardMoved guard position velocity | guardUpdate guard navMesh timeStep sight =>
    simp only [step, tells, List.getElem?_modify, present]
    split
    · rfl
    · rfl
  | cameraUpdate camera navMesh timeStep sight =>
    rw [alarm_cases normalize security (.inl ⟨camera, timeStep, sight, rfl⟩), List.getElem?_map, present,
      Option.map_some, tells]
    by_cases raised : security.alarmRoom (.cameraUpdate camera navMesh timeStep sight) = some posted.room
    · rw [if_pos raised, if_pos raised]
      rfl
    · rw [if_neg raised, if_neg raised]
      rfl
  | laserTouched laser navMesh otherIsPerson =>
    rw [alarm_cases normalize security (.inr ⟨laser, otherIsPerson, rfl⟩), List.getElem?_map, present,
      Option.map_some, tells]
    by_cases raised : security.alarmRoom (.laserTouched laser navMesh otherIsPerson) = some posted.room
    · rw [if_pos raised, if_pos raised]
      rfl
    · rw [if_neg raised, if_neg raised]
      rfl
  | itemLanded itemPosition =>
    simp only [step, distractGuard, List.getElem?_map, present, Option.map_some, tells, near]
    by_cases far : 16 < (posted.component.position - itemPosition).lengthSquared
    · simp [far]
    · simp [far, Guard.step]

theorem step_absent (normalize : Normalization) (absent : security.guards[index]? = none) (event : SecurityEvent) :
    (security.step normalize event).guards[index]? = none := by
  cases event with
  | personMoved position => exact absent
  | laserUpdate laser timeStep => exact absent
  | guardMoved guard position velocity | guardUpdate guard navMesh timeStep sight =>
    rw [step, List.getElem?_modify, absent]
    rfl
  | cameraUpdate camera navMesh timeStep sight =>
    rw [alarm_cases normalize security (.inl ⟨camera, timeStep, sight, rfl⟩), List.getElem?_map, absent,
      Option.map_none]
  | laserTouched laser navMesh otherIsPerson =>
    rw [alarm_cases normalize security (.inr ⟨laser, otherIsPerson, rfl⟩), List.getElem?_map, absent, Option.map_none]
  | itemLanded itemPosition => rw [step, distractGuard, List.getElem?_map, absent, Option.map_none]

/-- In a run of the level each guard goes through a run of its own, on what it is told. -/
theorem run_guard (normalize : Normalization) (present : security.guards[index]? = some posted)
    (events : List SecurityEvent) :
    (run (step normalize) security events).guards[index]? =
      some ⟨posted.room, run (Guard.step normalize) posted.component
        (projection (step normalize) (perceives index) security events)⟩ := by
  -- Seen from outside, the guard is there or not; inside it goes its own way.
  have told : (run (step normalize) security events).guards[index]? =
      run (fun guard event => guard.map (Posted.map (Guard.step normalize · event))) security.guards[index]?
        (projection (step normalize) (perceives index) security events) := by
    refine run_projection (fun security : Security => security.guards[index]?) (fun security event => ?_) security
      events
    rw [perceives]
    cases found : security.guards[index]? with
    | none => exact step_absent normalize found event
    | some posted =>
      rw [step_guard normalize found, Option.bind_some]
      cases security.tells index posted event with
      | none => rfl
      | some told => rfl
  rw [told, present]
  exact (run_view (fun guard => some (Posted.mk posted.room guard)) (fun _ _ => rfl) posted.component _).symm

end Security

/-! ## What a guard has written -/

namespace Guard

variable {source : PathSource}

@[simp] theorem headFor_sources (guard : Guard) (normalize : Normalization) (speed : ℚ) (arrives : ℚ → Bool) :
    (guard.headFor normalize speed arrives).sources = guard.sources := by
  rw [headFor]
  split
  · rfl
  · rfl

@[simp] theorem headFor_hasSeenPlayer (guard : Guard) (normalize : Normalization) (speed : ℚ) (arrives : ℚ → Bool) :
    (guard.headFor normalize speed arrives).hasSeenPlayer = guard.hasSeenPlayer := by
  rw [headFor]
  split
  · rfl
  · rfl

@[simp] theorem headFor_willHearSound (guard : Guard) (normalize : Normalization) (speed : ℚ) (arrives : ℚ → Bool) :
    (guard.headFor normalize speed arrives).willHearSound = guard.willHearSound := by
  rw [headFor]
  split
  · rfl
  · rfl

/-- The patrol writes no path but the way home and the waypoints. -/
theorem followWaypoints_spec (guard : Guard) (normalize : Normalization) (navMesh : NavigationMesh) (timeStep : ℚ) :
    (∀ source, source ≠ .home → source ≠ .waypoints →
      (guard.followWaypoints normalize navMesh timeStep).sources.count source = guard.sources.count source) ∧
      (guard.followWaypoints normalize navMesh timeStep).hasSeenPlayer = guard.hasSeenPlayer ∧
      (guard.followWaypoints normalize navMesh timeStep).willHearSound = guard.willHearSound := by
  have home :
      (∀ source, source ≠ .home → (guard.returnHome navMesh).sources.count source = guard.sources.count source) ∧
      (guard.returnHome navMesh).hasSeenPlayer = guard.hasSeenPlayer ∧
      (guard.returnHome navMesh).willHearSound = guard.willHearSound := by
    rw [returnHome]
    split
    · exact ⟨fun source other => List.count_cons_of_ne other.symm, rfl, rfl⟩
    · exact ⟨fun _ _ => rfl, rfl, rfl⟩
  have filled : ∀ guard : Guard, (∀ source, source ≠ .waypoints →
        guard.refill.sources.count source = guard.sources.count source) ∧
      guard.refill.hasSeenPlayer = guard.hasSeenPlayer ∧ guard.refill.willHearSound = guard.willHearSound := by
    intro guard
    rw [refill]
    split
    · exact ⟨fun source other => List.count_cons_of_ne other.symm, rfl, rfl⟩
    · exact ⟨fun _ _ => rfl, rfl, rfl⟩
  obtain ⟨counts, seen, pending⟩ := filled (guard.returnHome navMesh)
  simp only [followWaypoints, headFor_sources, headFor_hasSeenPlayer, headFor_willHearSound]
  exact ⟨fun source notHome notWaypoints => (counts source notWaypoints).trans (home.1 source notHome),
    seen.trans home.2.1, pending.trans home.2.2⟩

theorem followPlayer_spec (guard : Guard) (normalize : Normalization) (navMesh : NavigationMesh)
    (personPosition : Vector3) (timeStep : ℚ) :
    (guard.followPlayer normalize navMesh personPosition timeStep).sources = .player :: guard.sources ∧
      (guard.followPlayer normalize navMesh personPosition timeStep).hasSeenPlayer = guard.hasSeenPlayer ∧
      (guard.followPlayer normalize navMesh personPosition timeStep).willHearSound = guard.willHearSound := by
  simp only [followPlayer]
  split
  · exact ⟨rfl, rfl, rfl⟩
  · simp

/-- A sound is written once for all the sounds heard since the last. -/
theorem hear_spec (guard : Guard) (navMesh : NavigationMesh) :
    (∀ source, source ≠ .sound → (guard.hear navMesh).sources.count source = guard.sources.count source) ∧
      (guard.hear navMesh).hasSeenPlayer = guard.hasSeenPlayer ∧
      (guard.hear navMesh).sources.count .sound + (guard.hear navMesh).willHearSound.toNat =
        guard.sources.count .sound + guard.willHearSound.toNat := by
  rw [hear]
  split
  · rename_i hears
    have pending : guard.willHearSound = true := (Bool.and_eq_true_iff.mp hears).2
    exact ⟨fun source other => List.count_cons_of_ne other.symm, rfl, by rw [List.count_cons_self, pending]; rfl⟩
  · exact ⟨fun _ _ => rfl, rfl, rfl⟩

end Guard

namespace GuardEvent

def alerts : GuardEvent → Bool
  | .alerted _ _ => true
  | .moved _ _ | .heardSound _ | .update _ _ _ _ => false

/-- The guard sees the player in this update. -/
def sights (guard : Guard) : GuardEvent → Bool
  | .update _ _ _ playerDetected => guard.detects playerDetected
  | .moved _ _ | .heardSound _ | .alerted _ _ => false

def sounds : GuardEvent → Bool
  | .heardSound _ => true
  | .moved _ _ | .alerted _ _ | .update _ _ _ _ => false

end GuardEvent

namespace Guard

/-- What one event adds to the paths that a guard has written. -/
structure Accounts (before : Guard) (event : GuardEvent) (after : Guard) : Prop where
  alerts : after.sources.count .alert = before.sources.count .alert + event.alerts.toNat
  sightings : after.sources.count .player = before.sources.count .player + (event.sights before).toNat
  seen : after.hasSeenPlayer = (before.hasSeenPlayer || event.sights before)
  sounds : after.sources.count .sound + after.willHearSound.toNat ≤
    before.sources.count .sound + before.willHearSound.toNat + event.sounds.toNat

theorem step_accounts (normalize : Normalization) (guard : Guard) (event : GuardEvent) :
    guard.Accounts event (guard.step normalize event) := by
  cases event with
  | moved position velocity => exact ⟨rfl, rfl, (Bool.or_false _).symm, le_rfl⟩
  | heardSound position =>
    refine ⟨rfl, rfl, (Bool.or_false _).symm, ?_⟩
    show guard.sources.count .sound + 1 ≤ guard.sources.count .sound + guard.willHearSound.toNat + 1
    omega
  | alerted navMesh personPosition =>
    exact ⟨List.count_cons_self, List.count_cons_of_ne (by simp), (Bool.or_false _).symm,
      le_of_eq (by rw [step, setPath, List.count_cons_of_ne (by simp)]; rfl)⟩
  | update navMesh personPosition timeStep playerDetected =>
    cases detected : guard.detects playerDetected with
    | true =>
      obtain ⟨sources, seen, pending⟩ :=
        { guard with hasSeenPlayer := true }.followPlayer_spec normalize navMesh personPosition timeStep
      have followed : guard.step normalize (.update navMesh personPosition timeStep playerDetected) =
          { guard with hasSeenPlayer := true }.followPlayer normalize navMesh personPosition timeStep := by
        rw [step, Guard.update, if_pos detected]
      rw [followed]
      refine ⟨?_, ?_, ?_, ?_⟩
      · rw [sources, List.count_cons_of_ne (by simp)]
        rfl
      · rw [sources, List.count_cons_self, GuardEvent.sights, detected]
        rfl
      · rw [seen, GuardEvent.sights, detected, Bool.or_true]
      · rw [sources, pending, List.count_cons_of_ne (by simp)]
        exact le_rfl
    | false =>
      obtain ⟨heard, seen, pending⟩ := guard.hear_spec navMesh
      obtain ⟨counts, seenLater, pendingLater⟩ :=
        (guard.hear navMesh).followWaypoints_spec normalize navMesh timeStep
      have patrolled : guard.step normalize (.update navMesh personPosition timeStep playerDetected) =
          (guard.hear navMesh).followWaypoints normalize navMesh timeStep := by
        rw [step, Guard.update, if_neg (by simp [detected])]
      rw [patrolled]
      refine ⟨?_, ?_, ?_, ?_⟩
      · rw [counts .alert (by simp) (by simp), heard .alert (by simp)]
        rfl
      · rw [counts .player (by simp) (by simp), heard .player (by simp), GuardEvent.sights, detected]
        rfl
      · rw [seenLater, seen, GuardEvent.sights, detected, Bool.or_false]
      · rw [counts .sound (by simp) (by simp), pendingLater, pending]
        exact Nat.le_add_right _ _

/-- The flag is set with the first path to the player, and never reset. -/
def Flagged (guard : Guard) : Prop := guard.hasSeenPlayer = decide (0 < guard.sources.count .player)

theorem Flagged.step {guard : Guard} (flagged : Flagged guard) (normalize : Normalization) (event : GuardEvent) :
    Flagged (guard.step normalize event) := by
  obtain ⟨-, sightings, seen, -⟩ := step_accounts normalize guard event
  rw [Flagged, seen, sightings, flagged]
  cases event.sights guard with
  | true => simp
  | false => simp

end Guard

/-! ## What happened in the level -/

namespace Security

/-- The alarms of a room. -/
def alarms (room : IntVector2) (security : Security) (event : SecurityEvent) : ℕ :=
  (decide (security.alarmRoom event = some room)).toNat

/-- The updates in which a guard sees the player: it moves, no sound waits for it, the player is within 5 m, and its
    ray hits nothing else. -/
def sightings (index : ℕ) (security : Security) (event : SecurityEvent) : ℕ :=
  match security.guards[index]?, event with
  | some posted, .guardUpdate guard _ _ sight =>
    (decide (guard = index) &&
      posted.component.detects (posted.component.detectPlayer security.personPosition sight)).toNat
  | _, _ => 0

/-- The items that land within 4 m of a guard. -/
def noises (index : ℕ) (security : Security) (event : SecurityEvent) : ℕ :=
  match security.guards[index]?, event with
  | some posted, .itemLanded itemPosition => (near posted.component itemPosition).toNat
  | _, _ => 0

variable {security : Security} {index : ℕ} {posted : Posted Guard}

/-- What a guard is told of an event accounts for it. -/
theorem tells_accounts (present : security.guards[index]? = some posted) (event : SecurityEvent) :
    security.alarms posted.room event = ((security.tells index posted event).elim false (·.alerts)).toNat ∧
      sightings index security event =
        ((security.tells index posted event).elim false (·.sights posted.component)).toNat ∧
      noises index security event = ((security.tells index posted event).elim false (·.sounds)).toNat := by
  cases event with
  | personMoved position | laserUpdate laser timeStep => simp [alarms, alarmRoom, sightings, noises, tells, present]
  | guardMoved guard position velocity =>
    by_cases same : guard = index <;>
      simp [alarms, alarmRoom, sightings, noises, tells, present, same, GuardEvent.alerts, GuardEvent.sights,
        GuardEvent.sounds]
  | guardUpdate guard navMesh timeStep sight =>
    by_cases same : guard = index <;>
      simp [alarms, alarmRoom, sightings, noises, tells, present, same, GuardEvent.alerts, GuardEvent.sights,
        GuardEvent.sounds]
  | cameraUpdate camera navMesh timeStep sight =>
    by_cases raised : security.alarmRoom (.cameraUpdate camera navMesh timeStep sight) = some posted.room <;>
      simp [alarms, sightings, noises, tells, present, raised, GuardEvent.alerts, GuardEvent.sights, GuardEvent.sounds]
  | laserTouched laser navMesh otherIsPerson =>
    by_cases raised : security.alarmRoom (.laserTouched laser navMesh otherIsPerson) = some posted.room <;>
      simp [alarms, sightings, noises, tells, present, raised, GuardEvent.alerts, GuardEvent.sights, GuardEvent.sounds]
  | itemLanded itemPosition =>
    cases heard : near posted.component itemPosition <;>
      simp [alarms, alarmRoom, sightings, noises, tells, present, heard, GuardEvent.alerts, GuardEvent.sights,
        GuardEvent.sounds]

/-- A value of a guard that each of its own steps changes by at most its gain. -/
theorem step_value (normalize : Normalization) (present : security.guards[index]? = some posted)
    (event : SecurityEvent) :
    ∃ guard, (security.step normalize event).guards[index]? = some ⟨posted.room, guard⟩ ∧
      guard.sources.count .alert = posted.component.sources.count .alert + security.alarms posted.room event ∧
      guard.sources.count .player = posted.component.sources.count .player + sightings index security event ∧
      guard.hasSeenPlayer = (posted.component.hasSeenPlayer || decide (0 < sightings index security event)) ∧
      guard.sources.count .sound + guard.willHearSound.toNat ≤
        posted.component.sources.count .sound + posted.component.willHearSound.toNat +
          noises index security event := by
  obtain ⟨alarms, sighted, noise⟩ := tells_accounts present event
  rw [step_guard normalize present, alarms, sighted, noise]
  cases security.tells index posted event with
  | none => exact ⟨posted.component, rfl, rfl, rfl, (Bool.or_false _).symm, le_rfl⟩
  | some told =>
    obtain ⟨alerts, sightings, seen, sounds⟩ := Guard.step_accounts normalize posted.component told
    refine ⟨_, rfl, alerts, sightings, seen.trans ?_, sounds⟩
    cases sees : told.sights posted.component <;> simp [sees]

theorem run_absent (normalize : Normalization) (absent : security.guards[index]? = none)
    (events : List SecurityEvent) : (run (step normalize) security events).guards[index]? = none :=
  run_invariant (fun security : Security => security.guards[index]? = none)
    (fun _ event absent => step_absent normalize absent event) absent events

/-- The paths of a guard add up to what happened in its room and around it. -/
structure Answers (normalize : Normalization) (start : Security) (events : List SecurityEvent) (index : ℕ)
    (room : IntVector2) (guard : Guard) : Prop where
  alerts : guard.sources.count .alert = tally (step normalize) (alarms room) start events
  pursuits : guard.sources.count .player = tally (step normalize) (sightings index) start events
  seen : guard.hasSeenPlayer = true ↔ 0 < tally (step normalize) (sightings index) start events
  sounds : guard.sources.count .sound ≤ tally (step normalize) (noises index) start events

/-- A value of the guard with some number, which is there. -/
def valueAt (value : Guard → ℕ) (index : ℕ) (security : Security) : ℕ :=
  (security.guards[index]?.map fun posted => value posted.component).getD 0

theorem valueAt_of_present (value : Guard → ℕ) (present : security.guards[index]? = some posted) :
    valueAt value index security = value posted.component := by
  rw [valueAt, present, Option.map_some, Option.getD_some]

def Has (index : ℕ) (room : IntVector2) (security : Security) : Prop :=
  ∃ guard, security.guards[index]? = some ⟨room, guard⟩

theorem Has.step {room : IntVector2} (has : Has index room security) (normalize : Normalization)
    (event : SecurityEvent) : Has index room (security.step normalize event) := by
  obtain ⟨guard, present⟩ := has
  obtain ⟨next, stepped, -⟩ := step_value normalize present event
  exact ⟨next, stepped⟩

/-- A guard that is created has seen and heard nothing. -/
structure Fresh (guard : Guard) : Prop where
  sources : guard.sources = [.waypoints]
  unseen : guard.hasSeenPlayer = false
  deaf : guard.willHearSound = false

theorem load_fresh {conversions : Conversions} {rooms : List (IntVector2 × RoomContents)} {personPosition : Vector3}
    (present : (load conversions rooms personPosition).guards[index]? = some posted) : Fresh posted.component := by
  obtain ⟨⟨room, contents⟩, -, member⟩ := List.mem_flatMap.mp (List.mem_of_getElem? present)
  obtain ⟨node, -, rfl⟩ := List.mem_map.mp member
  exact ⟨rfl, rfl, rfl⟩

theorem Fresh.answers (fresh : Fresh posted.component) (normalize : Normalization)
    (present : security.guards[index]? = some posted) (events : List SecurityEvent) {guard : Guard}
    (reached : (run (step normalize) security events).guards[index]? = some ⟨posted.room, guard⟩) :
    Answers normalize security events index posted.room guard := by
  have has : Has index posted.room security := ⟨posted.component, present⟩
  have alerts := run_eq_add_tally (valueAt (·.sources.count .alert) index) (alarms posted.room) (Has index posted.room)
    (fun _ event has => has.step normalize event) (fun security event has => by
      obtain ⟨guard, present⟩ := has
      obtain ⟨next, stepped, grows, -⟩ := step_value normalize present event
      rw [valueAt_of_present _ stepped, valueAt_of_present _ present, grows]) has events
  have pursuits := run_eq_add_tally (valueAt (·.sources.count .player) index) (sightings index) (Has index posted.room)
    (fun _ event has => has.step normalize event) (fun security event has => by
      obtain ⟨guard, present⟩ := has
      obtain ⟨next, stepped, -, grows, -⟩ := step_value normalize present event
      rw [valueAt_of_present _ stepped, valueAt_of_present _ present, grows]) has events
  have sounds := run_le_add_tally (valueAt (fun guard => guard.sources.count .sound + guard.willHearSound.toNat) index)
    (noises index) (Has index posted.room)
    (fun _ event has => has.step normalize event) (fun security event has => by
      obtain ⟨guard, present⟩ := has
      obtain ⟨next, stepped, -, -, -, grows⟩ := step_value normalize present event
      rw [valueAt_of_present _ stepped, valueAt_of_present _ present]
      exact grows) has events
  simp only [valueAt_of_present _ reached, valueAt_of_present _ present, fresh.sources, fresh.deaf]
    at alerts pursuits sounds
  have alerts : guard.sources.count .alert = tally (step normalize) (alarms posted.room) security events :=
    alerts.trans (Nat.zero_add _)
  have pursuits : guard.sources.count .player = tally (step normalize) (sightings index) security events :=
    pursuits.trans (Nat.zero_add _)
  have flagged : guard.Flagged := by
    have own := run_guard normalize present events
    rw [reached] at own
    obtain ⟨-, rfl⟩ := Posted.mk.injEq _ _ _ _ ▸ Option.some_inj.mp own
    refine run_invariant Guard.Flagged (fun guard event flagged => flagged.step normalize event) ?_ _
    rw [Guard.Flagged, fresh.unseen, fresh.sources]
    rfl
  refine ⟨alerts, pursuits, ?_, ?_⟩
  · rw [show guard.hasSeenPlayer = _ from flagged, decide_eq_true_iff, pursuits]
  · have none : [PathSource.waypoints].count .sound = 0 := rfl
    rw [none] at sounds
    simp only [Bool.toNat_false] at sounds
    omega

/-! ## The level's count of guards -/

/-- The guard that an event updates, and whether it sees the player. -/
def report (security : Security) : SecurityEvent → Option (ℕ × Bool)
  | .guardUpdate guard _ _ sight =>
    security.guards[guard]?.map fun posted =>
      (guard, posted.component.detects (posted.component.detectPlayer security.personPosition sight))
  | _ => none

/-- The update of the level that an event is. -/
def levelUpdate (security : Security) (event : SecurityEvent) : Option Update :=
  (security.report event).map fun (guard, playerDetected) => .guard guard playerDetected

def seen (security : Security) : List Bool := security.guards.map (·.component.hasSeenPlayer)

theorem sightings_eq_report (index : ℕ) (security : Security) (event : SecurityEvent) :
    0 < sightings index security event ↔ security.report event = some (index, true) := by
  cases event with
  | guardUpdate guard navMesh timeStep sight =>
    by_cases same : guard = index
    · subst same
      cases found : security.guards[guard]? with
      | none => simp [sightings, report, found]
      | some posted =>
        simp only [sightings, report, found, decide_true, Bool.true_and, Option.map_some, Option.some_inj,
          Prod.mk.injEq, true_and]
        cases posted.component.detects (posted.component.detectPlayer security.personPosition sight) with
        | true => simp
        | false => simp
    · cases found : security.guards[index]? with
      | none => simp [sightings, report, found, same]
      | some posted => simp [sightings, report, found, same]
  | _ =>
    cases found : security.guards[index]? with
    | none => simp [sightings, report, found]
    | some posted => simp [sightings, report, found]

theorem step_seen (normalize : Normalization) (security : Security) (event : SecurityEvent) :
    (security.step normalize event).seen =
      (security.report event).elim security.seen fun (guard, playerDetected) =>
        security.seen.modify guard (· || playerDetected) := by
  refine List.ext_getElem? fun index => ?_
  have reported := sightings_eq_report index security event
  rw [seen, List.getElem?_map]
  cases present : security.guards[index]? with
  | none =>
    have unseen : security.seen[index]? = none := by rw [seen, List.getElem?_map, present, Option.map_none]
    rw [step_absent normalize present event]
    cases security.report event with
    | none => exact unseen.symm
    | some report =>
      rw [Option.elim_some, List.getElem?_modify, unseen]
      rfl
  | some posted =>
    have flag : security.seen[index]? = some posted.component.hasSeenPlayer := by
      rw [seen, List.getElem?_map, present, Option.map_some]
    obtain ⟨next, stepped, -, -, sees, -⟩ := step_value normalize present event
    rw [stepped, Option.map_some, sees]
    cases found : security.report event with
    | none =>
      have unsighted : decide (0 < sightings index security event) = false := by simp [reported, found]
      rw [Option.elim_none, flag, unsighted, Bool.or_false]
    | some report =>
      obtain ⟨guard, playerDetected⟩ := report
      have sighted : decide (0 < sightings index security event) = (decide (guard = index) && playerDetected) := by
        simp [reported, found]
      rw [Option.elim_some, List.getElem?_modify, flag, sighted]
      by_cases same : guard = index
      · simp [same]
      · simp [same]

/-- As long as the level goes on, its flags are those of the guards. -/
theorem run_level (normalize : Normalization) (cache : SoundCache) (events : List SecurityEvent) {level : Level}
    (enabled : level.enabled = true) (idle : level.physics = .idle) {security : Security}
    (same : level.guards = security.seen) :
    (run (fun level update => (level.step cache (.update update)).1) level
      (projection (step normalize) levelUpdate security events)).guards =
        (run (step normalize) security events).seen := by
  induction events generalizing level security with
  | nil => exact same
  | cons event events inductionHypothesis =>
    have stepped := step_seen normalize security event
    rw [run_cons, projection, run_append, levelUpdate]
    cases reported : security.report event with
    | none =>
      rw [reported] at stepped
      exact inductionHypothesis enabled idle (same.trans stepped.symm)
    | some report =>
      obtain ⟨guard, playerDetected⟩ := report
      rw [reported, Option.elim_some, ← same] at stepped
      have updated : (level.step cache (.update (.guard guard playerDetected))).1 =
          { level with guards := level.guards.modify guard (· || playerDetected) } := by
        rw [Level.step, if_pos (by simp [Level.sends, enabled, idle])]
        rfl
      rw [Option.map_some, Option.toList_some, run_cons, run_nil, updated]
      refine inductionHypothesis ?_ ?_ ?_
      · exact enabled
      · exact idle
      · exact stepped.symm

end Security

namespace SecurityExamples

open PatrolExamples

def conversions : Conversions := ⟨fun _ => false, fun _ => 0, fun _ => ⟨0, 0⟩, fun _ => .zero⟩

def cameraObject : ObjectNode where
  position := .zero
  angles := .zero
  scale := none
  model := ""
  material := ""
  hasRigidBody := true
  interaction := some ("SecurityCamera", .mk "object" [] "" [])
  navigable := false

/-- A room with a guard and a camera, and one with a guard. -/
def rooms : List (IntVector2 × RoomContents) :=
  [(⟨0, 0⟩, ⟨[cameraObject], [.create ⟨0, 0, 0⟩ [⟨5, 0, 0⟩]], []⟩), (⟨1, 0⟩, ⟨[], [.create ⟨11, 0, 0⟩ []], []⟩)]

def seen : Sight := ⟨true, some true⟩

/-- The camera sees the player, and so does the guard of the other room. -/
def events : List SecurityEvent :=
  [.personMoved ⟨9, 0, 0⟩, .cameraUpdate 0 openFloor (1 / 60) seen, .guardMoved 1 ⟨11, 0, 0⟩ ⟨-1, 0, 0⟩,
    .guardUpdate 1 openFloor (1 / 60) seen]

end SecurityExamples

/-- Whatever happens in a level, and in whatever order, each guard goes through a run of its own.  It was given one path
    for every alarm of its own room and none for those of other rooms, one path to the player for every update in
    which it saw the player, and no more paths to a sound than items landed near it. -/
theorem guards_answer_to_their_room (normalize : Normalization) (conversions : Conversions)
    (rooms : List (IntVector2 × RoomContents)) (personPosition : Vector3) (events : List SecurityEvent) (index : ℕ)
    (posted : Posted Guard)
    (present : (Security.load conversions rooms personPosition).guards[index]? = some posted) :
    ∃ guard,
      (run (Security.step normalize) (.load conversions rooms personPosition) events).guards[index]? =
          some ⟨posted.room, guard⟩ ∧
        guard = run (Guard.step normalize) posted.component
          (projection (Security.step normalize) (Security.perceives index) (.load conversions rooms personPosition)
            events) ∧
        Security.Answers normalize (.load conversions rooms personPosition) events index posted.room guard := by
  have reached := Security.run_guard normalize present events
  exact ⟨_, reached, rfl, (Security.load_fresh present).answers normalize present events reached⟩

open SecurityExamples in
theorem guards_answer_to_their_room_cameras :
    ∃ guard,
      (run (Security.step .alongAxes) (.load conversions rooms .zero) events).guards[1]? = some ⟨⟨1, 0⟩, guard⟩ ∧
        guard = run (Guard.step .alongAxes) (.create ⟨⟨11, 0, 0⟩, []⟩)
          (projection (Security.step .alongAxes) (Security.perceives 1) (.load conversions rooms .zero) events) ∧
        Security.Answers .alongAxes (.load conversions rooms .zero) events 1 ⟨1, 0⟩ guard :=
  guards_answer_to_their_room .alongAxes conversions rooms .zero events 1 ⟨⟨1, 0⟩, .create ⟨⟨11, 0, 0⟩, []⟩⟩
    (by decide +kernel)

open SecurityExamples in
-- The alarm is for the guard of the camera's room; the other one has seen the player itself.
example : (run (Security.step .alongAxes) (.load conversions rooms .zero) events).guards.map (·.component.sources) =
    [[.alert, .waypoints], [.player, .waypoints]] := by
  decide +kernel

/-- The flags of the level that decide the score are those of its guards, guard by guard: a flag is set when that
    guard saw the player in some update. -/
theorem level_counts_sightings (normalize : Normalization) (conversions : Conversions) (cache : SoundCache)
    (dirty : Bool) (rooms : List (IntVector2 × RoomContents)) (personPosition : Vector3)
    (events : List SecurityEvent) :
    (run (fun level update => (Level.step cache level (.update update)).1)
      (.load conversions dirty (rooms.map Prod.snd))
      (projection (Security.step normalize) Security.levelUpdate (.load conversions rooms personPosition)
        events)).guards =
      (List.range (Security.load conversions rooms personPosition).guards.length).map fun index =>
        decide (0 < tally (Security.step normalize) (Security.sightings index)
          (.load conversions rooms personPosition) events) := by
  have initially : (Level.load conversions dirty (rooms.map Prod.snd)).guards =
      (Security.load conversions rooms personPosition).seen := by
    simp only [Level.load, Security.seen, Security.load, List.flatMap_map, List.map_flatMap, List.map_map]
    rfl
  rw [Security.run_level normalize cache events rfl rfl initially]
  refine List.ext_getElem? fun index => ?_
  rw [Security.seen, List.getElem?_map, List.getElem?_map]
  cases present : (Security.load conversions rooms personPosition).guards[index]? with
  | none =>
    have outside := List.getElem?_eq_none_iff.mp present
    rw [Security.run_absent normalize present events, List.getElem?_eq_none (by simpa using outside)]
    rfl
  | some posted =>
    have inside := (List.getElem?_eq_some_iff.mp present).1
    have reached := Security.run_guard normalize present events
    have answers := (Security.load_fresh present).answers normalize present events reached
    rw [reached, List.getElem?_range inside, Option.map_some, Option.map_some, Option.some_inj]
    exact Bool.eq_iff_iff.mpr (answers.seen.trans decide_eq_true_iff.symm)

end SneakySneaky
