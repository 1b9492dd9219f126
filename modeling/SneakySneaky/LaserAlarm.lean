import SneakySneaky.Lasers
import SneakySneaky.LoadLevel.Room

/-! # The lights of a room with a laser

A laser that the player touches pulses the point lights of its room red for ten seconds and
then sets them to constants, white at a brightness of 0.2.  The stairs create their lights
with these values; the four lights that `LoadLevel` gives a room are brighter.

Of a light only its type, colour and brightness are modelled. -/

namespace SneakySneaky

open SneakySneaky.Foundation

/-! ## Lights -/

inductive LightType where
  | directional | spot | point
  deriving DecidableEq

structure Light where
  lightType : LightType
  color : Color
  brightness : ℚ
  deriving DecidableEq

namespace LoadLevel

/-- Whether a room has lights of its own: the level's setting, unless the room's file has one. -/
def roomLights (conversions : Conversions) (levelLights : Bool) (roomXml : Option XMLElement) : Bool :=
  match roomXml with
  | none => levelLights
  | some root =>
    if root.hasAttribute "lights" then conversions.toBool (root.getAttribute "lights") else levelLights

/-- The four lights of a room; three are clones of the first. -/
def floorLights (roomLights : Bool) : List Light :=
  if roomLights then List.replicate 4 ⟨.point, .white, 1 / 4⟩ else []

end LoadLevel

/-- The lights that `DelayedStart` puts up the centre of a staircase; four are clones of the first. -/
def Stairs.lights : List Light := List.replicate 5 ⟨.point, .white, 1 / 5⟩

namespace Light

/-- What one round of the loop in `Laser::Update` does to a light. -/
def paint (color : Color) (brightness : ℚ) (light : Light) : Light :=
  if light.lightType ≠ .point then light else { light with color := color, brightness := brightness }

@[simp] theorem paint_paint (color color' : Color) (brightness brightness' : ℚ) (light : Light) :
    (light.paint color brightness).paint color' brightness' = light.paint color' brightness' := by
  by_cases point : light.lightType = .point
  · simp [paint, point]
  · simp [paint, point]

theorem paint_of_ne {light : Light} (other : light.lightType ≠ .point) (color : Color) (brightness : ℚ) :
    light.paint color brightness = light := if_pos other

theorem paint_eq_self_iff {light : Light} {color : Color} {brightness : ℚ} :
    light.paint color brightness = light ↔
      (light.lightType = .point → light.color = color ∧ light.brightness = brightness) := by
  obtain ⟨lightType, own, ownBrightness⟩ := light
  by_cases point : lightType = .point
  · simp [paint, point, eq_comm]
  · simp [paint, point]

end Light

namespace Laser

/-- The loop of `Update` over the lights of the room. -/
def updateLights (laser : Laser) (sin : ℚ → ℚ) (timeStep : ℚ) (lights : List Light) : List Light :=
  if 0 < laser.laserDelay then lights
  else if !laser.lightPulse then lights
  else if (laser.update timeStep).lightPulse then
    lights.map (Light.paint .red (|sin ((laser.update timeStep).lightTime * 360)| * (2 / 5)))
  else lights.map (Light.paint .white (1 / 5))

end Laser

/-! ## The room -/

/-- A laser, the lights of its room and those of the other rooms. -/
structure AlarmRoom where
  laser : Laser
  lights : List Light
  elsewhere : List Light
  deriving DecidableEq

inductive AlarmEvent where
  | collision (otherIsPerson : Bool)
  | update (timeStep : ℚ)
  deriving DecidableEq

namespace AlarmRoom

def step (sin : ℚ → ℚ) (room : AlarmRoom) : AlarmEvent → AlarmRoom
  | .collision otherIsPerson => { room with laser := room.laser.touch otherIsPerson }
  | .update timeStep =>
    { room with
      laser := room.laser.update timeStep
      lights := room.laser.updateLights sin timeStep room.lights }

/-- A touch of the player while the beam is on begins an alarm, unless one is running. -/
def beginsAlarm (room : AlarmRoom) : AlarmEvent → Bool
  | .collision otherIsPerson => !room.laser.lightPulse && (room.laser.touch otherIsPerson).lightPulse
  | .update _ => false

end AlarmRoom

/-- A room, and its lights at the beginning of the last alarm. -/
structure AlarmHistory where
  room : AlarmRoom
  found : Option (List Light)
  deriving DecidableEq

namespace AlarmHistory

def step (sin : ℚ → ℚ) (history : AlarmHistory) (event : AlarmEvent) : AlarmHistory where
  room := history.room.step sin event
  found := if history.room.beginsAlarm event then some history.room.lights else history.found

/-- No alarm has been running in a room, and its lights are those it was created with. -/
def start (room : AlarmRoom) : AlarmHistory := ⟨room, none⟩

/-- What the alarms so far have done to the lights of a room and of the others. -/
structure LeftAsFound (created : AlarmRoom) (history : AlarmHistory) : Prop where
  restored : history.room.laser.lightPulse = false → ∀ found ∈ history.found, history.room.lights = found
  otherTypes : ∀ (i : ℕ) (light : Light), created.lights[i]? = some light → light.lightType ≠ .point →
    history.room.lights[i]? = some light
  otherRooms : history.room.elsewhere = created.elsewhere

end AlarmHistory

/-! ## What an event does -/

namespace Laser

variable {laser : Laser} {timeStep : ℚ}

@[simp] theorem touch_lightPulse (laser : Laser) (otherIsPerson : Bool) :
    (laser.touch otherIsPerson).lightPulse = (laser.lightPulse || (laser.modelEnabled && otherIsPerson)) := by
  simp only [touch]
  cases enabled : laser.modelEnabled with
  | false => simp
  | true => cases otherIsPerson <;> simp

@[simp] theorem switch_lightPulse (laser : Laser) (timeStep : ℚ) :
    (laser.switch timeStep).lightPulse = laser.lightPulse := by
  simp only [switch]
  split
  · split <;> rfl
  · rfl

@[simp] theorem switch_lightTime (laser : Laser) (timeStep : ℚ) :
    (laser.switch timeStep).lightTime = laser.lightTime := by
  simp only [switch]
  split
  · split <;> rfl
  · rfl

theorem pulse_of_idle (idle : laser.lightPulse = false) : laser.pulse timeStep = laser := by
  simp [pulse, idle]

/-- An update never begins an alarm. -/
theorem update_lightPulse_of_idle (idle : laser.lightPulse = false) : (laser.update timeStep).lightPulse = false := by
  simp only [update]
  split
  · exact idle
  · rw [pulse_of_idle]
    · simpa using idle
    · simpa using idle

/-- The lights stay as they are, are painted while the alarm runs, or are set when it ends. -/
theorem updateLights_cases (laser : Laser) (sin : ℚ → ℚ) (timeStep : ℚ) (lights : List Light) :
    ((laser.update timeStep).lightPulse = laser.lightPulse ∧ laser.updateLights sin timeStep lights = lights) ∨
      ((laser.update timeStep).lightPulse = true ∧ ∃ brightness,
        laser.updateLights sin timeStep lights = lights.map (Light.paint .red brightness)) ∨
      ((laser.update timeStep).lightPulse = false ∧
        laser.updateLights sin timeStep lights = lights.map (Light.paint .white (1 / 5))) := by
  by_cases delaying : 0 < laser.laserDelay
  · apply Or.inl
    simp [update, updateLights, delaying]
  · cases alarmed : laser.lightPulse with
    | false =>
      apply Or.inl
      exact ⟨update_lightPulse_of_idle alarmed, by simp [updateLights, delaying, alarmed]⟩
    | true =>
      apply Or.inr
      cases after : (laser.update timeStep).lightPulse with
      | true =>
        apply Or.inl
        refine ⟨rfl, |sin ((laser.update timeStep).lightTime * 360)| * (2 / 5), ?_⟩
        simp only [updateLights, delaying, alarmed, after, if_false, if_true, Bool.not_true, Bool.false_eq_true]
      | false =>
        apply Or.inr
        refine ⟨rfl, ?_⟩
        simp only [updateLights, delaying, alarmed, after, if_false, Bool.not_true, Bool.false_eq_true]

end Laser

/-- Lights that differ from others at most in what painting changes. -/
def Painted (created lights : List Light) : Prop :=
  lights = created ∨ ∃ color brightness, lights = created.map (Light.paint color brightness)

theorem Painted.paint {created lights : List Light} (painted : Painted created lights) (color : Color)
    (brightness : ℚ) :
    lights.map (Light.paint color brightness) = created.map (Light.paint color brightness) := by
  cases painted with
  | inl same => rw [same]
  | inr repainted =>
    obtain ⟨_, _, same⟩ := repainted
    rw [same, List.map_map]
    apply List.map_congr_left
    intro light _
    exact Light.paint_paint _ _ _ _ light

theorem Painted.other {created lights : List Light} (painted : Painted created lights) {i : ℕ} {light : Light}
    (found : created[i]? = some light) (other : light.lightType ≠ .point) : lights[i]? = some light := by
  cases painted with
  | inl same => rw [same, found]
  | inr repainted =>
    obtain ⟨color, brightness, same⟩ := repainted
    rw [same, List.getElem?_map, found, Option.map_some, Light.paint_of_ne other]

/-- Every point light is white and has the brightness that the alarm leaves. -/
def Standard (lights : List Light) : Prop :=
  ∀ light ∈ lights, light.lightType = .point → light.color = .white ∧ light.brightness = 1 / 5

theorem standard_iff {lights : List Light} :
    Standard lights ↔ lights.map (Light.paint .white (1 / 5)) = lights := by
  have pointwise := @List.map_inj_left _ _ lights (Light.paint .white (1 / 5)) id
  rw [List.map_id] at pointwise
  rw [pointwise]
  simp only [Standard, id, Light.paint_eq_self_iff]

namespace AlarmHistory

variable {created : AlarmRoom} {history : AlarmHistory}

/-! ## Rooms whose lights are set to what they were -/

/-- Without an alarm the lights are those created, and every alarm has found those. -/
structure Settles (created : AlarmRoom) (history : AlarmHistory) : Prop where
  painted : Painted created.lights history.room.lights
  settled : history.room.laser.lightPulse = false → history.room.lights = created.lights
  found : ∀ found ∈ history.found, found = created.lights
  otherRooms : history.room.elsewhere = created.elsewhere

theorem Settles.start (room : AlarmRoom) : Settles room (start room) := by
  constructor
  · exact .inl rfl
  · exact fun _ => rfl
  · intro found member
    cases member
  · rfl

theorem Settles.leftAsFound (settles : Settles created history) : LeftAsFound created history := by
  constructor
  · intro idle found member
    rw [settles.settled idle, settles.found found member]
  · intro i light place other
    exact settles.painted.other place other
  · exact settles.otherRooms

theorem Settles.step (settles : Settles created history) (standard : Standard created.lights) (sin : ℚ → ℚ)
    (event : AlarmEvent) : Settles created (history.step sin event) := by
  have found : ∀ found ∈ (history.step sin event).found, found = created.lights := by
    intro found member
    simp only [AlarmHistory.step] at member
    split at member
    · rename_i begins
      cases member
      -- An alarm begins only when none is running.
      apply settles.settled
      cases event with
      | collision otherIsPerson =>
        simp only [AlarmRoom.beginsAlarm, Bool.and_eq_true, Bool.not_eq_true'] at begins
        exact begins.1
      | update timeStep => cases begins
    · exact settles.found found member
  cases event with
  | collision otherIsPerson =>
    constructor
    · exact settles.painted
    · intro idle
      apply settles.settled
      simp only [AlarmHistory.step, AlarmRoom.step, Laser.touch_lightPulse, Bool.or_eq_false_iff] at idle
      exact idle.1
    · exact found
    · exact settles.otherRooms
  | update timeStep =>
    cases history.room.laser.updateLights_cases sin timeStep history.room.lights with
    | inl stays =>
      obtain ⟨pulse, lights⟩ := stays
      constructor
      · show Painted _ (history.room.laser.updateLights sin timeStep history.room.lights)
        rw [lights]
        exact settles.painted
      · intro idle
        show history.room.laser.updateLights sin timeStep history.room.lights = _
        rw [lights]
        exact settles.settled (pulse ▸ idle)
      · exact found
      · exact settles.otherRooms
    | inr paints =>
      cases paints with
      | inl running =>
        obtain ⟨pulse, brightness, lights⟩ := running
        rw [settles.painted.paint] at lights
        constructor
        · exact .inr ⟨_, _, lights⟩
        · intro idle
          exact absurd (pulse.symm.trans idle) (by decide)
        · exact found
        · exact settles.otherRooms
      | inr ended =>
        obtain ⟨_, lights⟩ := ended
        rw [settles.painted.paint, standard_iff.mp standard] at lights
        constructor
        · exact .inl lights
        · exact fun _ => lights
        · exact found
        · exact settles.otherRooms

/-! ## Lasers that never light -/

structure Dark (created : AlarmRoom) (history : AlarmHistory) : Prop where
  interval : history.room.laser.laserInterval ≤ 0
  disabled : history.room.laser.modelEnabled = false
  idle : history.room.laser.lightPulse = false
  lights : history.room.lights = created.lights
  found : history.found = none
  otherRooms : history.room.elsewhere = created.elsewhere

theorem Dark.start {room : AlarmRoom} (interval : room.laser.laserInterval ≤ 0)
    (disabled : room.laser.modelEnabled = false) (idle : room.laser.lightPulse = false) :
    Dark room (start room) :=
  ⟨interval, disabled, idle, rfl, rfl, rfl⟩

theorem Dark.leftAsFound (dark : Dark created history) : LeftAsFound created history := by
  constructor
  · intro _ found member
    rw [dark.found] at member
    cases member
  · intro i light place _
    rw [dark.lights]
    exact place
  · exact dark.otherRooms

theorem Dark.step (dark : Dark created history) (sin : ℚ → ℚ) (event : AlarmEvent) :
    Dark created (history.step sin event) := by
  cases event with
  | collision otherIsPerson =>
    have untouched : history.room.laser.touch otherIsPerson = history.room.laser := by
      simp [Laser.touch, dark.disabled]
    have same : history.step sin (.collision otherIsPerson) = history := by
      simp [AlarmHistory.step, AlarmRoom.step, AlarmRoom.beginsAlarm, untouched, dark.idle]
    rw [same]
    exact dark
  | update timeStep =>
    have stuck : history.room.laser.switch timeStep = history.room.laser := by
      simp [Laser.switch, not_lt.mpr dark.interval]
    have updated : ∃ laserDelay, history.room.laser.update timeStep =
        { history.room.laser with laserDelay := laserDelay } := by
      simp only [Laser.update]
      split
      · exact ⟨_, rfl⟩
      · rw [stuck, Laser.pulse_of_idle dark.idle]
        exact ⟨_, rfl⟩
    have unlit : history.room.laser.updateLights sin timeStep history.room.lights = history.room.lights := by
      simp [Laser.updateLights, dark.idle]
    obtain ⟨laserDelay, updated⟩ := updated
    have next : history.step sin (.update timeStep) = { history with
        room := { history.room with laser := { history.room.laser with laserDelay := laserDelay } } } := by
      simp [AlarmHistory.step, AlarmRoom.step, AlarmRoom.beginsAlarm, updated, unlit]
    rw [next]
    exact ⟨dark.interval, dark.disabled, dark.idle, dark.lights, dark.found, dark.otherRooms⟩

end AlarmHistory

/-! ## A whole alarm -/

def AlarmEvent.Forward : AlarmEvent → Prop
  | .collision _ => True
  | .update timeStep => 0 < timeStep

instance : DecidablePred AlarmEvent.Forward
  | .collision _ => inferInstanceAs (Decidable True)
  | .update timeStep => inferInstanceAs (Decidable (0 < timeStep))

namespace AlarmHistory

/-- A laser as it is created, except for what is left of its delay. -/
def freshLaser (laserInterval laserDelay : ℚ) : Laser := ⟨false, 0, 0, laserInterval, laserDelay, false⟩

theorem delay_ends (sin : ℚ → ℚ) (laserInterval laserDelay : ℚ) (lights elsewhere : List Light) :
    ∃ events, (∀ event ∈ events, AlarmEvent.Forward event) ∧ ∃ left ≤ 0,
      run (step sin) (start ⟨freshLaser laserInterval laserDelay, lights, elsewhere⟩) events =
        start ⟨freshLaser laserInterval left, lights, elsewhere⟩ := by
  by_cases delaying : 0 < laserDelay
  · refine ⟨[.update laserDelay], ?_, 0, le_refl 0, ?_⟩
    · intro event member
      rw [List.mem_singleton.mp member]
      exact delaying
    · simp [start, freshLaser, AlarmHistory.step, AlarmRoom.step, AlarmRoom.beginsAlarm, Laser.update,
        Laser.updateLights, delaying]
  · exact ⟨[], by simp, laserDelay, not_lt.mp delaying, rfl⟩

/-- The player can walk into any laser that ever lights, and wait for the end of the alarm. -/
theorem alarm_ends (sin : ℚ → ℚ) {laserInterval : ℚ} (positive : 0 < laserInterval) (laserDelay : ℚ)
    (lights elsewhere : List Light) :
    ∃ events, (∀ event ∈ events, AlarmEvent.Forward event) ∧
      ∃ history, run (step sin) (start ⟨freshLaser laserInterval laserDelay, lights, elsewhere⟩) events = history ∧
        history.room.laser.lightPulse = false ∧ history.found = some lights ∧
        history.room.lights = lights.map (Light.paint .white (1 / 5)) := by
  obtain ⟨waits, forward, left, ended, waited⟩ := delay_ends sin laserInterval laserDelay lights elsewhere
  have delayless : ¬ 0 < left := not_lt.mpr ended
  have lit : step sin (start ⟨freshLaser laserInterval left, lights, elsewhere⟩) (.update (laserInterval + 1)) =
      ⟨⟨⟨false, 0, 0, laserInterval, left, true⟩, lights, elsewhere⟩, none⟩ := by
    simp [start, freshLaser, AlarmHistory.step, AlarmRoom.step, AlarmRoom.beginsAlarm, Laser.update,
      Laser.updateLights, Laser.switch, Laser.pulse, delayless, positive]
  have touched : step sin ⟨⟨⟨false, 0, 0, laserInterval, left, true⟩, lights, elsewhere⟩, none⟩ (.collision true) =
      ⟨⟨⟨true, 0, 0, laserInterval, left, true⟩, lights, elsewhere⟩, some lights⟩ := by
    simp [AlarmHistory.step, AlarmRoom.step, AlarmRoom.beginsAlarm, Laser.touch]
  have pulsed : ((⟨true, 0, 0, laserInterval, left, true⟩ : Laser).update 11).lightPulse = false := by
    simp only [Laser.update, delayless, if_false, Laser.pulse, Laser.switch_lightPulse, Laser.switch_lightTime]
    norm_num
  refine ⟨waits ++ [.update (laserInterval + 1), .collision true, .update 11], ?_, _, rfl, ?_⟩
  · intro event member
    cases List.mem_append.mp member with
    | inl waiting => exact forward event waiting
    | inr acting =>
      simp only [List.mem_cons, List.not_mem_nil, or_false] at acting
      rcases acting with rfl | rfl | rfl
      · exact add_pos positive one_pos
      · trivial
      · show (0 : ℚ) < 11
        norm_num
  · rw [run_append, waited, run_cons, lit, run_cons, touched, run_cons, run_nil]
    refine ⟨pulsed, rfl, ?_⟩
    simp only [AlarmHistory.step, AlarmRoom.step, Laser.updateLights, delayless, if_false, Bool.not_true,
      Bool.false_eq_true, pulsed]

end AlarmHistory

/-! ## The rooms that `LoadLevel` creates -/

namespace AlarmRoom

/-- A room with a laser, some staircases and lights of other types, and the other rooms' lights. -/
def create (conversions : Conversions) (laser : XMLElement) (roomLights : Bool) (stairs : ℕ)
    (otherLights elsewhere : List Light) : AlarmRoom where
  laser := Laser.loadFromXML conversions laser
  lights := LoadLevel.floorLights roomLights ++ (List.replicate stairs Stairs.lights).flatten ++ otherLights
  elsewhere := elsewhere

theorem standard_create {conversions : Conversions} {laser : XMLElement} {roomLights : Bool} {stairs : ℕ}
    {otherLights elsewhere : List Light} (others : ∀ light ∈ otherLights, light.lightType ≠ .point) :
    Standard (create conversions laser roomLights stairs otherLights elsewhere).lights ↔ roomLights = false := by
  constructor
  · intro standard
    cases roomLights with
    | false => rfl
    | true =>
      have floor := standard ⟨.point, .white, 1 / 4⟩ (by simp [create, LoadLevel.floorLights]) rfl
      exact absurd floor.2 (by norm_num)
  · rintro rfl light member point
    simp only [create, LoadLevel.floorLights, Bool.false_eq_true, if_false, List.nil_append, List.mem_append,
      List.mem_flatten] at member
    cases member with
    | inl stair =>
      obtain ⟨lights, staircase, member⟩ := stair
      rw [List.eq_of_mem_replicate staircase] at member
      rw [List.eq_of_mem_replicate member]
      exact ⟨rfl, rfl⟩
    | inr other => exact absurd point (others light other)

end AlarmRoom

/-- Every alarm leaves a room as it found it exactly when the room has no lights of its own, or its
    laser never lights. -/
theorem alarms_leave_room_iff (sin : ℚ → ℚ) (conversions : Conversions) (levelLights : Bool)
    (roomXml : Option XMLElement) (laser : XMLElement) (stairs : ℕ) (otherLights elsewhere : List Light)
    (others : ∀ light ∈ otherLights, light.lightType ≠ .point) :
    (∀ events, (∀ event ∈ events, AlarmEvent.Forward event) →
      AlarmHistory.LeftAsFound
        (AlarmRoom.create conversions laser (LoadLevel.roomLights conversions levelLights roomXml) stairs
          otherLights elsewhere)
        (run (AlarmHistory.step sin)
          (.start (AlarmRoom.create conversions laser (LoadLevel.roomLights conversions levelLights roomXml) stairs
            otherLights elsewhere)) events)) ↔
      LoadLevel.roomLights conversions levelLights roomXml = false ∨
        conversions.toFloat (laser.getAttribute "interval") ≤ 0 := by
  generalize LoadLevel.roomLights conversions levelLights roomXml = roomLights
  constructor
  · intro leaves
    by_cases positive : 0 < conversions.toFloat (laser.getAttribute "interval")
    · apply Or.inl
      obtain ⟨events, forward, history, ran, idle, found, lights⟩ := AlarmHistory.alarm_ends sin positive
        (conversions.toFloat (laser.getAttribute "delay"))
        (AlarmRoom.create conversions laser roomLights stairs otherLights elsewhere).lights elsewhere
      have same : run (AlarmHistory.step sin) (.start
          (AlarmRoom.create conversions laser roomLights stairs otherLights elsewhere)) events = history := ran
      have left := leaves events forward
      rw [same] at left
      have restored := left.restored idle _ found
      rw [lights, ← standard_iff] at restored
      exact (AlarmRoom.standard_create others).mp restored
    · exact .inr (not_lt.mp positive)
  · intro condition events _
    cases condition with
    | inl unlit =>
      have standard := (@AlarmRoom.standard_create conversions laser roomLights stairs _ elsewhere others).mpr unlit
      have settles := run_invariant (AlarmHistory.Settles _)
        (fun _ event settlesBefore => settlesBefore.step standard sin event) (AlarmHistory.Settles.start _) events
      exact settles.leftAsFound
    | inr unlit =>
      have start : AlarmHistory.Dark (AlarmRoom.create conversions laser roomLights stairs otherLights elsewhere)
          (.start (AlarmRoom.create conversions laser roomLights stairs otherLights elsewhere)) :=
        .start unlit rfl rfl
      have dark := run_invariant (AlarmHistory.Dark _) (fun _ event darkBefore => darkBefore.step sin event)
        start events
      exact dark.leftAsFound

/-- A room file with one laser; the second turns the lights of the room off. -/
def litRoom : XMLElement := .mk "room" [] "" [secondLaser]

def darkRoom : XMLElement := .mk "room" [("lights", "false")] "" [secondLaser]

/-- A room with stairs and a laser, and no lights of its own. -/
theorem alarms_leave_room_iff_stairs :
    (∀ events, (∀ event ∈ events, AlarmEvent.Forward event) →
      AlarmHistory.LeftAsFound
        (AlarmRoom.create secondConversions secondLaser
          (LoadLevel.roomLights secondConversions true (some darkRoom)) 1 [⟨.spot, .white, 1 / 5⟩] [])
        (run (AlarmHistory.step fun _ => 1)
          (.start (AlarmRoom.create secondConversions secondLaser
            (LoadLevel.roomLights secondConversions true (some darkRoom)) 1 [⟨.spot, .white, 1 / 5⟩] []))
          events)) ↔
      LoadLevel.roomLights secondConversions true (some darkRoom) = false ∨
        secondConversions.toFloat (secondLaser.getAttribute "interval") ≤ 0 :=
  alarms_leave_room_iff (fun _ => 1) secondConversions true (some darkRoom) secondLaser 1
    [⟨.spot, .white, 1 / 5⟩] [] (by decide)

/-- At ten frames a second: the beam lights, the player walks into it, and the alarm runs out. -/
def alarmFrames : List AlarmEvent :=
  List.replicate 11 (.update (1 / 10)) ++ [.collision true] ++ List.replicate 101 (.update (1 / 10))

/-- The four lights of a room are left with less than the brightness they had. -/
theorem alarm_dims_room :
    let created := AlarmRoom.create secondConversions secondLaser
      (LoadLevel.roomLights secondConversions true (some litRoom)) 0 [] []
    let history := run (AlarmHistory.step fun _ => 1) (.start created) alarmFrames
    (∀ event ∈ alarmFrames, AlarmEvent.Forward event) ∧
      history.room.laser.lightPulse = false ∧
      history.found = some (List.replicate 4 ⟨.point, .white, 1 / 4⟩) ∧
      history.room.lights = List.replicate 4 ⟨.point, .white, 1 / 5⟩ ∧
      ¬ AlarmHistory.LeftAsFound created history := by
  intro created history
  have found : history.found = some (List.replicate 4 ⟨.point, .white, 1 / 4⟩) := by decide +kernel
  have lights : history.room.lights = List.replicate 4 ⟨.point, .white, 1 / 5⟩ := by decide +kernel
  have idle : history.room.laser.lightPulse = false := by decide +kernel
  refine ⟨by decide +kernel, idle, found, lights, ?_⟩
  intro left
  have restored := left.restored idle _ found
  rw [lights] at restored
  exact absurd restored (by decide +kernel)

end SneakySneaky
