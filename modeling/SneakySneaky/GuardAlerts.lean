import Mathlib.Tactic.LinearCombination
import SneakySneaky.Guard

/-! # Alerted guards

A laser the player touches and a camera that sees the player give every guard of the room
a path to the player.  The path starts where the guard stands: the other callers of
`FindPath` erase that point, these do not. -/

namespace SneakySneaky

open SneakySneaky.Foundation

/-! ## The alarms of a room -/

namespace SecurityCamera

def alertGuards (navMesh : NavigationMesh) (personPosition : Vector3) (guards : List Guard) : List Guard :=
  guards.map fun guard => guard.setPath (navMesh.findPath guard.position personPosition)

end SecurityCamera

namespace Laser

/-- The part of the handler that concerns the guards of the laser's room. -/
def handleNodeCollision (modelEnabled otherIsPerson : Bool) (navMesh : NavigationMesh)
    (personPosition : Vector3) (guards : List Guard) : List Guard :=
  if !modelEnabled then guards
  else if !otherIsPerson then guards
  else guards.map fun guard => guard.setPath (navMesh.findPath guard.position personPosition)

end Laser

/-- What happens to the guards of a room, or to one of them. -/
inductive GuardRoomEvent where
  | camera (navMesh : NavigationMesh) (personPosition : Vector3)
  | laser (modelEnabled otherIsPerson : Bool) (navMesh : NavigationMesh) (personPosition : Vector3)
  | one (guard : ℕ) (event : GuardEvent)

namespace GuardRoomEvent

def step (normalize : Normalization) (guards : List Guard) : GuardRoomEvent → List Guard
  | .camera navMesh personPosition => SecurityCamera.alertGuards navMesh personPosition guards
  | .laser modelEnabled otherIsPerson navMesh personPosition =>
    Laser.handleNodeCollision modelEnabled otherIsPerson navMesh personPosition guards
  | .one guard event => guards.modify guard (·.step normalize event)

/-- The event as the guard with some number sees it. -/
def seenBy (guard : ℕ) : GuardRoomEvent → List GuardEvent
  | .camera navMesh personPosition => [.alerted navMesh personPosition]
  | .laser modelEnabled otherIsPerson navMesh personPosition =>
    if modelEnabled && otherIsPerson then [.alerted navMesh personPosition] else []
  | .one other event => if other = guard then [event] else []

theorem step_getElem? (normalize : Normalization) (guards : List Guard) (event : GuardRoomEvent) (guard : ℕ) :
    (step normalize guards event)[guard]? =
      guards[guard]?.map fun before => run (Guard.step normalize) before (event.seenBy guard) := by
  cases event with
  | camera navMesh personPosition => exact List.getElem?_map
  | laser modelEnabled otherIsPerson navMesh personPosition =>
    cases modelEnabled with
    | false => simp [step, Laser.handleNodeCollision, seenBy]
    | true =>
      cases otherIsPerson with
      | false => simp [step, Laser.handleNodeCollision, seenBy]
      | true => exact List.getElem?_map
  | one other event =>
    simp only [step, seenBy, List.getElem?_modify]
    split
    · rfl
    · simp

/-- A run in a room is, for each guard, a run of that guard. -/
theorem run_getElem? (normalize : Normalization) (guards : List Guard) (events : List GuardRoomEvent)
    (guard : ℕ) :
    (run (step normalize) guards events)[guard]? =
      guards[guard]?.map fun before =>
        run (Guard.step normalize) before (events.flatMap (seenBy guard)) := by
  induction events generalizing guards with
  | nil => simp
  | cons event events inductionHypothesis =>
    rw [run_cons, inductionHypothesis, step_getElem?, Option.map_map, List.flatMap_cons]
    simp only [run_append]
    rfl

end GuardRoomEvent

/-! ## Where a guard stood when it was alerted -/

/-- A guard, and its position at the last alert if it has not been updated since. -/
structure AlertedGuard where
  guard : Guard
  alertedAt : Option Vector3

/-- What `FindPath` is relied on for: the start comes first, and some other point follows. -/
def NavigationMesh.StartsFirst (navMesh : NavigationMesh) : Prop :=
  ∀ start target, ∃ rest, navMesh.findPath start target = start :: rest ∧ ∃ point ∈ rest, point ≠ start

def GuardEvent.StartsFirst : GuardEvent → Prop
  | .alerted navMesh _ | .update navMesh _ _ _ => navMesh.StartsFirst
  | .moved _ _ | .heardSound _ => True

def Vector3.Apart (left right : Vector3) : Prop := left.x ≠ right.x ∨ left.z ≠ right.z

instance (left right : Vector3) : Decidable (left.Apart right) :=
  inferInstanceAs (Decidable (left.x ≠ right.x ∨ left.z ≠ right.z))

namespace Vector3

/-- Seen from `position`, some point lies in the same horizontal direction as `next`. -/
def Behind (point next position : Vector3) : Prop :=
  (next.x - position.x) * (point.z - position.z) = (next.z - position.z) * (point.x - position.x) ∧
    0 < (next.x - position.x) * (point.x - position.x) + (next.z - position.z) * (point.z - position.z)

instance (point next position : Vector3) : Decidable (point.Behind next position) :=
  inferInstanceAs (Decidable (_ ∧ _))

theorem Behind.ne {point next position : Vector3} (behind : point.Behind next position) : point ≠ position := by
  rintro rfl
  simp [Behind] at behind

theorem Behind.apart {point next position : Vector3} (behind : point.Behind next position) :
    next.Apart position := by
  by_contra together
  obtain ⟨x, z⟩ := not_or.mp together
  obtain ⟨-, ahead⟩ := behind
  rw [not_not.mp x, not_not.mp z] at ahead
  simp at ahead

theorem Apart.behind_self {next position : Vector3} (apart : next.Apart position) : next.Behind next position := by
  refine ⟨mul_comm _ _, ?_⟩
  rcases apart with x | z
  · exact add_pos_of_pos_of_nonneg (mul_self_pos.mpr (sub_ne_zero.mpr x)) (mul_self_nonneg _)
  · exact add_pos_of_nonneg_of_pos (mul_self_nonneg _) (mul_self_pos.mpr (sub_ne_zero.mpr z))

theorem horizontal_mul_eq_iff {offset offset' : Vector3} {factor factor' : ℚ} :
    offset.horizontal * factor = offset'.horizontal * factor' ↔
      offset.x * factor = offset'.x * factor' ∧ offset.z * factor = offset'.z * factor' := by
  simp [Vector3.ext_iff, horizontal]

/-- Whoever heads for `next` heads for the points behind it. -/
theorem behind_iff {point next position : Vector3} {factor : ℚ} (positive : 0 < factor)
    (apart : next.Apart position) :
    (∃ factor' : ℚ, 0 < factor' ∧
        (next - position).horizontal * factor = (point - position).horizontal * factor') ↔
      point.Behind next position := by
  simp only [horizontal_mul_eq_iff, sub_x, sub_z, Behind]
  generalize dx : next.x - position.x = x, dz : next.z - position.z = z
  generalize point.x - position.x = x', point.z - position.z = z'
  have moves : 0 < x * x + z * z := by
    have self := apart.behind_self.2
    rwa [dx, dz] at self
  constructor
  · rintro ⟨factor', positive', sameX, sameZ⟩
    constructor
    · refine mul_right_cancel₀ positive'.ne' ?_
      linear_combination z * sameX - x * sameZ
    · refine pos_of_mul_pos_left ?_ positive'.le
      have scaled : (x * x' + z * z') * factor' = (x * x + z * z) * factor := by
        linear_combination -x * sameX - z * sameZ
      rw [scaled]
      exact mul_pos moves positive
  · rintro ⟨cross, ahead⟩
    have far : 0 < x' * x' + z' * z' := by
      rcases eq_or_ne x' 0 with rfl | nonzero
      · have nonzero : z' ≠ 0 := by
          rintro rfl
          simp at ahead
        exact add_pos_of_nonneg_of_pos (mul_self_nonneg _) (mul_self_pos.mpr nonzero)
      · exact add_pos_of_pos_of_nonneg (mul_self_pos.mpr nonzero) (mul_self_nonneg _)
    refine ⟨factor * (x * x' + z * z') / (x' * x' + z' * z'), div_pos (mul_pos positive ahead) far, ?_, ?_⟩
    · rw [mul_div_assoc', eq_div_iff far.ne']
      linear_combination factor * z' * cross
    · rw [mul_div_assoc', eq_div_iff far.ne']
      linear_combination -factor * x' * cross

end Vector3

namespace Guard

/-- `after` moves from `position` towards one of the points, which is elsewhere. -/
def HeadsElsewhere (points : List Vector3) (position : Vector3) (after : Guard) : Prop :=
  after.velocity ≠ .zero ∧
    ∃ point ∈ points, point ≠ position ∧
      ∃ factor : ℚ, 0 < factor ∧ after.velocity = (point - position).horizontal * factor

theorem horizontal_ne_zero {left right : Vector3} : (left - right).horizontal ≠ .zero ↔ left.Apart right := by
  rw [ne_eq, Vector3.horizontal_sub_eq_zero, not_and_or]
  rfl

theorem followWaypoints_of_path {guard : Guard} {next : Vector3} {rest : List Vector3}
    (path : guard.path = next :: rest) (normalize : Normalization) (navMesh : NavigationMesh) (timeStep : ℚ) :
    guard.followWaypoints normalize navMesh timeStep =
      guard.headFor normalize moveSpeed (guard.arrives timeStep) := by
  simp [followWaypoints, returnHome, refill, path]

/-- A guard with a path heads for its front, and so for what lies behind that. -/
theorem heads_iff {guard : Guard} {next : Vector3} {rest : List Vector3} (path : guard.path = next :: rest)
    (normalize : Normalization) (navMesh : NavigationMesh) (timeStep : ℚ) (points : List Vector3) :
    HeadsElsewhere points guard.position (guard.followWaypoints normalize navMesh timeStep) ↔
      ∃ point ∈ points, point.Behind next guard.position := by
  obtain ⟨factor, positive, scaled⟩ := normalize.scales (next - guard.position).horizontal
  have velocity : (guard.followWaypoints normalize navMesh timeStep).velocity =
      (next - guard.position).horizontal * factor := by
    rw [followWaypoints_of_path path]
    simp only [headFor, path]
    rw [scaled]
    exact Vector3.scaled_one _
  have moves : (guard.followWaypoints normalize navMesh timeStep).velocity ≠ .zero ↔ next.Apart guard.position := by
    rw [velocity, ne_eq, Vector3.scaled_eq_zero positive]
    exact horizontal_ne_zero
  rw [HeadsElsewhere, moves, velocity]
  constructor
  · rintro ⟨apart, point, member, -, heads⟩
    exact ⟨point, member, (Vector3.behind_iff positive apart).mp heads⟩
  · rintro ⟨point, member, behind⟩
    exact ⟨behind.apart, point, member, behind.ne, (Vector3.behind_iff positive behind.apart).mpr behind⟩

end Guard

namespace AlertedGuard

def step (normalize : Normalization) (state : AlertedGuard) (event : GuardEvent) : AlertedGuard where
  guard := state.guard.step normalize event
  alertedAt :=
    match event with
    | .alerted _ _ => some state.guard.position
    | .update _ _ _ _ => none
    | .moved _ _ | .heardSound _ => state.alertedAt

/-- The points an update that does not see the player may advance to: those of the way to a sound,
    whose start is erased, or those of the alert's route elsewhere than it started. -/
def goals (state : AlertedGuard) (navMesh : NavigationMesh) (alertedAt : Vector3) : List Vector3 :=
  if state.guard.hears then state.guard.soundRoute navMesh
  else state.guard.path.filter fun point => point.Apart alertedAt

/-- An update that follows an alert, and does not itself see the player, makes the guard advance. -/
def Advances (normalize : Normalization) (state : AlertedGuard) : GuardEvent → Prop
  | .update navMesh personPosition timeStep playerDetected =>
    ∀ alertedAt ∈ state.alertedAt, state.guard.detects playerDetected = false →
      Guard.HeadsElsewhere (state.goals navMesh alertedAt) state.guard.position
        (state.guard.update normalize navMesh personPosition timeStep playerDetected)
  | _ => True

/-- Before such an update the guard has been put where the way back to the place of the alert is the
    way to another point of the route, or the way to a sound it has heard leads elsewhere. -/
def Displaced (state : AlertedGuard) : GuardEvent → Prop
  | .update navMesh _ _ playerDetected =>
    ∀ alertedAt ∈ state.alertedAt, state.guard.detects playerDetected = false →
      if state.guard.hears then ∃ next ∈ (state.guard.soundRoute navMesh).head?, next.Apart state.guard.position
      else ∃ point ∈ state.guard.path, point.Apart alertedAt ∧ point.Behind alertedAt state.guard.position
  | _ => True

instance (state : AlertedGuard) : ∀ event, Decidable (Displaced state event)
  | .update navMesh _ _ playerDetected =>
    inferInstanceAs (Decidable (∀ alertedAt ∈ state.alertedAt, state.guard.detects playerDetected = false →
      if state.guard.hears then ∃ next ∈ (state.guard.soundRoute navMesh).head?, next.Apart state.guard.position
      else ∃ point ∈ state.guard.path, point.Apart alertedAt ∧ point.Behind alertedAt state.guard.position))
  | .moved _ _ | .heardSound _ | .alerted _ _ => inferInstanceAs (Decidable True)

/-- The path of an alerted guard starts where it stood. -/
def OnAlert (state : AlertedGuard) : Prop :=
  ∀ alertedAt ∈ state.alertedAt, ∃ rest, state.guard.path = alertedAt :: rest

theorem OnAlert.step {state : AlertedGuard} {event : GuardEvent} (onAlert : OnAlert state)
    (normalize : Normalization) (starts : event.StartsFirst) : OnAlert (state.step normalize event) := by
  intro alertedAt alerted
  cases event with
  | moved _ _ | heardSound _ => exact onAlert alertedAt alerted
  | alerted navMesh personPosition =>
    obtain ⟨rest, path, -⟩ := starts state.guard.position personPosition
    cases alerted
    exact ⟨rest, path⟩
  | update navMesh personPosition timeStep playerDetected => cases alerted

theorem OnAlert.advances_iff {state : AlertedGuard} {event : GuardEvent} (onAlert : OnAlert state)
    (normalize : Normalization) (starts : event.StartsFirst) :
    Advances normalize state event ↔ Displaced state event := by
  cases event with
  | moved _ _ | heardSound _ | alerted _ _ => exact Iff.rfl
  | update navMesh personPosition timeStep playerDetected =>
    simp only [Advances, Displaced, goals]
    refine forall₂_congr fun alertedAt alerted => forall_congr' fun undetected => ?_
    have update : state.guard.update normalize navMesh personPosition timeStep playerDetected =
        (state.guard.hear navMesh).followWaypoints normalize navMesh timeStep :=
      if_neg (by simp [undetected])
    rw [update]
    by_cases hears : state.guard.hears = true
    · obtain ⟨rest, path, point, member, -⟩ := starts state.guard.position
        (navMesh.findNearestPoint state.guard.soundPosition.horizontal ⟨1, 1 / 100, 1⟩)
      -- The sound's route has the start erased, so the guard heads for the next point.
      have route : state.guard.soundRoute navMesh = rest := by rw [Guard.soundRoute, path, List.tail_cons]
      obtain ⟨next, later, rfl⟩ := List.exists_cons_of_ne_nil (List.ne_nil_of_mem member)
      have heardPath : (state.guard.hear navMesh).path = next :: later := by
        simp [Guard.hear, hears, route]
      have position : (state.guard.hear navMesh).position = state.guard.position := by
        simp [Guard.hear, hears]
      rw [if_pos hears, if_pos hears, ← position, Guard.heads_iff heardPath, route, position]
      simp only [List.head?_cons, Option.mem_def, Option.some.injEq, exists_eq_left']
      exact ⟨fun ⟨_, _, behind⟩ => behind.apart, fun apart => ⟨next, List.mem_cons_self, apart.behind_self⟩⟩
    · obtain ⟨rest, path⟩ := onAlert alertedAt alerted
      have unheard : state.guard.hear navMesh = state.guard := by simp [Guard.hear, hears]
      rw [if_neg hears, if_neg hears, unheard, Guard.heads_iff path]
      simp only [List.mem_filter, decide_eq_true_eq, and_assoc]

theorem run_guard (normalize : Normalization) (state : AlertedGuard) (events : List GuardEvent) :
    (run (step normalize) state events).guard = run (Guard.step normalize) state.guard events :=
  run_view AlertedGuard.guard (fun _ _ => rfl) state events

end AlertedGuard

namespace PatrolExamples

theorem openFloor_startsFirst : openFloor.StartsFirst := by
  intro start target
  refine ⟨_, rfl, _, List.mem_singleton_self _, ?_⟩
  split
  · rename_i same
    rw [same, ne_eq, Vector3.ext_iff]
    simp
  · assumption

end PatrolExamples

end SneakySneaky
