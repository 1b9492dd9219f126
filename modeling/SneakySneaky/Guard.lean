import SneakySneaky.Engine
import SneakySneaky.Foundation.Runs

/-! # `Guard`

The route of a guard: its path, who wrote it, and the flags that decide what `Update`
does next.  The physics moves the guard between updates and may change its velocity.
Whether the guard sees the player is an input; its materials and its light are left out. -/

namespace SneakySneaky

open SneakySneaky.Foundation

/-- The engine's navigation mesh. -/
structure NavigationMesh where
  findNearestPoint : Vector3 → Vector3 → Vector3
  /-- The points of a path, empty when there is none. -/
  findPath : Vector3 → Vector3 → List Vector3

/-- `LoadLevel` makes no guard without a waypoint. -/
structure Waypoints where
  first : Vector3
  rest : List Vector3
  deriving DecidableEq

def Waypoints.toList (waypoints : Waypoints) : List Vector3 := waypoints.first :: waypoints.rest

/-- What a path was when it was written: the waypoints, the way to the first of them, the way to the
    player or to a sound, or what a laser or a camera gave. -/
inductive PathSource where
  | waypoints | home | player | sound | alert
  deriving DecidableEq

structure Guard where
  position : Vector3
  velocity : Vector3
  path : List Vector3
  waypoints : Waypoints
  hasSeenPlayer : Bool
  wasFollowingPlayer : Bool
  willHearSound : Bool
  soundPosition : Vector3
  /-- The paths written so far, newest first, which nothing in the source reads. -/
  sources : List PathSource
  deriving DecidableEq

namespace Guard

def moveSpeed : ℚ := 1

def detectMoveSpeed : ℚ := 6 / 5

/-- The constructor and `SetWaypoints`. -/
def create (waypoints : Waypoints) : Guard where
  position := waypoints.first
  velocity := .zero
  path := waypoints.toList
  waypoints := waypoints
  hasSeenPlayer := false
  wasFollowingPlayer := false
  willHearSound := false
  soundPosition := .zero
  sources := [.waypoints]

def heardSound (guard : Guard) (position : Vector3) : Guard :=
  { guard with willHearSound := true, soundPosition := position }

def setPath (guard : Guard) (path : List Vector3) : Guard :=
  { guard with path := path, sources := .alert :: guard.sources }

/-! ## `Update` -/

def moving (guard : Guard) : Bool := 0 < guard.velocity.lengthSquared

/-- `Update` turns to a sound instead of looking for the player. -/
def hears (guard : Guard) : Bool := guard.moving && guard.willHearSound

/-- Whether the call of `DetectPlayer` is made and succeeds. -/
def detects (guard : Guard) (playerDetected : Bool) : Bool :=
  guard.moving && !guard.willHearSound && playerDetected

def soundRoute (guard : Guard) (navMesh : NavigationMesh) : List Vector3 :=
  let target := navMesh.findNearestPoint guard.soundPosition.horizontal ⟨1, 1 / 100, 1⟩
  (navMesh.findPath guard.position target).tail

def hear (guard : Guard) (navMesh : NavigationMesh) : Guard :=
  if guard.hears then
    { guard with
      wasFollowingPlayer := true
      path := guard.soundRoute navMesh
      willHearSound := false
      sources := .sound :: guard.sources }
  else guard

/-- The last part of `FollowPlayer` and of `FollowWaypoints`: head for the front of the path. -/
def headFor (guard : Guard) (normalize : Normalization) (speed : ℚ) (arrives : ℚ → Bool) : Guard :=
  match guard.path with
  | [] => guard
  | next :: rest =>
    let offset := (next - guard.position).horizontal
    { guard with
      path := if arrives offset.lengthSquared then rest else next :: rest
      velocity := normalize.apply offset * speed }

def followPlayer (guard : Guard) (normalize : Normalization) (navMesh : NavigationMesh)
    (personPosition : Vector3) (timeStep : ℚ) : Guard :=
  let guard := { guard with
    wasFollowingPlayer := true
    path := (navMesh.findPath guard.position personPosition).tail
    sources := .player :: guard.sources }
  if guard.path.isEmpty then { guard with velocity := .zero }
  else
    guard.headFor normalize detectMoveSpeed fun distance =>
      distance < detectMoveSpeed * detectMoveSpeed * timeStep * timeStep

/-- After a diversion the guard looks for a way to its first waypoint. -/
def returnHome (guard : Guard) (navMesh : NavigationMesh) : Guard :=
  if guard.wasFollowingPlayer && guard.path.isEmpty then
    { guard with
      path := (navMesh.findPath guard.position guard.waypoints.first).tail
      wasFollowingPlayer := false
      sources := .home :: guard.sources }
  else guard

def refill (guard : Guard) : Guard :=
  if guard.path.isEmpty then
    { guard with path := guard.waypoints.toList, sources := .waypoints :: guard.sources }
  else guard

def arrives (guard : Guard) (timeStep distance : ℚ) : Bool :=
  (guard.wasFollowingPlayer && guard.path.length == 1 && decide (distance < 1 * 1 * timeStep * timeStep)) ||
    decide (distance < moveSpeed * moveSpeed * timeStep * timeStep)

def followWaypoints (guard : Guard) (normalize : Normalization) (navMesh : NavigationMesh) (timeStep : ℚ) :
    Guard :=
  let guard := (guard.returnHome navMesh).refill
  guard.headFor normalize moveSpeed (guard.arrives timeStep)

def update (guard : Guard) (normalize : Normalization) (navMesh : NavigationMesh) (personPosition : Vector3)
    (timeStep : ℚ) (playerDetected : Bool) : Guard :=
  if guard.detects playerDetected then
    { guard with hasSeenPlayer := true }.followPlayer normalize navMesh personPosition timeStep
  else (guard.hear navMesh).followWaypoints normalize navMesh timeStep

end Guard

/-! ## Runs -/

/-- `moved` is what the physics does between two updates. -/
inductive GuardEvent where
  | moved (position velocity : Vector3)
  | heardSound (position : Vector3)
  | alerted (navMesh : NavigationMesh) (personPosition : Vector3)
  | update (navMesh : NavigationMesh) (personPosition : Vector3) (timeStep : ℚ) (playerDetected : Bool)

namespace Guard

def step (normalize : Normalization) (guard : Guard) : GuardEvent → Guard
  | .moved position velocity => { guard with position := position, velocity := velocity }
  | .heardSound position => guard.heardSound position
  | .alerted navMesh personPosition => guard.setPath (navMesh.findPath guard.position personPosition)
  | .update navMesh personPosition timeStep playerDetected =>
    guard.update normalize navMesh personPosition timeStep playerDetected

end Guard

namespace PatrolExamples

/-- On a floor without obstacles a path has two points; one from a place to itself leads aside. -/
def openFloor : NavigationMesh where
  findNearestPoint point _ := point
  findPath start target := [start, if target = start then target + ⟨1, 0, 0⟩ else target]

def patrol : Waypoints := ⟨⟨0, 0, 0⟩, [⟨5, 0, 0⟩]⟩

def frame (playerDetected : Bool) : GuardEvent := .update openFloor ⟨0, 0, 3⟩ (1 / 60) playerDetected

end PatrolExamples

end SneakySneaky
