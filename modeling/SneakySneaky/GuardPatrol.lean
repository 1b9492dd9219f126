import SneakySneaky.Foundation.Itinerary
import SneakySneaky.Guard

/-! # `Guard`: the order of the patrol

`path_` is replaced, refilled and used up in five functions.  Here each of them acts on a
guard together with the itinerary of its path, and to take the `Front` of an empty path has
no result.  No run comes to that, and as long as nothing diverts the guard it goes round its
waypoints in order. -/

namespace SneakySneaky

open SneakySneaky.Foundation

/-! ## Calls -/

/-- The calls of the guard, with any path for `SetPath`. -/
inductive PathEvent where
  | guard (event : GuardEvent)
  | setPath (path : List Vector3)

/-- The paths that a call may write, apart from the waypoints. -/
inductive PathEvent.Writes : PathEvent → PathSource → List Vector3 → Prop where
  | set (path : List Vector3) : Writes (.setPath path) .alert path
  | alerted (navMesh : NavigationMesh) (personPosition position : Vector3) :
    Writes (.guard (.alerted navMesh personPosition)) .alert (navMesh.findPath position personPosition)
  | found (navMesh : NavigationMesh) (personPosition : Vector3) (timeStep : ℚ) (playerDetected : Bool)
      (source : PathSource) (start target : Vector3) :
    Writes (.guard (.update navMesh personPosition timeStep playerDetected)) source
      (navMesh.findPath start target).tail

namespace Guard

def pathStep (normalize : Normalization) (guard : Guard) : PathEvent → Guard
  | .guard event => guard.step normalize event
  | .setPath path => guard.setPath path

/-- Nothing else than the waypoints becomes the path of a guard on its patrol. -/
def Undiverted (guard : Guard) : PathEvent → Prop
  | .guard (.update _ _ _ playerDetected) => guard.detects playerDetected = false ∧ guard.hears = false
  | .guard (.alerted _ _) | .setPath _ => False
  | .guard (.moved _ _) | .guard (.heardSound _) => True

/-- The first part of `FollowPlayer`. -/
def pursue (guard : Guard) (navMesh : NavigationMesh) (personPosition : Vector3) : Guard :=
  { guard with
    wasFollowingPlayer := true
    path := (navMesh.findPath guard.position personPosition).tail
    sources := .player :: guard.sources }

theorem followPlayer_eq (guard : Guard) (normalize : Normalization) (navMesh : NavigationMesh)
    (personPosition : Vector3) (timeStep : ℚ) :
    guard.followPlayer normalize navMesh personPosition timeStep =
      if (guard.pursue navMesh personPosition).path.isEmpty then
        { guard.pursue navMesh personPosition with velocity := .zero }
      else
        (guard.pursue navMesh personPosition).headFor normalize detectMoveSpeed fun distance =>
          distance < detectMoveSpeed * detectMoveSpeed * timeStep * timeStep := by
  rw [followPlayer]
  rfl

theorem headFor_path {guard : Guard} {next : Vector3} {rest : List Vector3} (ahead : guard.path = next :: rest)
    (normalize : Normalization) (speed : ℚ) (arrives : ℚ → Bool) :
    (guard.headFor normalize speed arrives).path =
      if arrives (next - guard.position).horizontal.lengthSquared then rest else next :: rest := by
  rw [headFor, ahead]

@[simp] theorem headFor_waypoints (guard : Guard) (normalize : Normalization) (speed : ℚ) (arrives : ℚ → Bool) :
    (guard.headFor normalize speed arrives).waypoints = guard.waypoints := by
  rw [headFor]
  split
  · rfl
  · rfl

@[simp] theorem headFor_wasFollowingPlayer (guard : Guard) (normalize : Normalization) (speed : ℚ)
    (arrives : ℚ → Bool) :
    (guard.headFor normalize speed arrives).wasFollowingPlayer = guard.wasFollowingPlayer := by
  rw [headFor]
  split
  · rfl
  · rfl

theorem refill_path_ne_nil (guard : Guard) : guard.refill.path ≠ [] := by
  rw [refill]
  split
  · exact List.cons_ne_nil _ _
  · rename_i stays
    simpa using stays

end Guard

/-! ## Walks -/

/-- A guard and the itinerary of its path. -/
structure GuardWalk where
  guard : Guard
  itinerary : Itinerary PathSource Vector3
  left_eq : itinerary.current.left = guard.path

namespace GuardWalk

def create (waypoints : Waypoints) : GuardWalk :=
  ⟨.create waypoints, .depart .waypoints waypoints.toList, rfl⟩

/-- The guard changes and its path does not. -/
def keep (walk : GuardWalk) (guard : Guard) (same : guard.path = walk.guard.path) : GuardWalk :=
  ⟨guard, walk.itinerary, walk.left_eq.trans same.symm⟩

/-- The path is written anew. -/
def rewrite (walk : GuardWalk) (guard : Guard) (source : PathSource) : GuardWalk :=
  ⟨guard, walk.itinerary.reroute source guard.path, rfl⟩

/-- The front of the path is erased. -/
def arrive (walk : GuardWalk) (guard : Guard) (erased : guard.path = walk.guard.path.tail) : GuardWalk :=
  ⟨guard, walk.itinerary.advance, by
    rw [Itinerary.advance_current, Leg.advance_left, walk.left_eq, erased]⟩

def hear (walk : GuardWalk) (navMesh : NavigationMesh) : GuardWalk :=
  if walk.guard.hears then walk.rewrite (walk.guard.hear navMesh) .sound else walk

/-- `Front` needs a path that is not empty. -/
def headFor (walk : GuardWalk) (normalize : Normalization) (speed : ℚ) (arrives : ℚ → Bool) : Option GuardWalk :=
  match ahead : walk.guard.path with
  | [] => none
  | next :: rest =>
    let guard := walk.guard.headFor normalize speed arrives
    if arrived : arrives (next - walk.guard.position).horizontal.lengthSquared then
      some (walk.arrive guard (by rw [Guard.headFor_path ahead, if_pos arrived, ahead, List.tail_cons]))
    else some (walk.keep guard (by rw [Guard.headFor_path ahead, if_neg arrived, ahead]))

def followPlayer (walk : GuardWalk) (normalize : Normalization) (navMesh : NavigationMesh)
    (personPosition : Vector3) (timeStep : ℚ) : Option GuardWalk :=
  let walk := walk.rewrite (walk.guard.pursue navMesh personPosition) .player
  if walk.guard.path.isEmpty then some (walk.keep { walk.guard with velocity := .zero } rfl)
  else
    walk.headFor normalize Guard.detectMoveSpeed fun distance =>
      distance < Guard.detectMoveSpeed * Guard.detectMoveSpeed * timeStep * timeStep

def returnHome (walk : GuardWalk) (navMesh : NavigationMesh) : GuardWalk :=
  if walk.guard.wasFollowingPlayer && walk.guard.path.isEmpty then
    walk.rewrite (walk.guard.returnHome navMesh) .home
  else walk

def refill (walk : GuardWalk) : GuardWalk :=
  if walk.guard.path.isEmpty then walk.rewrite walk.guard.refill .waypoints else walk

def followWaypoints (walk : GuardWalk) (normalize : Normalization) (navMesh : NavigationMesh) (timeStep : ℚ) :
    Option GuardWalk :=
  let walk := (walk.returnHome navMesh).refill
  walk.headFor normalize Guard.moveSpeed (walk.guard.arrives timeStep)

def update (walk : GuardWalk) (normalize : Normalization) (navMesh : NavigationMesh) (personPosition : Vector3)
    (timeStep : ℚ) (playerDetected : Bool) : Option GuardWalk :=
  if walk.guard.detects playerDetected then
    (walk.keep { walk.guard with hasSeenPlayer := true } rfl).followPlayer normalize navMesh personPosition timeStep
  else (walk.hear navMesh).followWaypoints normalize navMesh timeStep

def step (normalize : Normalization) (walk : GuardWalk) : PathEvent → Option GuardWalk
  | .guard (.moved position velocity) =>
    some (walk.keep { walk.guard with position := position, velocity := velocity } rfl)
  | .guard (.heardSound position) => some (walk.keep (walk.guard.heardSound position) rfl)
  | .guard (.alerted navMesh personPosition) =>
    some (walk.rewrite (walk.guard.setPath (navMesh.findPath walk.guard.position personPosition)) .alert)
  | .setPath path => some (walk.rewrite (walk.guard.setPath path) .alert)
  | .guard (.update navMesh personPosition timeStep playerDetected) =>
    walk.update normalize navMesh personPosition timeStep playerDetected

def runAll (normalize : Normalization) (waypoints : Waypoints) (events : List PathEvent) : Option GuardWalk :=
  run (fun outcome event => outcome.bind (step normalize · event)) (some (create waypoints)) events

/-! ## One step -/

@[simp] theorem hear_guard (walk : GuardWalk) (navMesh : NavigationMesh) :
    (walk.hear navMesh).guard = walk.guard.hear navMesh := by
  rw [hear]
  split
  · rfl
  · rename_i deaf
    rw [Guard.hear, if_neg deaf]

@[simp] theorem returnHome_guard (walk : GuardWalk) (navMesh : NavigationMesh) :
    (walk.returnHome navMesh).guard = walk.guard.returnHome navMesh := by
  rw [returnHome]
  split
  · rfl
  · rename_i stays
    rw [Guard.returnHome, if_neg stays]

@[simp] theorem refill_guard (walk : GuardWalk) : walk.refill.guard = walk.guard.refill := by
  rw [refill]
  split
  · rfl
  · rename_i left
    rw [Guard.refill, if_neg left]

/-- `hear`, `returnHome` and `refill` write the path anew or leave it. -/
theorem ite_reroutes (walk : GuardWalk) (condition : Prop) [Decidable condition] (guard : Guard)
    (source : PathSource) :
    walk.itinerary.Reroutes (if condition then walk.rewrite guard source else walk).itinerary := by
  split
  · exact Itinerary.reroutes_reroute walk.itinerary source guard.path
  · exact .refl

theorem headFor_cases {walk next : GuardWalk} {normalize : Normalization} {speed : ℚ} {arrives : ℚ → Bool}
    (headed : walk.headFor normalize speed arrives = some next) :
    (∃ erased, next = walk.arrive (walk.guard.headFor normalize speed arrives) erased) ∨
      ∃ same, next = walk.keep (walk.guard.headFor normalize speed arrives) same := by
  rw [headFor] at headed
  split at headed
  · cases headed
  · simp only at headed
    split at headed
    · exact .inl ⟨_, (Option.some_inj.mp headed).symm⟩
    · exact .inr ⟨_, (Option.some_inj.mp headed).symm⟩

theorem exists_headFor {walk : GuardWalk} (ahead : walk.guard.path ≠ []) (normalize : Normalization) (speed : ℚ)
    (arrives : ℚ → Bool) : ∃ next, walk.headFor normalize speed arrives = some next := by
  rw [headFor]
  split
  · rename_i empty
    exact absurd empty ahead
  · simp only
    split
    · exact ⟨_, rfl⟩
    · exact ⟨_, rfl⟩

/-- A guard with somewhere to go heads there, and reaches one point or none. -/
theorem headFor_spec {walk : GuardWalk} (ahead : walk.guard.path ≠ []) (normalize : Normalization) (speed : ℚ)
    (arrives : ℚ → Bool) :
    ∃ next, walk.headFor normalize speed arrives = some next ∧
      next.guard = walk.guard.headFor normalize speed arrives ∧
      (next.itinerary = walk.itinerary ∨
        ∃ point, walk.itinerary.current.left = point :: next.itinerary.current.left ∧
          next.itinerary = walk.itinerary.advance) := by
  obtain ⟨next, headed⟩ := exists_headFor ahead normalize speed arrives
  refine ⟨next, headed, ?_⟩
  cases headFor_cases headed with
  | inl arrived =>
    obtain ⟨erased, rfl⟩ := arrived
    obtain ⟨point, rest, path⟩ := List.exists_cons_of_ne_nil ahead
    refine ⟨rfl, .inr ⟨point, ?_, rfl⟩⟩
    show _ = point :: walk.itinerary.current.advance.left
    rw [Leg.advance_left, walk.left_eq, path, List.tail_cons]
  | inr underWay =>
    obtain ⟨same, rfl⟩ := underWay
    exact ⟨rfl, .inl rfl⟩

theorem followPlayer_spec (walk : GuardWalk) (normalize : Normalization) (navMesh : NavigationMesh)
    (personPosition : Vector3) (timeStep : ℚ) :
    ∃ next, walk.followPlayer normalize navMesh personPosition timeStep = some next ∧
      next.guard = walk.guard.followPlayer normalize navMesh personPosition timeStep ∧
      walk.itinerary.AdvancesOnce next.itinerary := by
  have reroutes := Itinerary.reroutes_reroute walk.itinerary .player (walk.guard.pursue navMesh personPosition).path
  rw [followPlayer, Guard.followPlayer_eq]
  split
  · rename_i nowhere
    exact ⟨_, rfl, (if_pos nowhere).symm, reroutes.advancesOnce⟩
  · rename_i found
    obtain ⟨next, headed, sameGuard, reaches⟩ := headFor_spec (by simpa using found) normalize
      Guard.detectMoveSpeed _
    exact ⟨next, headed, sameGuard.trans (if_neg found).symm, _, reroutes, reaches⟩

theorem followWaypoints_spec (walk : GuardWalk) (normalize : Normalization) (navMesh : NavigationMesh)
    (timeStep : ℚ) :
    ∃ next, walk.followWaypoints normalize navMesh timeStep = some next ∧
      next.guard = walk.guard.followWaypoints normalize navMesh timeStep ∧
      walk.itinerary.AdvancesOnce next.itinerary := by
  have ahead : (walk.returnHome navMesh).refill.guard.path ≠ [] := by
    rw [refill_guard]
    exact Guard.refill_path_ne_nil _
  obtain ⟨next, headed, sameGuard, reaches⟩ := headFor_spec ahead normalize Guard.moveSpeed
    ((walk.returnHome navMesh).refill.guard.arrives timeStep)
  refine ⟨next, headed, ?_, _, (walk.ite_reroutes _ _ _).trans (ite_reroutes _ _ _ _), reaches⟩
  rw [sameGuard, refill_guard, returnHome_guard, Guard.followWaypoints]

theorem update_spec (walk : GuardWalk) (normalize : Normalization) (navMesh : NavigationMesh)
    (personPosition : Vector3) (timeStep : ℚ) (playerDetected : Bool) :
    ∃ next, walk.update normalize navMesh personPosition timeStep playerDetected = some next ∧
      next.guard = walk.guard.update normalize navMesh personPosition timeStep playerDetected ∧
      walk.itinerary.AdvancesOnce next.itinerary := by
  rw [update, Guard.update]
  split
  · exact followPlayer_spec (walk.keep { walk.guard with hasSeenPlayer := true } rfl) normalize navMesh
      personPosition timeStep
  · obtain ⟨next, followed, sameGuard, middle, reroutes, reaches⟩ := followWaypoints_spec (walk.hear navMesh)
      normalize navMesh timeStep
    refine ⟨next, followed, ?_, middle, (walk.ite_reroutes _ _ _).trans reroutes, reaches⟩
    rw [sameGuard, hear_guard]

/-- No call takes the front of an empty path, and each erases at most one point. -/
theorem step_spec (normalize : Normalization) (walk : GuardWalk) (event : PathEvent) :
    ∃ next, walk.step normalize event = some next ∧ next.guard = walk.guard.pathStep normalize event ∧
      walk.itinerary.AdvancesOnce next.itinerary := by
  cases event with
  | setPath path => exact ⟨_, rfl, rfl, (Itinerary.reroutes_reroute walk.itinerary _ _).advancesOnce⟩
  | guard event =>
    cases event with
    | moved position velocity => exact ⟨_, rfl, rfl, Itinerary.Reroutes.advancesOnce .refl⟩
    | heardSound position => exact ⟨_, rfl, rfl, Itinerary.Reroutes.advancesOnce .refl⟩
    | alerted navMesh personPosition =>
      exact ⟨_, rfl, rfl, (Itinerary.reroutes_reroute walk.itinerary _ _).advancesOnce⟩
    | update navMesh personPosition timeStep playerDetected =>
      exact update_spec walk normalize navMesh personPosition timeStep playerDetected

/-! ## Where the path comes from -/

/-- A leg of the patrol is the waypoints; any other was written by one of the calls. -/
structure Written (waypoints : Waypoints) (events : List PathEvent) (leg : Leg PathSource Vector3) : Prop where
  patrol : leg.source = .waypoints → leg.points = waypoints.toList
  diversion : leg.source ≠ .waypoints → ∃ event ∈ events, event.Writes leg.source leg.points

theorem Written.advance {waypoints : Waypoints} {events : List PathEvent} {leg : Leg PathSource Vector3}
    (written : Written waypoints events leg) : Written waypoints events leg.advance := by
  refine ⟨fun patrols => ?_, fun diverts => ?_⟩
  · rw [Leg.points_advance]
    exact written.patrol (leg.advance_source.symm.trans patrols)
  · rw [Leg.points_advance, Leg.advance_source]
    exact written.diversion fun patrols => diverts (leg.advance_source.trans patrols)

/-- The waypoints stay the same, every leg is accounted for, and the waypoints are taken up only when
    the path is used up. -/
structure Traced (waypoints : Waypoints) (events : List PathEvent) (walk : GuardWalk) : Prop where
  waypoints_eq : walk.guard.waypoints = waypoints
  written : ∀ leg ∈ walk.itinerary.legs, Written waypoints events leg
  inTurn : InTurn .waypoints walk.itinerary.legs

section Traced

variable {waypoints : Waypoints} {events : List PathEvent} {walk : GuardWalk}

theorem create_traced (waypoints : Waypoints) (events : List PathEvent) :
    Traced waypoints events (create waypoints) where
  waypoints_eq := rfl
  written leg member := by
    obtain rfl := List.mem_singleton.mp member
    exact ⟨fun _ => rfl, fun diverts => absurd rfl diverts⟩
  inTurn := List.isChain_singleton _

theorem Traced.keep (traced : Traced waypoints events walk) {guard : Guard} (same : guard.path = walk.guard.path)
    (sameWaypoints : guard.waypoints = walk.guard.waypoints) : Traced waypoints events (walk.keep guard same) :=
  ⟨sameWaypoints.trans traced.waypoints_eq, traced.written, traced.inTurn⟩

theorem Traced.arrive (traced : Traced waypoints events walk) {guard : Guard}
    (erased : guard.path = walk.guard.path.tail) (sameWaypoints : guard.waypoints = walk.guard.waypoints) :
    Traced waypoints events (walk.arrive guard erased) where
  waypoints_eq := sameWaypoints.trans traced.waypoints_eq
  written leg member := by
    obtain ⟨current, earlier⟩ := List.forall_mem_cons.mp traced.written
    cases List.mem_cons.mp member with
    | inl newest =>
      subst newest
      exact current.advance
    | inr older => exact earlier leg older
  inTurn := traced.inTurn.advance

theorem Traced.rewrite (traced : Traced waypoints events walk) {guard : Guard} {source : PathSource}
    (sameWaypoints : guard.waypoints = walk.guard.waypoints)
    (written : Written waypoints events (.fresh source guard.path))
    (usedUp : source = .waypoints → walk.guard.path = []) :
    Traced waypoints events (walk.rewrite guard source) where
  waypoints_eq := sameWaypoints.trans traced.waypoints_eq
  written := List.forall_mem_cons.mpr ⟨written, traced.written⟩
  inTurn := by
    refine traced.inTurn.fresh fun isRound leg newest => ?_
    obtain rfl := Option.some_inj.mp newest
    exact walk.left_eq.trans (usedUp isRound)

theorem Traced.divert (traced : Traced waypoints events walk) {guard : Guard} {source : PathSource}
    {event : PathEvent} (member : event ∈ events) (sameWaypoints : guard.waypoints = walk.guard.waypoints)
    (diverts : source ≠ .waypoints) (writes : event.Writes source guard.path) :
    Traced waypoints events (walk.rewrite guard source) :=
  traced.rewrite sameWaypoints ⟨fun patrols => absurd patrols diverts, fun _ => ⟨event, member, writes⟩⟩
    fun patrols => absurd patrols diverts

theorem Traced.headFor (traced : Traced waypoints events walk) {next : GuardWalk} {normalize : Normalization}
    {speed : ℚ} {arrives : ℚ → Bool} (headed : walk.headFor normalize speed arrives = some next) :
    Traced waypoints events next := by
  cases headFor_cases headed with
  | inl arrived =>
    obtain ⟨erased, rfl⟩ := arrived
    exact traced.arrive erased (Guard.headFor_waypoints _ _ _ _)
  | inr underWay =>
    obtain ⟨same, rfl⟩ := underWay
    exact traced.keep same (Guard.headFor_waypoints _ _ _ _)

section Update

variable {normalize : Normalization} {navMesh : NavigationMesh} {personPosition : Vector3} {timeStep : ℚ}
  {playerDetected : Bool}

theorem Traced.hear (traced : Traced waypoints events walk)
    (member : .guard (.update navMesh personPosition timeStep playerDetected) ∈ events) :
    Traced waypoints events (walk.hear navMesh) := by
  rw [GuardWalk.hear]
  split
  · rename_i hears
    refine traced.divert member ?_ (by simp) ?_
    · rw [Guard.hear, if_pos hears]
    · rw [Guard.hear, if_pos hears]
      exact .found navMesh personPosition timeStep playerDetected _ _ _
  · exact traced

theorem Traced.returnHome (traced : Traced waypoints events walk)
    (member : .guard (.update navMesh personPosition timeStep playerDetected) ∈ events) :
    Traced waypoints events (walk.returnHome navMesh) := by
  rw [GuardWalk.returnHome]
  split
  · rename_i returns
    refine traced.divert member ?_ (by simp) ?_
    · rw [Guard.returnHome, if_pos returns]
    · rw [Guard.returnHome, if_pos returns]
      exact .found navMesh personPosition timeStep playerDetected _ _ _
  · exact traced

theorem Traced.refill (traced : Traced waypoints events walk) : Traced waypoints events walk.refill := by
  rw [GuardWalk.refill]
  split
  · rename_i empty
    refine traced.rewrite ?_ ⟨fun _ => ?_, fun diverts => absurd rfl diverts⟩ fun _ => by simpa using empty
    · rw [Guard.refill, if_pos empty]
    · rw [Guard.refill, if_pos empty, Leg.points_fresh, traced.waypoints_eq]
  · exact traced

theorem Traced.followPlayer (traced : Traced waypoints events walk)
    (member : .guard (.update navMesh personPosition timeStep playerDetected) ∈ events) {next : GuardWalk}
    (followed : walk.followPlayer normalize navMesh personPosition timeStep = some next) :
    Traced waypoints events next := by
  have pursues : Traced waypoints events (walk.rewrite (walk.guard.pursue navMesh personPosition) .player) :=
    traced.divert member rfl (by simp) (.found navMesh personPosition timeStep playerDetected _ _ _)
  rw [GuardWalk.followPlayer] at followed
  split at followed
  · obtain rfl := Option.some_inj.mp followed
    exact pursues.keep _ rfl
  · exact pursues.headFor followed

theorem Traced.update (traced : Traced waypoints events walk)
    (member : .guard (.update navMesh personPosition timeStep playerDetected) ∈ events) {next : GuardWalk}
    (updated : walk.update normalize navMesh personPosition timeStep playerDetected = some next) :
    Traced waypoints events next := by
  rw [GuardWalk.update] at updated
  split at updated
  · have seen : Traced waypoints events (walk.keep { walk.guard with hasSeenPlayer := true } rfl) :=
      traced.keep _ rfl
    exact seen.followPlayer member updated
  · exact ((traced.hear member).returnHome member).refill.headFor updated

end Update

theorem Traced.step (traced : Traced waypoints events walk) {normalize : Normalization} {event : PathEvent}
    (member : event ∈ events) {next : GuardWalk} (stepped : walk.step normalize event = some next) :
    Traced waypoints events next := by
  cases event with
  | setPath path =>
    cases stepped
    exact traced.divert member rfl (by simp) (.set path)
  | guard event =>
    cases event with
    | moved position velocity | heardSound position =>
      cases stepped
      exact traced.keep _ rfl
    | alerted navMesh personPosition =>
      cases stepped
      exact traced.divert member rfl (by simp) (.alerted navMesh personPosition _)
    | update navMesh personPosition timeStep playerDetected => exact traced.update member stepped

/-- The rest of a path is the end of the waypoints, or of what a call wrote. -/
theorem Traced.suffix (traced : Traced waypoints events walk) :
    walk.guard.path <:+ waypoints.toList ∨
      ∃ event ∈ events, ∃ source points, event.Writes source points ∧ walk.guard.path <:+ points := by
  have written := traced.written walk.itinerary.current List.mem_cons_self
  have suffix := walk.itinerary.current.left_suffix_points
  rw [walk.left_eq] at suffix
  by_cases patrols : walk.itinerary.current.source = .waypoints
  · rw [written.patrol patrols] at suffix
    exact .inl suffix
  · obtain ⟨event, member, writes⟩ := written.diversion patrols
    exact .inr ⟨event, member, _, _, writes, suffix⟩

end Traced

/-! ## On patrol -/

/-- The guard has only ever followed its waypoints. -/
structure OnPatrol (walk : GuardWalk) : Prop where
  rounds : ∀ leg ∈ walk.itinerary.legs, leg.source = .waypoints
  unflagged : walk.guard.wasFollowingPlayer = false

section OnPatrol

variable {walk : GuardWalk}

theorem create_onPatrol (waypoints : Waypoints) : OnPatrol (create waypoints) :=
  ⟨fun _ member => by rw [List.mem_singleton.mp member]; rfl, rfl⟩

theorem OnPatrol.refill (onPatrol : OnPatrol walk) : OnPatrol walk.refill := by
  rw [GuardWalk.refill]
  split
  · rename_i empty
    refine ⟨List.forall_mem_cons.mpr ⟨rfl, onPatrol.rounds⟩, ?_⟩
    show walk.guard.refill.wasFollowingPlayer = false
    rw [Guard.refill, if_pos empty]
    exact onPatrol.unflagged
  · exact onPatrol

theorem OnPatrol.headFor (onPatrol : OnPatrol walk) {next : GuardWalk} {normalize : Normalization} {speed : ℚ}
    {arrives : ℚ → Bool} (headed : walk.headFor normalize speed arrives = some next) : OnPatrol next := by
  have unflagged : (walk.guard.headFor normalize speed arrives).wasFollowingPlayer = false := by
    rw [Guard.headFor_wasFollowingPlayer, onPatrol.unflagged]
  cases headFor_cases headed with
  | inl arrived =>
    obtain ⟨erased, rfl⟩ := arrived
    obtain ⟨current, earlier⟩ := List.forall_mem_cons.mp onPatrol.rounds
    exact ⟨List.forall_mem_cons.mpr ⟨(Leg.advance_source _).trans current, earlier⟩, unflagged⟩
  | inr underWay =>
    obtain ⟨same, rfl⟩ := underWay
    exact ⟨onPatrol.rounds, unflagged⟩

theorem OnPatrol.step (onPatrol : OnPatrol walk) {normalize : Normalization} {event : PathEvent}
    (undiverted : walk.guard.Undiverted event) {next : GuardWalk}
    (stepped : walk.step normalize event = some next) : OnPatrol next := by
  cases event with
  | setPath path => exact undiverted.elim
  | guard event =>
    cases event with
    | moved position velocity | heardSound position =>
      cases stepped
      exact ⟨onPatrol.rounds, onPatrol.unflagged⟩
    | alerted navMesh personPosition => exact undiverted.elim
    | update navMesh personPosition timeStep playerDetected =>
      obtain ⟨unseen, deaf⟩ := undiverted
      -- The flag is unset, so the guard does not look for a way home either.
      have direct : (walk.hear navMesh).returnHome navMesh = walk := by
        rw [hear, if_neg (by simp [deaf]), returnHome, if_neg (by simp [onPatrol.unflagged])]
      have headed := stepped
      rw [GuardWalk.step, update, if_neg (by simp [unseen]), followWaypoints, direct] at headed
      exact onPatrol.refill.headFor headed

end OnPatrol

end GuardWalk

/-! ## Runs -/

/-- The waypoints over and over, from the first. -/
def Waypoints.endless (waypoints : Waypoints) : Stream' Vector3 :=
  Stream'.cycle waypoints.toList (List.cons_ne_nil waypoints.first waypoints.rest)

theorem GuardWalk.Traced.stretch_eq_take {waypoints : Waypoints} {events : List PathEvent} {walk : GuardWalk}
    (traced : GuardWalk.Traced waypoints events walk) :
    stretch .waypoints walk.itinerary.legs =
      waypoints.endless.take (stretch .waypoints walk.itinerary.legs).length :=
  Foundation.stretch_eq_take _ traced.inTurn fun leg member patrols => (traced.written leg member).patrol patrols

/-- Whatever calls come, in whatever order, and however many paths are empty: the guard never takes the
    front of an empty path, what is left of its path is the end of the waypoints or of a path that a call
    wrote, and no call erases more than one point.  Since it last took up its waypoints it has
    reached them in order, over and over; so it has from the start if nothing ever diverted it. -/
theorem guard_keeps_to_its_path (normalize : Normalization) (waypoints : Waypoints) (events : List PathEvent) :
    ∃ walk, GuardWalk.runAll normalize waypoints events = some walk ∧
      walk.guard = run (Guard.pathStep normalize) (.create waypoints) events ∧
      (walk.guard.path <:+ waypoints.toList ∨
        ∃ event ∈ events, ∃ source points, event.Writes source points ∧ walk.guard.path <:+ points) ∧
      (∀ event, ∃ next, walk.step normalize event = some next ∧
        walk.itinerary.AdvancesOnce next.itinerary ∧
        (next.itinerary.reached = walk.itinerary.reached ∨
          ∃ point, next.itinerary.reached = walk.itinerary.reached ++ [point])) ∧
      stretch .waypoints walk.itinerary.legs =
        waypoints.endless.take (stretch .waypoints walk.itinerary.legs).length ∧
      (Meets (Guard.pathStep normalize) Guard.Undiverted (.create waypoints) events →
        walk.itinerary.reached = waypoints.endless.take walk.itinerary.reached.length) := by
  have listed : Meets (Guard.pathStep normalize) (fun _ event => event ∈ events) (.create waypoints) events :=
    meets_of_forall _ fun _ member => member
  obtain ⟨walk, ran, sameGuard, traced⟩ := listed.run_checked GuardWalk.guard (GuardWalk.Traced waypoints events)
    (fun walk event traced member => by
      obtain ⟨next, stepped, sameGuard, -⟩ := walk.step_spec normalize event
      exact ⟨next, stepped, sameGuard, traced.step member stepped⟩)
    (GuardWalk.create_traced waypoints events)
  refine ⟨walk, ran, sameGuard, traced.suffix, fun event => ?_, traced.stretch_eq_take, fun undiverted => ?_⟩
  · obtain ⟨next, stepped, -, advances⟩ := walk.step_spec normalize event
    exact ⟨next, stepped, advances, advances.reached⟩
  · obtain ⟨onlyWalk, onlyRan, -, onPatrol⟩ := undiverted.run_checked GuardWalk.guard GuardWalk.OnPatrol
      (fun walk event onPatrol undiverted => by
        obtain ⟨next, stepped, sameGuard, -⟩ := walk.step_spec normalize event
        exact ⟨next, stepped, sameGuard, onPatrol.step undiverted stepped⟩)
      (GuardWalk.create_onPatrol waypoints)
    obtain rfl : onlyWalk = walk := Option.some_inj.mp (onlyRan.symm.trans ran)
    rw [← stretch_eq_reached onPatrol.rounds]
    exact traced.stretch_eq_take

open PatrolExamples in
-- The second update comes between the two waypoints and reaches none.
example : (GuardWalk.runAll .alongAxes patrol
    ([frame false, .moved ⟨2, 0, 0⟩ .zero, frame false, .moved ⟨5, 0, 0⟩ .zero, frame false,
      .moved ⟨0, 0, 0⟩ .zero, frame false].map .guard)).map (·.itinerary.reached) =
    some [⟨0, 0, 0⟩, ⟨5, 0, 0⟩, ⟨0, 0, 0⟩] := by
  decide +kernel

end SneakySneaky
