import SneakySneaky.GuardPatrol

/-! # `Guard`: the way back to the patrol

A guard that leaves its waypoints to follow the player or to look for a sound raises a flag,
and a guard whose flag is up looks for a way to its first waypoint before it takes the
waypoints up again.  A laser or a camera replaces the path and leaves the flag alone: with
the flag down the guard goes back from there in a straight line. -/

namespace SneakySneaky

open SneakySneaky.Foundation

/-! ## Leading home -/

/-- The points lead to the first waypoint: they are the waypoints, or what `FindPath` gave at one of the updates
    from where the guard then was to the first waypoint, its start erased. -/
inductive LeadsHome (normalize : Normalization) (waypoints : Waypoints) (events : List PathEvent) :
    List Vector3 → Prop where
  | waypoints : LeadsHome normalize waypoints events waypoints.toList
  | found (before : List PathEvent) (navMesh : NavigationMesh) (personPosition : Vector3) (timeStep : ℚ)
      (playerDetected : Bool)
      (update : before ++ [.guard (.update navMesh personPosition timeStep playerDetected)] <+: events) :
    LeadsHome normalize waypoints events
      (navMesh.findPath (run (Guard.pathStep normalize) (.create waypoints) before).position
        waypoints.first).tail

/-- A path that was written for the patrol or for the way back to it, and whose points lead there. -/
structure Homeward (normalize : Normalization) (waypoints : Waypoints) (events : List PathEvent)
    (source : PathSource) (points : List Vector3) : Prop where
  purpose : source = .waypoints ∨ source = .home
  leads : LeadsHome normalize waypoints events points

/-- Every path is the waypoints or was written by a call, and the waypoints are taken up only when a path that
    leads to the first of them is used up. -/
structure ReturnsByRoute (normalize : Normalization) (waypoints : Waypoints) (events : List PathEvent)
    (walk : GuardWalk) : Prop where
  written : ∀ leg ∈ walk.itinerary.legs, GuardWalk.Written waypoints events leg
  usedUp : walk.itinerary.legs.IsChain fun later earlier => later.source = .waypoints → earlier.left = []
  returns : walk.itinerary.legs.IsChain fun later earlier =>
    later.source = .waypoints → Homeward normalize waypoints events earlier.source earlier.points

/-- Lasers and cameras alert the guard only while its flag is set. -/
def Guard.AlertedOffRoute (guard : Guard) : PathEvent → Prop
  | .guard (.alerted _ _) | .setPath _ => guard.wasFollowingPlayer = true
  | .guard (.moved _ _) | .guard (.heardSound _) | .guard (.update _ _ _ _) => True

instance (guard : Guard) : ∀ event, Decidable (guard.AlertedOffRoute event)
  | .guard (.alerted _ _) | .setPath _ => inferInstanceAs (Decidable (guard.wasFollowingPlayer = true))
  | .guard (.moved _ _) | .guard (.heardSound _) | .guard (.update _ _ _ _) => inferInstanceAs (Decidable True)

namespace Guard

@[simp] theorem hear_position (guard : Guard) (navMesh : NavigationMesh) :
    (guard.hear navMesh).position = guard.position := by
  rw [hear]
  split
  · rfl
  · rfl

@[simp] theorem hear_waypoints (guard : Guard) (navMesh : NavigationMesh) :
    (guard.hear navMesh).waypoints = guard.waypoints := by
  rw [hear]
  split
  · rfl
  · rfl

@[simp] theorem returnHome_waypoints (guard : Guard) (navMesh : NavigationMesh) :
    (guard.returnHome navMesh).waypoints = guard.waypoints := by
  rw [returnHome]
  split
  · rfl
  · rfl

/-- A guard that has been sent home has its flag cleared, and one whose path is still not used up
    keeps it. -/
theorem returnHome_unflagged (guard : Guard) (navMesh : NavigationMesh)
    (empty : (guard.returnHome navMesh).path.isEmpty = true) :
    (guard.returnHome navMesh).wasFollowingPlayer = false := by
  simp only [returnHome] at empty ⊢
  split
  · rfl
  · rename_i stays
    rw [if_neg stays] at empty
    simpa [empty] using stays

end Guard

/-! ## The flag -/

namespace GuardWalk

/-- The guard knows when it is off its route: the flag is set unless the path leads home. -/
structure Routed (homeward : PathSource → List Vector3 → Prop) (walk : GuardWalk) : Prop where
  returns : walk.itinerary.legs.IsChain fun later earlier =>
    later.source = .waypoints → homeward earlier.source earlier.points
  flagged : walk.guard.wasFollowingPlayer = true ∨
    homeward walk.itinerary.current.source walk.itinerary.current.points

section Routed

variable {homeward : PathSource → List Vector3 → Prop} {walk : GuardWalk}

theorem create_routed {waypoints : Waypoints} (patrol : homeward .waypoints waypoints.toList) :
    Routed homeward (create waypoints) :=
  ⟨List.isChain_singleton _, .inr patrol⟩

theorem Routed.keep (routed : Routed homeward walk) {guard : Guard} (same : guard.path = walk.guard.path)
    (sameFlag : guard.wasFollowingPlayer = walk.guard.wasFollowingPlayer) :
    Routed homeward (walk.keep guard same) :=
  ⟨routed.returns, routed.flagged.imp_left sameFlag.trans⟩

theorem Routed.arrive (routed : Routed homeward walk) {guard : Guard} (erased : guard.path = walk.guard.path.tail)
    (sameFlag : guard.wasFollowingPlayer = walk.guard.wasFollowingPlayer) :
    Routed homeward (walk.arrive guard erased) := by
  obtain ⟨home, earlierReturns⟩ := List.isChain_cons.mp routed.returns
  constructor
  · have sameSource := Leg.advance_source walk.itinerary.current
    exact List.isChain_cons.mpr ⟨fun earlier newest isWaypoints =>
      home earlier newest (sameSource.symm.trans isWaypoints), earlierReturns⟩
  · refine routed.flagged.imp sameFlag.trans fun leads => ?_
    show homeward walk.itinerary.current.advance.source walk.itinerary.current.advance.points
    rwa [Leg.points_advance, Leg.advance_source]

/-- A path other than the waypoints, which leads home unless the flag is set. -/
theorem Routed.divert (routed : Routed homeward walk) {guard : Guard} {source : PathSource}
    (diverts : source ≠ .waypoints) (flagged : guard.wasFollowingPlayer = true ∨ homeward source guard.path) :
    Routed homeward (walk.rewrite guard source) :=
  ⟨List.isChain_cons.mpr ⟨fun _ _ isWaypoints => absurd isWaypoints diverts, routed.returns⟩, flagged⟩

theorem Routed.headFor (routed : Routed homeward walk) {next : GuardWalk} {normalize : Normalization}
    {speed : ℚ} {arrives : ℚ → Bool} (headed : walk.headFor normalize speed arrives = some next) :
    Routed homeward next := by
  cases headFor_cases headed with
  | inl arrived =>
    obtain ⟨erased, rfl⟩ := arrived
    exact routed.arrive erased (Guard.headFor_wasFollowingPlayer _ _ _ _)
  | inr underWay =>
    obtain ⟨same, rfl⟩ := underWay
    exact routed.keep same (Guard.headFor_wasFollowingPlayer _ _ _ _)

theorem Routed.followPlayer (routed : Routed homeward walk) {next : GuardWalk} {normalize : Normalization}
    {navMesh : NavigationMesh} {personPosition : Vector3} {timeStep : ℚ}
    (followed : walk.followPlayer normalize navMesh personPosition timeStep = some next) :
    Routed homeward next := by
  have pursues : Routed homeward (walk.rewrite (walk.guard.pursue navMesh personPosition) .player) :=
    routed.divert (by simp) (.inl rfl)
  rw [GuardWalk.followPlayer] at followed
  split at followed
  · obtain rfl := Option.some_inj.mp followed
    exact pursues.keep _ rfl
  · exact pursues.headFor followed

theorem Routed.hear (routed : Routed homeward walk) (navMesh : NavigationMesh) :
    Routed homeward (walk.hear navMesh) := by
  rw [GuardWalk.hear]
  split
  · rename_i hears
    exact routed.divert (by simp) (.inl (by rw [Guard.hear, if_pos hears]))
  · exact routed

theorem Routed.returnHome (routed : Routed homeward walk) {navMesh : NavigationMesh}
    (found : homeward .home (navMesh.findPath walk.guard.position walk.guard.waypoints.first).tail) :
    Routed homeward (walk.returnHome navMesh) := by
  rw [GuardWalk.returnHome]
  split
  · rename_i returns
    refine routed.divert (by simp) (.inr ?_)
    rw [Guard.returnHome, if_pos returns]
    exact found
  · exact routed

theorem Routed.refill (routed : Routed homeward walk) (patrol : homeward .waypoints walk.guard.waypoints.toList)
    (unflagged : walk.guard.path.isEmpty = true → walk.guard.wasFollowingPlayer = false) :
    Routed homeward walk.refill := by
  rw [GuardWalk.refill]
  split
  · rename_i empty
    -- The flag says that the path used up led home.
    have usedUp : homeward walk.itinerary.current.source walk.itinerary.current.points :=
      routed.flagged.resolve_left (by simp [unflagged empty])
    refine ⟨List.isChain_cons.mpr ⟨fun earlier newest _ => ?_, routed.returns⟩, .inr ?_⟩
    · obtain rfl := Option.some_inj.mp newest
      exact usedUp
    · show homeward .waypoints walk.guard.refill.path
      rw [Guard.refill, if_pos empty]
      exact patrol
  · exact routed

theorem Routed.update (routed : Routed homeward walk) {next : GuardWalk} {normalize : Normalization}
    {navMesh : NavigationMesh} {personPosition : Vector3} {timeStep : ℚ} {playerDetected : Bool}
    (patrol : homeward .waypoints walk.guard.waypoints.toList)
    (found : homeward .home (navMesh.findPath walk.guard.position walk.guard.waypoints.first).tail)
    (updated : walk.update normalize navMesh personPosition timeStep playerDetected = some next) :
    Routed homeward next := by
  rw [GuardWalk.update] at updated
  split at updated
  · have seen : Routed homeward (walk.keep { walk.guard with hasSeenPlayer := true } rfl) := routed.keep _ rfl
    exact seen.followPlayer updated
  · have sentHome : Routed homeward ((walk.hear navMesh).returnHome navMesh) := by
      refine (routed.hear navMesh).returnHome ?_
      rw [hear_guard, Guard.hear_position, Guard.hear_waypoints]
      exact found
    have sameWaypoints : ((walk.hear navMesh).returnHome navMesh).guard.waypoints = walk.guard.waypoints := by
      rw [returnHome_guard, Guard.returnHome_waypoints, hear_guard, Guard.hear_waypoints]
    refine (sentHome.refill (by rwa [sameWaypoints]) fun empty => ?_).headFor updated
    rw [returnHome_guard] at empty ⊢
    exact Guard.returnHome_unflagged _ navMesh empty

end Routed

/-- A step from where a run has come keeps the flag right, if it raises no alert with the flag down. -/
theorem Routed.step {normalize : Normalization} {waypoints : Waypoints} {events before : List PathEvent}
    {event : PathEvent} {walk : GuardWalk} (routed : Routed (Homeward normalize waypoints events) walk)
    (sameWaypoints : walk.guard.waypoints = waypoints) (allowed : walk.guard.AlertedOffRoute event)
    (isPrefix : before ++ [event] <+: events)
    (reached : run (Guard.pathStep normalize) (.create waypoints) before = walk.guard) {next : GuardWalk}
    (stepped : walk.step normalize event = some next) : Routed (Homeward normalize waypoints events) next := by
  cases event with
  | setPath path =>
    cases stepped
    exact routed.divert (by simp) (.inl allowed)
  | guard event =>
    cases event with
    | moved position velocity | heardSound position =>
      cases stepped
      exact routed.keep _ rfl
    | alerted navMesh personPosition =>
      cases stepped
      exact routed.divert (by simp) (.inl allowed)
    | update navMesh personPosition timeStep playerDetected =>
      have found : Homeward normalize waypoints events .home
          (navMesh.findPath (run (Guard.pathStep normalize) (.create waypoints) before).position waypoints.first).tail :=
        ⟨.inr rfl, .found before navMesh personPosition timeStep playerDetected isPrefix⟩
      rw [reached, ← sameWaypoints] at found
      exact routed.update (sameWaypoints ▸ ⟨.inl rfl, .waypoints⟩) (sameWaypoints ▸ found) stepped

end GuardWalk

/-- If no alert reaches a guard whose flag is unset, it takes its waypoints up again only at the end of the
    waypoints or of a way to the first. -/
theorem guard_returns_by_route (normalize : Normalization) (waypoints : Waypoints) (events : List PathEvent)
    (flagged : Meets (Guard.pathStep normalize) Guard.AlertedOffRoute (.create waypoints) events) :
    ∃ walk, GuardWalk.runAll normalize waypoints events = some walk ∧
      walk.guard = run (Guard.pathStep normalize) (.create waypoints) events ∧
      ReturnsByRoute normalize waypoints events walk := by
  obtain ⟨walk, ran, sameGuard, traced, routed⟩ := flagged.occurs.run_checked GuardWalk.guard
    (fun walk => walk.Traced waypoints events ∧ walk.Routed (Homeward normalize waypoints events))
    (fun walk event ⟨traced, routed⟩ ⟨allowed, before, isPrefix, reached⟩ => by
      obtain ⟨next, stepped, sameGuard, -⟩ := walk.step_spec normalize event
      have member : event ∈ events := isPrefix.subset (List.mem_append_right before List.mem_cons_self)
      exact ⟨next, stepped, sameGuard, traced.step member stepped,
        routed.step traced.waypoints_eq allowed isPrefix reached stepped⟩)
    ⟨GuardWalk.create_traced waypoints events, GuardWalk.create_routed ⟨.inl rfl, .waypoints⟩⟩
  exact ⟨walk, ran, sameGuard, traced.written, traced.inTurn, routed.returns⟩

namespace PatrolExamples

/-- A guard that has been alerted walks to where the player was. -/
def alarm : List PathEvent :=
  [.guard (.alerted openFloor ⟨0, 0, 3⟩), .guard (frame false), .guard (frame false),
    .guard (.moved ⟨0, 0, 3⟩ ⟨0, 0, 1⟩), .guard (frame false)]

/-- A way home over the open floor is one point. -/
theorem alarm_leadsHome {points : List Vector3}
    (leads : LeadsHome .alongAxes patrol (alarm ++ [.guard (frame false)]) points) :
    points = patrol.toList ∨ points.length = 1 := by
  cases leads with
  | waypoints => exact .inl rfl
  | found before navMesh personPosition timeStep playerDetected update =>
    refine .inr ?_
    have member : .guard (.update navMesh personPosition timeStep playerDetected) ∈
        alarm ++ [.guard (frame false)] := update.subset (List.mem_append_right before List.mem_cons_self)
    obtain rfl : navMesh = openFloor := by
      simp only [alarm, frame, List.cons_append, List.nil_append, List.mem_cons, PathEvent.guard.injEq,
        GuardEvent.update.injEq, reduceCtorEq, List.not_mem_nil, false_or, or_false] at member
      rcases member with ⟨rfl, -⟩ | ⟨rfl, -⟩ | ⟨rfl, -⟩ | ⟨rfl, -⟩ <;> rfl
    rfl

end PatrolExamples

open PatrolExamples in
/-- Once there, it takes its waypoints up again across whatever lies between. -/
theorem alerted_guard_cuts_across :
    ∃ walk, GuardWalk.runAll .alongAxes patrol (alarm ++ [.guard (frame false)]) = some walk ∧
      walk.guard.path = patrol.toList ∧ walk.guard.position = ⟨0, 0, 3⟩ ∧
      ¬ ReturnsByRoute .alongAxes patrol (alarm ++ [.guard (frame false)]) walk := by
  obtain ⟨walk, ran⟩ : ∃ walk, GuardWalk.runAll .alongAxes patrol (alarm ++ [.guard (frame false)]) = some walk :=
    Option.isSome_iff_exists.mp (by decide +kernel)
  have seen : (GuardWalk.runAll .alongAxes patrol (alarm ++ [.guard (frame false)])).map (fun walk =>
      (walk.guard.path, walk.guard.position, walk.itinerary.legs.map fun leg => (leg.source, leg.points))) =
      some (patrol.toList, ⟨0, 0, 3⟩, [(.waypoints, patrol.toList), (.alert, [⟨0, 0, 0⟩, ⟨0, 0, 3⟩]),
        (.waypoints, patrol.toList)]) := by
    decide +kernel
  rw [ran, Option.map_some, Option.some_inj, Prod.mk.injEq, Prod.mk.injEq] at seen
  obtain ⟨path, position, legs⟩ := seen
  refine ⟨walk, ran, path, position, fun returns => ?_⟩
  have chain := (List.isChain_map (R := fun later earlier : PathSource × List Vector3 => later.1 = .waypoints →
    Homeward .alongAxes patrol (alarm ++ [.guard (frame false)]) earlier.1 earlier.2)
    fun leg : Leg PathSource Vector3 => (leg.source, leg.points)).mpr returns.returns
  rw [legs] at chain
  have homeward := (List.isChain_cons_cons.mp chain).1 rfl
  exact absurd (alarm_leadsHome homeward.leads) (by decide +kernel)

open PatrolExamples in
/-- A guard that was following the player when the alarm went off takes a route home. -/
theorem guard_returns_by_route_alarm :
    ∃ walk, GuardWalk.runAll .alongAxes patrol (.guard (.moved ⟨0, 0, 0⟩ ⟨1, 0, 0⟩) :: .guard (frame true) ::
        (alarm ++ [.guard (frame false)])) = some walk ∧
      walk.guard = run (Guard.pathStep .alongAxes) (.create patrol) (.guard (.moved ⟨0, 0, 0⟩ ⟨1, 0, 0⟩) ::
        .guard (frame true) :: (alarm ++ [.guard (frame false)])) ∧
      ReturnsByRoute .alongAxes patrol (.guard (.moved ⟨0, 0, 0⟩ ⟨1, 0, 0⟩) :: .guard (frame true) ::
        (alarm ++ [.guard (frame false)])) walk :=
  guard_returns_by_route .alongAxes patrol _ (by decide +kernel)

end SneakySneaky
