import SneakySneaky.Security

/-! # Guards at a post

A guard looks for the player, and turns to a sound, only while it moves.  A guard whose
waypoints are all over one place stands there from the start, and notices nothing. -/

namespace SneakySneaky

open SneakySneaky.Foundation

/-- An update that would find the player if the guard looked. -/
def GuardEvent.Sights : GuardEvent → Prop
  | .update _ _ _ playerDetected => playerDetected = true
  | .moved _ _ | .heardSound _ | .alerted _ _ => False

namespace Guard

/-- The guard has seen the player, or has gone after a sound. -/
def Notices (guard : Guard) : Prop := guard.hasSeenPlayer = true ∨ .sound ∈ guard.sources

/-- No laser or camera alerts the guard, and nothing pushes it while it stands. -/
def LeftAlone (guard : Guard) : GuardEvent → Prop
  | .moved position velocity => guard.velocity = .zero → ¬ position.Apart guard.position ∧ velocity = .zero
  | .alerted _ _ => False
  | .heardSound _ | .update _ _ _ _ => True

theorem moveSpeed_pos : 0 < moveSpeed := one_pos

theorem headFor_velocity {guard : Guard} {next : Vector3} {rest : List Vector3} (path : guard.path = next :: rest)
    (normalize : Normalization) {speed : ℚ} (positive : 0 < speed) (arrives : ℚ → Bool) :
    (guard.headFor normalize speed arrives).velocity = .zero ↔ ¬ next.Apart guard.position := by
  obtain ⟨factor, scales, scaled⟩ := normalize.scales (next - guard.position).horizontal
  have velocity : (guard.headFor normalize speed arrives).velocity =
      (next - guard.position).horizontal * factor * speed := by
    simp only [headFor, path, scaled]
  rw [velocity, Vector3.scaled_eq_zero positive, Vector3.scaled_eq_zero scales, ← horizontal_ne_zero, not_not]

theorem moving_iff {guard : Guard} : guard.moving = true ↔ guard.velocity ≠ .zero := by
  rw [moving, decide_eq_true_eq, Vector3.lengthSquared]
  have x := mul_self_nonneg guard.velocity.x
  have y := mul_self_nonneg guard.velocity.y
  have z := mul_self_nonneg guard.velocity.z
  constructor
  · intro moves stands
    simp [stands, Vector3.zero] at moves
  · intro moves
    by_contra slow
    exact moves (Vector3.ext (mul_self_eq_zero.mp (by linarith)) (mul_self_eq_zero.mp (by linarith))
      (mul_self_eq_zero.mp (by linarith)))

/-! ## Standing -/

/-- A standing guard on its patrol goes on to its path or to the waypoints, whatever there is to see or hear. -/
theorem update_of_standing {guard : Guard} (velocity : guard.velocity = .zero)
    (following : guard.wasFollowingPlayer = false) (normalize : Normalization) (navMesh : NavigationMesh)
    (personPosition : Vector3) (timeStep : ℚ) (playerDetected : Bool) :
    guard.update normalize navMesh personPosition timeStep playerDetected =
      guard.refill.headFor normalize moveSpeed (guard.refill.arrives timeStep) := by
  have standing : guard.moving = false := by
    rw [← Bool.not_eq_true, moving_iff, not_not]
    exact velocity
  have unheard : guard.hear navMesh = guard := by simp [hear, hears, standing]
  have stays : guard.returnHome navMesh = guard := by simp [returnHome, following]
  simp only [update, detects, standing, Bool.false_and, Bool.false_eq_true, if_false, unheard, followWaypoints, stays]

/-- The guard stands where all its waypoints are, and has noticed nothing. -/
structure AtPost (guard : Guard) : Prop where
  waypoints : ∀ point ∈ guard.waypoints.toList, ¬ point.Apart guard.position
  path : ∀ point ∈ guard.path, ¬ point.Apart guard.position
  velocity : guard.velocity = .zero
  following : guard.wasFollowingPlayer = false
  unseen : guard.hasSeenPlayer = false
  unheard : .sound ∉ guard.sources

theorem AtPost.refill {guard : Guard} (atPost : AtPost guard) : AtPost guard.refill := by
  rw [Guard.refill]
  split
  · exact ⟨atPost.waypoints, atPost.waypoints, atPost.velocity, atPost.following, atPost.unseen, by
      simpa using atPost.unheard⟩
  · exact atPost

theorem AtPost.headFor {guard : Guard} (atPost : AtPost guard) (normalize : Normalization) (arrives : ℚ → Bool) :
    AtPost (guard.headFor normalize moveSpeed arrives) := by
  cases path : guard.path with
  | nil =>
    simp only [Guard.headFor, path]
    exact atPost
  | cons next rest =>
    have near : ∀ point ∈ next :: rest, ¬ point.Apart guard.position := path ▸ atPost.path
    have stands := (headFor_velocity path normalize moveSpeed_pos arrives).mpr (near next List.mem_cons_self)
    simp only [Guard.headFor, path] at stands ⊢
    refine ⟨atPost.waypoints, fun point member => ?_, stands, atPost.following, atPost.unseen, atPost.unheard⟩
    dsimp only at member
    split at member
    · exact near point (List.mem_cons_of_mem next member)
    · exact near point member

theorem AtPost.step {guard : Guard} {event : GuardEvent} (atPost : AtPost guard) (leftAlone : LeftAlone guard event)
    (normalize : Normalization) : AtPost (guard.step normalize event) := by
  cases event with
  | moved position velocity =>
    obtain ⟨here, still⟩ := leftAlone atPost.velocity
    have near : ∀ point : Vector3, ¬ point.Apart guard.position → ¬ point.Apart position := by
      intro point
      simp only [Vector3.Apart, not_or, not_not] at here ⊢
      exact fun before => ⟨before.1.trans here.1.symm, before.2.trans here.2.symm⟩
    exact ⟨fun point member => near point (atPost.waypoints point member),
      fun point member => near point (atPost.path point member), still, atPost.following, atPost.unseen,
      atPost.unheard⟩
  | heardSound position =>
    exact ⟨atPost.waypoints, atPost.path, atPost.velocity, atPost.following, atPost.unseen, atPost.unheard⟩
  | alerted navMesh personPosition => exact leftAlone.elim
  | update navMesh personPosition timeStep playerDetected =>
    rw [Guard.step, update_of_standing atPost.velocity atPost.following]
    exact atPost.refill.headFor normalize _

/-! ## Setting out -/

/-- An update of one second. -/
def glance (navMesh : NavigationMesh) (personPosition : Vector3) (playerDetected : Bool) : GuardEvent :=
  .update navMesh personPosition 1 playerDetected

theorem glances_leave_alone (normalize : Normalization) (navMesh : NavigationMesh) (personPosition : Vector3)
    (playerDetected : Bool) (count : ℕ) (guard : Guard) :
    Meets (step normalize) LeftAlone guard (List.replicate count (glance navMesh personPosition playerDetected)) := by
  induction count generalizing guard with
  | zero => trivial
  | succ count inductionHypothesis => exact ⟨trivial, inductionHypothesis _⟩

theorem glance_sees {guard : Guard} (moves : guard.velocity ≠ .zero) (silent : guard.willHearSound = false)
    (normalize : Normalization) (navMesh : NavigationMesh) (personPosition : Vector3) :
    (guard.step normalize (glance navMesh personPosition true)).hasSeenPlayer = true := by
  have detects : guard.detects true = true := by simp [Guard.detects, moving_iff.mpr moves, silent]
  rw [glance, step, update, if_pos detects]
  exact (followPlayer_spec _ normalize navMesh personPosition 1).2.1

theorem glance_hears {guard : Guard} (moves : guard.velocity ≠ .zero) (heard : guard.willHearSound = true)
    (normalize : Normalization) (navMesh : NavigationMesh) (personPosition : Vector3) (playerDetected : Bool) :
    .sound ∈ (guard.step normalize (glance navMesh personPosition playerDetected)).sources := by
  have looksAway : ¬ guard.detects playerDetected = true := by simp [Guard.detects, heard]
  have hears : guard.hears = true := by simp [Guard.hears, moving_iff.mpr moves, heard]
  have turns : .sound ∈ (guard.hear navMesh).sources := by simp [hear, hears]
  -- The way home and the waypoints come on top of it.
  have counted := (followWaypoints_spec (guard.hear navMesh) normalize navMesh 1).1 .sound (by decide) (by decide)
  rw [glance, step, update, if_neg looksAway, ← List.count_pos_iff, counted]
  exact List.count_pos_iff.mpr turns

/-- A guard that stands where its path begins goes through the points there, one an update, until it sets out for
    one elsewhere. -/
theorem glances_set_out {guard : Guard} (velocity : guard.velocity = .zero)
    (following : guard.wasFollowingPlayer = false) (normalize : Normalization) (navMesh : NavigationMesh)
    (personPosition : Vector3) (playerDetected : Bool)
    (elsewhere : ∃ point ∈ guard.path, point.Apart guard.position) :
    ∃ count, ∃ after : Guard, after.velocity ≠ .zero ∧ after.willHearSound = guard.willHearSound ∧
      run (step normalize) guard (List.replicate count (glance navMesh personPosition playerDetected)) = after := by
  generalize points : guard.path = path at elsewhere
  induction path generalizing guard with
  | nil =>
    obtain ⟨point, member, -⟩ := elsewhere
    cases member
  | cons next rest inductionHypothesis =>
    have full : guard.refill = guard := by simp [refill, points]
    have first : guard.step normalize (glance navMesh personPosition playerDetected) =
        guard.headFor normalize moveSpeed (guard.arrives 1) := by
      rw [glance, step, update_of_standing velocity following, full]
    have heads := headFor_velocity points normalize moveSpeed_pos (guard.arrives 1)
    by_cases apart : next.Apart guard.position
    · refine ⟨1, _, fun stands => heads.mp stands apart, headFor_willHearSound guard normalize _ _, ?_⟩
      rw [List.replicate_one, run_cons, run_nil, first]
    · -- The point is here, so the guard is done with it.
      have here : (next - guard.position).horizontal = .zero := by
        rw [← not_ne_iff, horizontal_ne_zero]
        exact apart
      have arrives : guard.arrives 1 (next - guard.position).horizontal.lengthSquared = true := by
        simp [Guard.arrives, here, Vector3.lengthSquared, Vector3.zero, moveSpeed]
      have left : (guard.headFor normalize moveSpeed (guard.arrives 1)).path = rest := by
        simp only [headFor, points, if_pos arrives]
      have still : (guard.headFor normalize moveSpeed (guard.arrives 1)).position = guard.position := by
        simp only [headFor, points]
      have unfollowing : (guard.headFor normalize moveSpeed (guard.arrives 1)).wasFollowingPlayer = false := by
        simp only [headFor, points, following]
      have later : ∃ point ∈ rest, point.Apart guard.position := by
        obtain ⟨point, member, pointApart⟩ := elsewhere
        rcases List.mem_cons.mp member with rfl | member
        · exact absurd pointApart apart
        · exact ⟨point, member, pointApart⟩
      obtain ⟨count, after, moves, silent, result⟩ := inductionHypothesis (heads.mpr apart) unfollowing left
        (by rw [still]; exact later)
      refine ⟨count + 1, after, moves, silent.trans (headFor_willHearSound guard normalize _ _), ?_⟩
      rw [List.replicate_succ, run_cons, first, result]

/-- A guard with a waypoint elsewhere sets out for it, and sees the player in the update after that. -/
theorem create_sees (normalize : Normalization) {waypoints : Waypoints}
    (elsewhere : ∃ point ∈ (create waypoints).path, point.Apart (create waypoints).position) :
    ∃ events, Meets (step normalize) LeftAlone (.create waypoints) events ∧
      (run (step normalize) (.create waypoints) events).hasSeenPlayer = true := by
  let navMesh : NavigationMesh := ⟨fun _ _ => .zero, fun _ _ => []⟩
  obtain ⟨count, after, moves, silent, result⟩ :=
    glances_set_out rfl rfl normalize navMesh .zero true elsewhere
  refine ⟨List.replicate count (glance navMesh .zero true) ++ [glance navMesh .zero true], ?_, ?_⟩
  · exact meets_append.mpr ⟨glances_leave_alone normalize navMesh .zero true count _, trivial, trivial⟩
  · rw [run_append, result]
    exact glance_sees moves silent normalize navMesh .zero

/-- A sound is kept until the guard sets out: it is heard though no update finds the player. -/
theorem create_hears (normalize : Normalization) {waypoints : Waypoints}
    (elsewhere : ∃ point ∈ (create waypoints).path, point.Apart (create waypoints).position) :
    ∃ events, Meets (step normalize) LeftAlone (.create waypoints) events ∧ (∀ event ∈ events, ¬ event.Sights) ∧
      .sound ∈ (run (step normalize) (.create waypoints) events).sources := by
  let navMesh : NavigationMesh := ⟨fun _ _ => .zero, fun _ _ => []⟩
  let listening := (create waypoints).heardSound .zero
  have velocity : listening.velocity = .zero := rfl
  obtain ⟨count, after, moves, heard, result⟩ :=
    glances_set_out velocity rfl normalize navMesh .zero false elsewhere
  have glances : ∀ event ∈ List.replicate count (glance navMesh .zero false), ¬ event.Sights := by
    intro event member
    rw [List.eq_of_mem_replicate member]
    exact Bool.false_ne_true
  refine ⟨.heardSound .zero :: (List.replicate count (glance navMesh .zero false) ++ [glance navMesh .zero false]),
    ⟨trivial, ?_⟩, ?_, ?_⟩
  · exact meets_append.mpr ⟨glances_leave_alone normalize navMesh .zero false count _, trivial, trivial⟩
  · simp only [List.forall_mem_cons, List.forall_mem_append]
    exact ⟨id, glances, Bool.false_ne_true, by simp⟩
  · rw [run_cons, run_append]
    exact result ▸ glance_hears moves heard normalize navMesh .zero false

end Guard

/-- A guard that nothing alerts, and nothing pushes while it stands, can come to notice something just when its
    waypoints are not all over one place; and then it can come to see the player, and to go after a sound without
    there being anything to see. -/
theorem guards_notice_iff (normalize : Normalization) (waypoints : Waypoints) :
    ((∃ events, Meets (Guard.step normalize) Guard.LeftAlone (.create waypoints) events ∧
        (run (Guard.step normalize) (.create waypoints) events).Notices) ↔
      ∃ point ∈ waypoints.rest, point.Apart waypoints.first) ∧
    ((∃ point ∈ waypoints.rest, point.Apart waypoints.first) →
      (∃ events, Meets (Guard.step normalize) Guard.LeftAlone (.create waypoints) events ∧
        (run (Guard.step normalize) (.create waypoints) events).hasSeenPlayer = true) ∧
      ∃ events, Meets (Guard.step normalize) Guard.LeftAlone (.create waypoints) events ∧
        (∀ event ∈ events, ¬ event.Sights) ∧
        .sound ∈ (run (Guard.step normalize) (.create waypoints) events).sources) := by
  have setsOut : (∃ point ∈ waypoints.rest, point.Apart waypoints.first) →
      ∃ point ∈ (Guard.create waypoints).path, point.Apart (Guard.create waypoints).position := by
    rintro ⟨point, member, apart⟩
    exact ⟨point, List.mem_cons_of_mem waypoints.first member, apart⟩
  refine ⟨⟨?_, fun apart => ?_⟩, fun apart => ?_⟩
  · rintro ⟨events, leftAlone, notices⟩
    by_contra! together
    have near : ∀ point ∈ waypoints.toList, ¬ point.Apart waypoints.first := by
      rw [Waypoints.toList, List.forall_mem_cons]
      exact ⟨by simp [Vector3.Apart], together⟩
    have initially : Guard.AtPost (.create waypoints) := ⟨near, near, rfl, rfl, rfl, by simp [Guard.create]⟩
    have atPost : Guard.AtPost (run (Guard.step normalize) (.create waypoints) events) :=
      leftAlone.invariant Guard.AtPost (fun _ _ atPost alone => atPost.step alone normalize) initially
    cases notices with
    | inl seen =>
      rw [atPost.unseen] at seen
      cases seen
    | inr heard => exact atPost.unheard heard
  · obtain ⟨events, leftAlone, -, heard⟩ := Guard.create_hears normalize (setsOut apart)
    exact ⟨events, leftAlone, .inr heard⟩
  · exact ⟨Guard.create_sees normalize (setsOut apart), Guard.create_hears normalize (setsOut apart)⟩

end SneakySneaky
