import Mathlib.Algebra.Group.Basic
import Mathlib.Algebra.Order.Monoid.Unbundled.Basic
import Mathlib.Data.List.Basic

/-! # Runs of a state machine

A machine is a step function on states and events.  `run` takes the events of a list in
order; `record` also keeps every event with the output of its step, newest first.  The
rules below reduce a property of every run to a property of one step. -/

namespace SneakySneaky.Foundation

variable {σ ε ω σ' ε' ω' : Type*}

/-! ## Plain runs -/

def run (step : σ → ε → σ) (start : σ) (events : List ε) : σ := events.foldl step start

section Run

variable {step : σ → ε → σ}

@[simp] theorem run_nil (start : σ) : run step start [] = start := rfl

@[simp] theorem run_cons (start : σ) (event : ε) (events : List ε) :
    run step start (event :: events) = run step (step start event) events := rfl

@[simp] theorem run_append (start : σ) (first second : List ε) :
    run step start (first ++ second) = run step (run step start first) second := List.foldl_append

/-- Two machines that a relation follows step by step are followed through every run. -/
theorem run_relates {step' : σ' → ε → σ'} (related : σ → σ' → Prop)
    (keeps : ∀ state state' event, related state state' → related (step state event) (step' state' event))
    {start : σ} {start' : σ'} (initially : related start start') (events : List ε) :
    related (run step start events) (run step' start' events) := by
  induction events generalizing start start' with
  | nil => exact initially
  | cons event events inductionHypothesis => exact inductionHypothesis (keeps start start' event initially)

/-- What a machine shows of its states runs by itself if every step does. -/
theorem run_view {step' : σ' → ε → σ'} (view : σ → σ')
    (shows : ∀ state event, view (step state event) = step' (view state) event) (start : σ) (events : List ε) :
    view (run step start events) = run step' (view start) events := by
  apply run_relates (fun state state' => view state = state')
  · intro state state' event same
    rw [shows, same]
  · rfl

/-- A goal is near by so many rounds, and every round that does not begin there comes nearer: then it is reached
    within as many. -/
theorem run_reaches {rounds : ℕ → List ε} (goal : σ → Prop) (near : ℕ → σ → Prop)
    (arrives : ∀ state, near 0 state → goal state)
    (nearer : ∀ index left state, near (left + 1) state → goal state ∨ near left (run step state (rounds index)))
    {start : σ} {bound : ℕ} (initially : near bound start) :
    ∃ count ≤ bound, goal (run step start ((List.range count).flatMap rounds)) := by
  -- After any number of rounds the goal was reached before, or as many fewer are left.
  have sofar : ∀ count ≤ bound, (∃ earlier ≤ count, goal (run step start ((List.range earlier).flatMap rounds))) ∨
      near (bound - count) (run step start ((List.range count).flatMap rounds)) := by
    intro count
    induction count with
    | zero => exact fun _ => .inr initially
    | succ count inductionHypothesis =>
      intro below
      have left : bound - count = bound - (count + 1) + 1 := by omega
      rcases inductionHypothesis (by omega) with ⟨earlier, before, reached⟩ | close
      · exact .inl ⟨earlier, by omega, reached⟩
      · rw [left] at close
        rcases nearer count _ _ close with reached | closer
        · exact .inl ⟨count, by omega, reached⟩
        · rw [List.range_succ, List.flatMap_append, run_append, List.flatMap_singleton]
          exact .inr closer
  rcases sofar bound (Nat.le_refl bound) with reached | close
  · exact reached
  · rw [Nat.sub_self] at close
    exact ⟨bound, Nat.le_refl bound, arrives _ close⟩

/-- A machine that only skips some events runs on the others. -/
theorem run_filterMap (accepts : ε' → Option ε) (start : σ) (events : List ε') :
    run (fun state event => (accepts event).elim state (step state)) start events =
      run step start (events.filterMap accepts) := by
  induction events generalizing start with
  | nil => rfl
  | cons event events inductionHypothesis =>
    rw [run_cons, inductionHypothesis, List.filterMap_cons]
    cases accepts event with
    | none => rfl
    | some accepted => rfl

/-- Machines side by side run each by itself. -/
theorem run_map (start : List σ) (events : List ε) :
    run (fun states event => states.map (step · event)) start events = start.map (run step · events) := by
  induction events generalizing start with
  | nil => exact (List.map_id start).symm
  | cons event events inductionHypothesis =>
    rw [run_cons, inductionHypothesis, List.map_map]
    rfl

/-- What part of a machine is told of the events of a run, in order. -/
def projection (step : σ → ε → σ) (accepts : σ → ε → Option ε') : σ → List ε → List ε'
  | _, [] => []
  | start, event :: events => (accepts start event).toList ++ projection step accepts (step start event) events

theorem projection_append (accepts : σ → ε → Option ε') (start : σ) (first second : List ε) :
    projection step accepts start (first ++ second) =
      projection step accepts start first ++ projection step accepts (run step start first) second := by
  induction first generalizing start with
  | nil => rfl
  | cons event first inductionHypothesis =>
    rw [List.cons_append, projection, projection, inductionHypothesis, run_cons, List.append_assoc]

/-- A part that changes only by the events it is told of runs on these alone. -/
theorem run_projection {step' : σ' → ε' → σ'} {accepts : σ → ε → Option ε'} (view : σ → σ')
    (shows : ∀ state event, view (step state event) = (accepts state event).elim (view state) (step' (view state)))
    (start : σ) (events : List ε) :
    view (run step start events) = run step' (view start) (projection step accepts start events) := by
  induction events generalizing start with
  | nil => rfl
  | cons event events inductionHypothesis =>
    rw [run_cons, inductionHypothesis, shows, projection, run_append]
    cases accepts start event with
    | none => rfl
    | some accepted => rfl

/-- A part that only remembers the last event. -/
theorem run_last (start : σ) (events : List σ) : run (fun _ event => event) start events = events.getLastD start := by
  induction events generalizing start with
  | nil => rfl
  | cons event events inductionHypothesis => rw [run_cons, inductionHypothesis, List.getLastD_cons]

/-- A part that writes down every event, newest first. -/
theorem run_written (write : ε → ε') (start : List ε') (events : List ε) :
    run (fun written event => write event :: written) start events = (events.map write).reverse ++ start := by
  induction events generalizing start with
  | nil => rfl
  | cons event events inductionHypothesis =>
    rw [run_cons, inductionHypothesis, List.map_cons, List.reverse_cons, List.append_assoc, List.singleton_append]

/-- Each event of a projection was accepted somewhere in the run. -/
theorem mem_projection {accepts : σ → ε → Option ε'} {start : σ} {events : List ε} {accepted : ε'}
    (member : accepted ∈ projection step accepts start events) :
    ∃ before event, before ++ [event] <+: events ∧ accepts (run step start before) event = some accepted := by
  induction events generalizing start with
  | nil => cases member
  | cons event events inductionHypothesis =>
    rw [projection, List.mem_append, Option.mem_toList] at member
    cases member with
    | inl first => exact ⟨[], event, List.prefix_append [event] events, first⟩
    | inr later =>
      obtain ⟨before, found, isPrefix, accepts⟩ := inductionHypothesis later
      exact ⟨event :: before, found, (List.prefix_cons_inj event).mpr isPrefix, accepts⟩

/-- Every step of the run is taken from a state, and on an event, that `allowed` accepts. -/
def Meets (step : σ → ε → σ) (allowed : σ → ε → Prop) : σ → List ε → Prop
  | _, [] => True
  | start, event :: events => allowed start event ∧ Meets step allowed (step start event) events

instance Meets.decidable {allowed : σ → ε → Prop} [∀ state event, Decidable (allowed state event)] :
    ∀ (start : σ) (events : List ε), Decidable (Meets step allowed start events)
  | _, [] => inferInstanceAs (Decidable True)
  | start, event :: events =>
    have : Decidable (Meets step allowed (step start event) events) := Meets.decidable (step start event) events
    inferInstanceAs (Decidable (allowed start event ∧ Meets step allowed (step start event) events))

theorem meets_append {allowed : σ → ε → Prop} {start : σ} {first second : List ε} :
    Meets step allowed start (first ++ second) ↔
      Meets step allowed start first ∧ Meets step allowed (run step start first) second := by
  induction first generalizing start with
  | nil => simp [Meets]
  | cons event events inductionHypothesis =>
    simp only [List.cons_append, Meets, run_cons, inductionHypothesis, and_assoc]

/-- A condition on the events alone. -/
theorem meets_of_forall {allowed : ε → Prop} (start : σ) {events : List ε}
    (permitted : ∀ event ∈ events, allowed event) :
    Meets step (fun _ event => allowed event) start events := by
  induction events generalizing start with
  | nil => trivial
  | cons event events inductionHypothesis =>
    obtain ⟨first, rest⟩ := List.forall_mem_cons.mp permitted
    exact ⟨first, inductionHypothesis (step start event) rest⟩

/-- A condition on every step is one on every beginning of the run. -/
theorem meets_iff_forall_reached {allowed : σ → ε → Prop} {start : σ} {events : List ε} :
    Meets step allowed start events ↔
      ∀ before event, before ++ [event] <+: events → allowed (run step start before) event := by
  induction events generalizing start with
  | nil => simp [Meets]
  | cons first events inductionHypothesis =>
    rw [Meets, inductionHypothesis]
    constructor
    · rintro ⟨now, later⟩ before event isPrefix
      cases before with
      | nil =>
        obtain rfl := (List.cons_prefix_cons.mp isPrefix).1
        exact now
      | cons head before =>
        obtain ⟨rfl, rest⟩ := List.cons_prefix_cons.mp isPrefix
        exact later before event rest
    · intro every
      exact ⟨every [] first (List.prefix_append [first] events), fun before event isPrefix =>
        every (first :: before) event (List.cons_prefix_cons.mpr ⟨rfl, isPrefix⟩)⟩

/-- The steps of a run are taken where its beginnings end. -/
theorem Meets.occurs {allowed : σ → ε → Prop} {start : σ} {events : List ε}
    (meets : Meets step allowed start events) :
    Meets step (fun state event => allowed state event ∧
      ∃ before, before ++ [event] <+: events ∧ run step start before = state) start events :=
  meets_iff_forall_reached.mpr fun before event isPrefix =>
    ⟨meets_iff_forall_reached.mp meets before event isPrefix, before, isPrefix, rfl⟩

/-- An invariant of every allowed step is an invariant of every run of allowed steps. -/
theorem Meets.invariant {allowed : σ → ε → Prop} (holds : σ → Prop)
    (keeps : ∀ state event, holds state → allowed state event → holds (step state event))
    {start : σ} {events : List ε} (meets : Meets step allowed start events) (initially : holds start) :
    holds (run step start events) := by
  induction events generalizing start with
  | nil => exact initially
  | cons event events inductionHypothesis =>
    exact inductionHypothesis meets.2 (keeps start event initially meets.1)

theorem run_invariant (holds : σ → Prop)
    (keeps : ∀ state event, holds state → holds (step state event))
    {start : σ} (initially : holds start) (events : List ε) : holds (run step start events) := by
  induction events generalizing start with
  | nil => exact initially
  | cons event events inductionHypothesis => exact inductionHypothesis (keeps start event initially)

/-- Two conditions that agree wherever an invariant of the allowed steps holds are met by the same
    runs. -/
theorem meets_congr_of_allowed {allowed allowed' : σ → ε → Prop} (permitted : ε → Prop) (holds : σ → Prop)
    (keeps : ∀ state event, permitted event → holds state → allowed state event → holds (step state event))
    (same : ∀ state event, permitted event → holds state → (allowed state event ↔ allowed' state event))
    {start : σ} {events : List ε} (initially : holds start) (permits : ∀ event ∈ events, permitted event) :
    Meets step allowed start events ↔ Meets step allowed' start events := by
  induction events generalizing start with
  | nil => exact Iff.rfl
  | cons event events inductionHypothesis =>
    have first := permits event List.mem_cons_self
    have agree := same start event first initially
    have rest : allowed start event → (Meets step allowed (step start event) events ↔
        Meets step allowed' (step start event) events) := fun taken =>
      inductionHypothesis (keeps start event first initially taken)
        fun later member => permits later (List.mem_cons_of_mem _ member)
    constructor
    · intro meets
      exact ⟨agree.mp meets.1, (rest meets.1).mp meets.2⟩
    · intro meets
      exact ⟨agree.mpr meets.1, (rest (agree.mpr meets.1)).mpr meets.2⟩

/-- Two conditions that agree wherever an invariant holds are met by the same runs. -/
theorem meets_congr {allowed allowed' : σ → ε → Prop} (permitted : ε → Prop) (holds : σ → Prop)
    (keeps : ∀ state event, permitted event → holds state → holds (step state event))
    (same : ∀ state event, permitted event → holds state → (allowed state event ↔ allowed' state event))
    {start : σ} {events : List ε} (initially : holds start) (permits : ∀ event ∈ events, permitted event) :
    Meets step allowed start events ↔ Meets step allowed' start events :=
  meets_congr_of_allowed permitted holds (fun state event first holdsNow _ => keeps state event first holdsNow)
    same initially permits

/-! ## Checked runs -/

/-- A machine with checks runs like the machine without them if no allowed step from where an
    invariant holds fails its checks. -/
theorem Meets.run_checked {checked : σ' → ε → Option σ'} (view : σ' → σ) (holds : σ' → Prop)
    {allowed : σ → ε → Prop}
    (passes : ∀ state event, holds state → allowed (view state) event →
      ∃ next, checked state event = some next ∧ view next = step (view state) event ∧ holds next)
    {start : σ'} {events : List ε} (meets : Meets step allowed (view start) events) (initially : holds start) :
    ∃ reached, run (fun outcome event => outcome.bind (checked · event)) (some start) events = some reached ∧
      view reached = run step (view start) events ∧ holds reached := by
  induction events generalizing start with
  | nil => exact ⟨start, rfl, rfl, initially⟩
  | cons event events inductionHypothesis =>
    obtain ⟨next, stepped, sameView, holdsNext⟩ := passes start event initially meets.1
    have rest := meets.2
    rw [← sameView] at rest
    obtain ⟨reached, ran, sameRun, holdsReached⟩ := inductionHypothesis rest holdsNext
    refine ⟨reached, ?_, ?_, holdsReached⟩
    · rw [run_cons, Option.bind_some, stepped, ran]
    · rw [sameRun, sameView, run_cons]

/-! ## Tallies -/

/-- The sum of what each step of a run gains. -/
def tally {M : Type*} [AddMonoid M] (step : σ → ε → σ) (gain : σ → ε → M) : σ → List ε → M
  | _, [] => 0
  | start, event :: events => gain start event + tally step gain (step start event) events

theorem tally_append_singleton {M : Type*} [AddMonoid M] (gain : σ → ε → M) (start : σ) (events : List ε) (event : ε) :
    tally step gain start (events ++ [event]) = tally step gain start events + gain (run step start events) event := by
  induction events generalizing start with
  | nil => simp [tally]
  | cons first events inductionHypothesis =>
    rw [List.cons_append, tally, inductionHypothesis, tally, run_cons, add_assoc]

theorem tally_add {M : Type*} [AddCommMonoid M] (gain gain' : σ → ε → M) (start : σ) (events : List ε) :
    tally step (fun state event => gain state event + gain' state event) start events =
      tally step gain start events + tally step gain' start events := by
  induction events generalizing start with
  | nil => exact (add_zero 0).symm
  | cons event events inductionHypothesis => rw [tally, inductionHypothesis, tally, tally, add_add_add_comm]

/-- The tally of what a projection takes. -/
theorem sum_projection {M : Type*} [AddMonoid M] (accepts : σ → ε → Option ε') (weight : ε' → M) (start : σ)
    (events : List ε) :
    ((projection step accepts start events).map weight).sum =
      tally step (fun state event => (accepts state event).elim 0 weight) start events := by
  induction events generalizing start with
  | nil => rfl
  | cons event events inductionHypothesis =>
    rw [projection, List.map_append, List.sum_append, inductionHypothesis, tally]
    cases accepts start event with
    | none => rfl
    | some accepted => simp

/-- A value has grown by the tally at every point of a run just when every step adds its gain. -/
theorem tally_iff_meets {M : Type*} [AddGroup M] (value : σ → M) (gain : σ → ε → M) (start : σ) (events : List ε) :
    (∀ before, before <+: events → value (run step start before) = value start + tally step gain start before) ↔
      Meets step (fun state event => value (step state event) = value state + gain state event) start events := by
  induction events generalizing start with
  | nil =>
    refine ⟨fun _ => trivial, fun _ before isPrefix => ?_⟩
    rw [List.prefix_nil.mp isPrefix]
    exact (add_zero _).symm
  | cons event events inductionHypothesis =>
    constructor
    · intro grows
      have first : value (step start event) = value start + gain start event := by
        simpa [tally] using grows [event] (List.prefix_append [event] events)
      refine ⟨first, (inductionHypothesis (step start event)).mp fun before isPrefix => ?_⟩
      rw [first, add_assoc]
      exact grows (event :: before) ((List.prefix_cons_inj event).mpr isPrefix)
    · rintro ⟨first, rest⟩ before isPrefix
      cases before with
      | nil => exact (add_zero _).symm
      | cons head before =>
        obtain ⟨rfl, later⟩ := List.cons_prefix_cons.mp isPrefix
        rw [run_cons, (inductionHypothesis (step start head)).mpr rest before later, first, tally, add_assoc]

/-- A value grows by the tally if every step from where an invariant holds adds its gain. -/
theorem run_eq_add_tally {M : Type*} [AddMonoid M] (value : σ → M) (gain : σ → ε → M) (holds : σ → Prop)
    (keeps : ∀ state event, holds state → holds (step state event))
    (grows : ∀ state event, holds state → value (step state event) = value state + gain state event)
    {start : σ} (initially : holds start) (events : List ε) :
    value (run step start events) = value start + tally step gain start events := by
  induction events generalizing start with
  | nil => exact (add_zero _).symm
  | cons event events inductionHypothesis =>
    rw [run_cons, inductionHypothesis (keeps start event initially), grows start event initially, tally, add_assoc]

/-- It grows by no more than the tally if no step adds more. -/
theorem run_le_add_tally {M : Type*} [AddMonoid M] [Preorder M] [AddRightMono M] (value : σ → M)
    (gain : σ → ε → M) (holds : σ → Prop) (keeps : ∀ state event, holds state → holds (step state event))
    (grows : ∀ state event, holds state → value (step state event) ≤ value state + gain state event)
    {start : σ} (initially : holds start) (events : List ε) :
    value (run step start events) ≤ value start + tally step gain start events := by
  induction events generalizing start with
  | nil => exact (add_zero _).ge
  | cons event events inductionHypothesis =>
    calc value (run step start (event :: events))
        ≤ value (step start event) + tally step gain (step start event) events :=
          inductionHypothesis (keeps start event initially)
      _ ≤ value start + gain start event + tally step gain (step start event) events :=
          add_le_add_left (grows start event initially) _
      _ = value start + tally step gain start (event :: events) := by rw [tally, add_assoc]

end Run

/-! ## Properties that last as long as a counter stands still -/

/-- The counter has passed a bound, or the property holds. -/
structure Until (counter : σ → ℕ) (holds : σ → Prop) (bound : ℕ) (state : σ) : Prop where
  le : bound ≤ counter state
  holds : counter state = bound → holds state

theorem Until.start {counter : σ → ℕ} {holds : σ → Prop} {state : σ} (holdsNow : holds state) :
    Until counter holds (counter state) state :=
  ⟨Nat.le_refl _, fun _ => holdsNow⟩

theorem Until.next {counter : σ → ℕ} {holds : σ → Prop} {bound : ℕ} {state state' : σ}
    (lasts : Until counter holds bound state) (more : counter state ≤ counter state')
    (keeps : counter state' = counter state → holds state → holds state') : Until counter holds bound state' := by
  refine ⟨Nat.le_trans lasts.le more, fun still => ?_⟩
  -- The counter only grows, so if it is still at the bound it was there before the step.
  have same : counter state = bound := Nat.le_antisymm (still ▸ more) lasts.le
  exact keeps (still.trans same.symm) (lasts.holds same)

/-! ## Recorded runs -/

/-- A machine with outputs, recording each event with the output of its step, newest first. -/
def recordStep (step : σ → ε → σ × ω) (state : σ × List (ε × ω)) (event : ε) :
    σ × List (ε × ω) :=
  let (next, output) := step state.1 event
  (next, (event, output) :: state.2)

def record (step : σ → ε → σ × ω) (start : σ) (events : List ε) : σ × List (ε × ω) :=
  run (recordStep step) (start, []) events

/-- A property of a state and its record holds at the end of every run whose steps keep it. -/
theorem record_invariant (step : σ → ε → σ × ω) (allowed : ε → Prop) (holds : σ → List (ε × ω) → Prop)
    (keeps : ∀ state past event, holds state past → allowed event →
      holds (step state event).1 ((event, (step state event).2) :: past))
    (start : σ) (initially : holds start []) {events : List ε} (permitted : ∀ event ∈ events, allowed event) :
    holds (record step start events).1 (record step start events).2 := by
  -- Generalised over the record so far, which the induction extends.
  suffices general : ∀ state : σ × List (ε × ω), holds state.1 state.2 →
      holds (run (recordStep step) state events).1 (run (recordStep step) state events).2 from
    general (start, []) initially
  induction events with
  | nil => intro state holdsNow; exact holdsNow
  | cons event events inductionHypothesis =>
    intro state holdsNow
    refine inductionHypothesis (fun later member => permitted later (List.mem_cons_of_mem _ member)) _ ?_
    exact keeps state.1 state.2 event holdsNow (permitted event List.mem_cons_self)

/-- Some entry of a record fits those before it. -/
def Happened (fits : α → List α → Prop) (past : List α) : Prop :=
  ∃ later entry earlier, past = later ++ entry :: earlier ∧ fits entry earlier

theorem not_happened_nil (fits : α → List α → Prop) : ¬ Happened fits [] := by
  rintro ⟨later, entry, earlier, empty, -⟩
  exact List.append_ne_nil_of_right_ne_nil later (List.cons_ne_nil entry earlier) empty.symm

theorem happened_cons {fits : α → List α → Prop} {newest : α} {past : List α} :
    Happened fits (newest :: past) ↔ Happened fits past ∨ fits newest past := by
  constructor
  · rintro ⟨later, entry, earlier, split, fitting⟩
    cases later with
    | nil =>
      obtain ⟨rfl, rfl⟩ := List.cons.inj split
      exact .inr fitting
    | cons latest later =>
      obtain ⟨-, rfl⟩ := List.cons.inj split
      exact .inl ⟨later, entry, earlier, rfl, fitting⟩
  · rintro (⟨later, entry, earlier, rfl, fitting⟩ | fitting)
    · exact ⟨newest :: later, entry, earlier, rfl, fitting⟩
    · exact ⟨[], newest, past, rfl, fitting⟩

/-- If every step of one machine is, seen through an abstraction, a step of another, then so is
    every recorded run. -/
theorem record_simulates {step : σ → ε → σ × ω} {step' : σ' → ε' → σ' × ω'} (state : σ → σ')
    (event : ε → ε') (output : ω → ω')
    (simulates : ∀ s e, step' (state s) (event e) = (state (step s e).1, output (step s e).2))
    (start : σ) (events : List ε) :
    record step' (state start) (events.map event) =
      (state (record step start events).1, (record step start events).2.map (Prod.map event output)) := by
  suffices general : ∀ (s : σ) (past : List (ε × ω)),
      run (recordStep step') (state s, past.map (Prod.map event output)) (events.map event) =
        (state (run (recordStep step) (s, past) events).1,
          (run (recordStep step) (s, past) events).2.map (Prod.map event output)) from
    general start []
  induction events with
  | nil => intro s past; rfl
  | cons head events inductionHypothesis =>
    intro s past
    have next := inductionHypothesis (step s head).1 ((head, (step s head).2) :: past)
    simpa [recordStep, simulates] using next

end SneakySneaky.Foundation
