import Mathlib.Algebra.Order.Floor.Ring
import Mathlib.Algebra.Order.Field.Basic
import Mathlib.Tactic.Linarith
import Mathlib.Tactic.FieldSimp
import Mathlib.Tactic.Ring
import SneakySneaky.Foundation.Runs

/-! # A timer that is set back to zero

A timer first counts a delay down and then beats each time it passes its interval.  At a beat
it is set back to zero and not by its interval, and the step that ends the delay counts for
nothing else: the part of the step beyond the end is lost.  What a run has gained, as beats
and on the timer, and what it has lost add up to the time that has passed.  The beats are as
many as the most groups, each longer than the interval, that the steps after the delay can be
cut into (`exists_groups_of_count`, `groups_length_le_count`). -/

namespace SneakySneaky.Foundation

variable {K : Type*} [Field K] [LinearOrder K]

structure Metronome (K : Type*) where
  delay : K
  time : K
  interval : K

namespace Metronome

/-! ## One step -/

/-- The step makes the timer pass its interval. -/
def beats (metronome : Metronome K) (timeStep : K) : Bool :=
  !decide (0 < metronome.delay) && decide (0 < metronome.interval) &&
    decide (metronome.interval < metronome.time + timeStep)

def step (metronome : Metronome K) (timeStep : K) : Metronome K :=
  if 0 < metronome.delay then { metronome with delay := metronome.delay - timeStep }
  else if 0 < metronome.interval then
    if metronome.interval < metronome.time + timeStep then { metronome with time := 0 }
    else { metronome with time := metronome.time + timeStep }
  else metronome

/-- The part of a step beyond the end of the delay or of the interval. -/
def loss (metronome : Metronome K) (timeStep : K) : K :=
  if 0 < metronome.delay then max (timeStep - metronome.delay) 0
  else if metronome.beats timeStep then metronome.time + timeStep - metronome.interval
  else 0

/-- The time on the timer; negative during the delay. -/
def level (metronome : Metronome K) : K := metronome.time - max metronome.delay 0

variable {metronome : Metronome K} {timeStep : K}

@[simp] theorem step_interval (metronome : Metronome K) (timeStep : K) :
    (metronome.step timeStep).interval = metronome.interval := by
  simp only [step]
  split
  · rfl
  · split
    · split <;> rfl
    · rfl

theorem step_eta (metronome : Metronome K) (timeStep : K) :
    ⟨(metronome.step timeStep).delay, (metronome.step timeStep).time, metronome.interval⟩ =
      metronome.step timeStep := by
  rw [← step_interval metronome timeStep]

theorem step_delaying (delaying : 0 < metronome.delay) :
    metronome.step timeStep = { metronome with delay := metronome.delay - timeStep } := by
  rw [step, if_pos delaying]

theorem beats_delaying (delaying : 0 < metronome.delay) : metronome.beats timeStep = false := by
  simp [beats, delaying]

theorem beats_iff (elapsed : metronome.delay ≤ 0) (positive : 0 < metronome.interval) :
    metronome.beats timeStep = true ↔ metronome.interval < metronome.time + timeStep := by
  simp [beats, not_lt.mpr elapsed, positive]

theorem step_beat (elapsed : metronome.delay ≤ 0) (positive : 0 < metronome.interval)
    (beat : metronome.beats timeStep = true) : metronome.step timeStep = { metronome with time := 0 } := by
  rw [step, if_neg (not_lt.mpr elapsed), if_pos positive, if_pos ((beats_iff elapsed positive).mp beat)]

theorem step_quiet (elapsed : metronome.delay ≤ 0) (positive : 0 < metronome.interval)
    (quiet : metronome.beats timeStep = false) :
    metronome.step timeStep = { metronome with time := metronome.time + timeStep } := by
  have below : ¬ metronome.interval < metronome.time + timeStep := by
    rw [← beats_iff elapsed positive, quiet]
    exact Bool.false_ne_true
  rw [step, if_neg (not_lt.mpr elapsed), if_pos positive, if_neg below]

variable [IsStrictOrderedRing K]

/-- What a step gains and what it loses make up its length. -/
theorem step_conserves (metronome : Metronome K) (timeStep : K) (positive : 0 < metronome.interval) :
    (metronome.step timeStep).level + (if metronome.beats timeStep then metronome.interval else 0) +
      metronome.loss timeStep = metronome.level + timeStep := by
  by_cases delaying : 0 < metronome.delay
  · rw [step_delaying delaying, beats_delaying delaying]
    simp only [level, loss, delaying, if_true, Bool.false_eq_true, if_false, max_eq_left delaying.le]
    cases le_total metronome.delay timeStep with
    | inl ends =>
      rw [max_eq_right (sub_nonpos.mpr ends), max_eq_left (sub_nonneg.mpr ends)]
      ring
    | inr lasts =>
      rw [max_eq_left (sub_nonneg.mpr lasts), max_eq_right (sub_nonpos.mpr lasts)]
      ring
  · have ended := not_lt.mp delaying
    cases beat : metronome.beats timeStep with
    | true =>
      rw [step_beat ended positive beat]
      simp only [level, loss, delaying, beat, if_true, if_false]
      ring
    | false =>
      rw [step_quiet ended positive beat]
      simp only [level, loss, delaying, beat, Bool.false_eq_true, if_false]
      ring

theorem loss_nonneg (positive : 0 < metronome.interval) : 0 ≤ metronome.loss timeStep := by
  simp only [loss]
  split
  · exact le_max_right _ _
  · rename_i ended
    split
    · rename_i beat
      exact sub_nonneg.mpr ((beats_iff (not_lt.mp ended) positive).mp beat).le
    · exact le_refl 0

/-! ## Runs -/

/-- The number of beats of a run. -/
def count (metronome : Metronome K) (steps : List K) : ℕ :=
  tally step (fun metronome timeStep => if metronome.beats timeStep then 1 else 0) metronome steps

/-- The time a run has lost. -/
def lost (metronome : Metronome K) (steps : List K) : K := tally step loss metronome steps

omit [IsStrictOrderedRing K] in
theorem count_append (metronome : Metronome K) (steps steps' : List K) :
    metronome.count (steps ++ steps') = metronome.count steps + (run step metronome steps).count steps' := by
  induction steps generalizing metronome with
  | nil => simp [count, tally]
  | cons timeStep steps inductionHypothesis =>
    have rest := inductionHypothesis (metronome.step timeStep)
    simp only [count, List.cons_append, tally, run_cons] at rest ⊢
    rw [rest, add_assoc]

omit [IsStrictOrderedRing K] in
@[simp] theorem run_interval (metronome : Metronome K) (steps : List K) :
    (run step metronome steps).interval = metronome.interval := by
  induction steps generalizing metronome with
  | nil => rfl
  | cons timeStep steps inductionHypothesis => rw [run_cons, inductionHypothesis, step_interval]

theorem run_conserves (positive : 0 < metronome.interval) (steps : List K) :
    (run step metronome steps).level + metronome.count steps * metronome.interval + metronome.lost steps =
      metronome.level + steps.sum := by
  induction steps generalizing metronome with
  | nil => simp [count, lost, tally]
  | cons timeStep steps inductionHypothesis =>
    have first := step_conserves metronome timeStep positive
    have positiveAfter : 0 < (metronome.step timeStep).interval := by rwa [step_interval]
    have rest := inductionHypothesis positiveAfter
    rw [step_interval] at rest
    simp only [count, lost, tally, run_cons, List.sum_cons] at rest ⊢
    cases beat : metronome.beats timeStep with
    | true =>
      simp only [beat, if_true] at first ⊢
      push_cast at rest ⊢
      linarith
    | false =>
      simp only [beat, Bool.false_eq_true, if_false] at first ⊢
      push_cast at rest ⊢
      linarith

theorem lost_nonneg (positive : 0 < metronome.interval) (steps : List K) : 0 ≤ metronome.lost steps := by
  induction steps generalizing metronome with
  | nil => exact le_refl 0
  | cons timeStep steps inductionHypothesis =>
    have positiveAfter : 0 < (metronome.step timeStep).interval := by rwa [step_interval]
    exact add_nonneg (loss_nonneg positive) (inductionHypothesis positiveAfter)

/-- The timer never shows more than its interval. -/
structure InRange (metronome : Metronome K) : Prop where
  nonneg : 0 ≤ metronome.time
  le : metronome.time ≤ metronome.interval

theorem InRange.step (inRange : metronome.InRange) (positive : 0 < metronome.interval) (forward : 0 < timeStep) :
    (metronome.step timeStep).InRange := by
  by_cases delaying : 0 < metronome.delay
  · rw [step_delaying delaying]
    exact ⟨inRange.nonneg, inRange.le⟩
  · have ended := not_lt.mp delaying
    cases beat : metronome.beats timeStep with
    | true =>
      rw [step_beat ended positive beat]
      exact ⟨le_refl 0, positive.le⟩
    | false =>
      have below : metronome.time + timeStep ≤ metronome.interval := by
        rw [← not_lt, ← beats_iff ended positive, beat]
        exact Bool.false_ne_true
      rw [step_quiet ended positive beat]
      exact ⟨add_nonneg inRange.nonneg forward.le, below⟩

theorem InRange.run (inRange : metronome.InRange) (positive : 0 < metronome.interval) {steps : List K}
    (forward : ∀ timeStep ∈ steps, 0 < timeStep) : (run Metronome.step metronome steps).InRange := by
  induction steps generalizing metronome with
  | nil => exact inRange
  | cons timeStep steps inductionHypothesis =>
    exact inductionHypothesis (inRange.step positive (forward timeStep List.mem_cons_self))
      (by simpa using positive) fun later member => forward later (List.mem_cons_of_mem _ member)

/-- A timer that has just been started. -/
structure Started (metronome : Metronome K) : Prop where
  positive : 0 < metronome.interval
  nonneg : 0 ≤ metronome.delay
  time : metronome.time = 0

omit [IsStrictOrderedRing K] in
theorem Started.inRange (started : metronome.Started) : metronome.InRange := by
  constructor
  · exact started.time.ge
  · rw [started.time]
    exact started.positive.le

omit [IsStrictOrderedRing K] in
theorem step_delay (ended : metronome.delay ≤ 0) (timeStep : K) :
    (metronome.step timeStep).delay = metronome.delay := by
  rw [step, if_neg (not_lt.mpr ended)]
  split
  · split <;> rfl
  · rfl

omit [IsStrictOrderedRing K] in
theorem run_delay (ended : metronome.delay ≤ 0) (steps : List K) :
    (run step metronome steps).delay = metronome.delay := by
  induction steps generalizing metronome with
  | nil => rfl
  | cons timeStep steps inductionHypothesis =>
    have same := step_delay ended timeStep
    rw [run_cons, inductionHypothesis (same.le.trans ended), same]

omit [IsStrictOrderedRing K] in
/-- A delay that is not over has been counted down by all the time that has passed. -/
theorem run_delaying {steps : List K} (delaying : 0 < (run step metronome steps).delay) :
    (run step metronome steps).delay = metronome.delay - steps.sum := by
  induction steps generalizing metronome with
  | nil => simp
  | cons timeStep steps inductionHypothesis =>
    rw [run_cons, inductionHypothesis delaying, List.sum_cons]
    by_cases delayingNow : 0 < metronome.delay
    · rw [step_delaying delayingNow]
      ring
    · have ended := not_lt.mp delayingNow
      rw [run_delay ended (timeStep :: steps)] at delaying
      exact absurd delaying delayingNow

/-- After a delay, what is not yet a beat is on the timer. -/
theorem run_level {steps : List K} (past : metronome.delay < steps.sum) :
    (run step metronome steps).level = (run step metronome steps).time := by
  have ended : (run step metronome steps).delay ≤ 0 := by
    apply le_of_not_gt
    intro delaying
    have left := run_delaying delaying
    linarith
  rw [level, max_eq_right ended, sub_zero]

/-! ## Groups of steps -/

/-- The steps after the one that ends the delay. -/
def afterDelay (delay : K) : List K → List K
  | [] => []
  | timeStep :: steps => if 0 < delay then afterDelay (delay - timeStep) steps else timeStep :: steps

/-- The groups, one after the other, are the first of the steps, and each takes longer than the interval. -/
def CutsInto (interval : K) (steps : List K) (groups : List (List K)) : Prop :=
  groups.flatten <+: steps ∧ ∀ group ∈ groups, interval < group.sum

section Groups

omit [IsStrictOrderedRing K]

/-- During the delay nothing beats, and after it the timer starts from zero. -/
theorem count_afterDelay (interval : K) (delay : K) (steps : List K) :
    ∃ delay' ≤ 0, Metronome.count ⟨delay, 0, interval⟩ steps =
      Metronome.count ⟨delay', 0, interval⟩ (afterDelay delay steps) := by
  induction steps generalizing delay with
  | nil => exact ⟨0, le_refl 0, rfl⟩
  | cons timeStep steps inductionHypothesis =>
    by_cases delaying : 0 < delay
    · obtain ⟨delay', ended, same⟩ := inductionHypothesis (delay - timeStep)
      refine ⟨delay', ended, ?_⟩
      rw [afterDelay, if_pos delaying, ← same, count, tally, beats_delaying delaying, step_delaying delaying]
      exact zero_add _
    · refine ⟨delay, not_lt.mp delaying, ?_⟩
      rw [afterDelay, if_neg delaying]

theorem mem_afterDelay {delay timeStep : K} {steps : List K} (member : timeStep ∈ afterDelay delay steps) :
    timeStep ∈ steps := by
  induction steps generalizing delay with
  | nil => exact member
  | cons first steps inductionHypothesis =>
    rw [afterDelay] at member
    split at member
    · exact List.mem_cons_of_mem first (inductionHypothesis member)
    · exact member

/-- The beats themselves cut the steps into as many groups; the time on the timer belongs to the first. -/
theorem exists_groups_of_count (positive : 0 < metronome.interval) (ended : metronome.delay ≤ 0) (steps : List K) :
    ∃ groups : List (List K), groups.flatten <+: steps ∧ groups.length = metronome.count steps ∧
      ∀ first rest, groups = first :: rest → metronome.interval < metronome.time + first.sum ∧
        ∀ group ∈ rest, metronome.interval < group.sum := by
  induction steps generalizing metronome with
  | nil => exact ⟨[], List.prefix_refl _, rfl, fun _ _ cons => nomatch cons⟩
  | cons timeStep steps inductionHypothesis =>
    have positive' : 0 < (metronome.step timeStep).interval := by rwa [step_interval]
    have ended' : (metronome.step timeStep).delay ≤ 0 := by rwa [step_delay ended]
    obtain ⟨groups, isPrefix, number, long⟩ := inductionHypothesis positive' ended'
    simp only [step_interval] at long
    cases beat : metronome.beats timeStep with
    | true =>
      refine ⟨[timeStep] :: groups, ?_, ?_, ?_⟩
      · rw [List.flatten_cons, List.singleton_append]
        exact (List.prefix_cons_inj timeStep).mpr isPrefix
      · rw [List.length_cons, number, count, count, tally, beat, if_pos rfl, add_comm]
      · rintro first rest ⟨⟩
        have passed := (beats_iff ended positive).mp beat
        rw [step_beat ended positive beat] at long
        refine ⟨by simpa using passed, fun group member => ?_⟩
        cases groups with
        | nil => cases member
        | cons second later =>
          obtain ⟨secondLong, laterLong⟩ := long second later rfl
          cases List.mem_cons.mp member with
          | inl same =>
            subst same
            simpa using secondLong
          | inr among => exact laterLong group among
    | false =>
      rw [step_quiet ended positive beat] at long
      have same : metronome.count (timeStep :: steps) = (metronome.step timeStep).count steps := by
        rw [count, tally, beat, if_neg Bool.false_ne_true, zero_add, count]
      cases groups with
      | nil => exact ⟨[], List.nil_prefix, number.trans same.symm, fun _ _ cons => nomatch cons⟩
      | cons group later =>
        obtain ⟨firstLong, laterLong⟩ := long group later rfl
        refine ⟨(timeStep :: group) :: later, ?_, number.trans same.symm, ?_⟩
        · exact (List.prefix_cons_inj timeStep).mpr isPrefix
        · rintro first rest ⟨⟩
          refine ⟨?_, laterLong⟩
          rw [List.sum_cons, ← add_assoc]
          exact firstLong

end Groups

omit [IsStrictOrderedRing K] in
/-- A group longer than the interval brings a beat. -/
theorem one_le_count (positive : 0 < metronome.interval) (ended : metronome.delay ≤ 0) {group : List K}
    (long : metronome.interval < metronome.time + group.sum) (inRange : metronome.time ≤ metronome.interval) :
    1 ≤ metronome.count group := by
  induction group generalizing metronome with
  | nil => exact absurd long (not_lt.mpr (by simpa using inRange))
  | cons timeStep group inductionHypothesis =>
    rw [count, tally]
    cases beat : metronome.beats timeStep with
    | true =>
      rw [if_pos rfl]
      exact Nat.le_add_right 1 _
    | false =>
      have below : ¬ metronome.interval < metronome.time + timeStep := by
        rw [← beats_iff ended positive, beat]
        exact Bool.false_ne_true
      rw [if_neg Bool.false_ne_true, zero_add, step_quiet ended positive beat]
      refine inductionHypothesis positive ended ?_ (not_lt.mp below)
      rwa [List.sum_cons, ← add_assoc] at long

/-- However the steps are cut, there are no more long groups than beats. -/
theorem groups_length_le_count (positive : 0 < metronome.interval) (ended : metronome.delay ≤ 0)
    (inRange : metronome.InRange) {steps : List K} (forward : ∀ timeStep ∈ steps, 0 < timeStep)
    {groups : List (List K)} (cut : CutsInto metronome.interval steps groups) :
    groups.length ≤ metronome.count steps := by
  obtain ⟨⟨rest, rfl⟩, long⟩ := cut
  induction groups generalizing metronome with
  | nil => exact Nat.zero_le _
  | cons group groups inductionHypothesis =>
    -- After a group the timer is in range again, and more time on it only brings the next beat forward.
    rw [List.flatten_cons, List.append_assoc] at forward ⊢
    obtain ⟨groupForward, restForward⟩ := List.forall_mem_append.mp forward
    obtain ⟨groupLong, restLong⟩ := List.forall_mem_cons.mp long
    have first : 1 ≤ metronome.count group :=
      one_le_count positive ended (groupLong.trans_le (le_add_of_nonneg_left inRange.nonneg)) inRange.le
    have later := @inductionHypothesis (run step metronome group) (by rwa [run_interval]) (by rwa [run_delay ended])
      (inRange.run positive groupForward) (by rwa [run_interval]) restForward
    rw [count_append, List.length_cons]
    omega

omit [IsStrictOrderedRing K] in
/-- The beats of a timer are the most groups that the steps after its delay can be cut into. -/
theorem Started.exists_groups (started : metronome.Started) (steps : List K) :
    ∃ groups, CutsInto metronome.interval (afterDelay metronome.delay steps) groups ∧
      groups.length = metronome.count steps := by
  obtain ⟨delay, time, interval⟩ := metronome
  obtain rfl : time = 0 := started.time
  obtain ⟨delay', ended, same⟩ := count_afterDelay interval delay steps
  obtain ⟨groups, isPrefix, number, long⟩ :=
    @exists_groups_of_count K _ _ ⟨delay', 0, interval⟩ started.positive ended (afterDelay delay steps)
  refine ⟨groups, ⟨isPrefix, fun group member => ?_⟩, number.trans same.symm⟩
  cases groups with
  | nil => cases member
  | cons first rest =>
    obtain ⟨firstLong, restLong⟩ := long first rest rfl
    cases List.mem_cons.mp member with
    | inl newest =>
      subst newest
      simpa using firstLong
    | inr later => exact restLong group later

theorem Started.groups_le_count (started : metronome.Started) {steps : List K}
    (forward : ∀ timeStep ∈ steps, 0 < timeStep) {groups : List (List K)}
    (cut : CutsInto metronome.interval (afterDelay metronome.delay steps) groups) :
    groups.length ≤ metronome.count steps := by
  obtain ⟨delay, time, interval⟩ := metronome
  obtain rfl : time = 0 := started.time
  obtain ⟨delay', ended, same⟩ := count_afterDelay interval delay steps
  rw [same]
  exact @groups_length_le_count K _ _ ⟨delay', 0, interval⟩ _ started.positive ended
    ⟨le_refl 0, started.positive.le⟩ _ (fun timeStep member => forward timeStep (mem_afterDelay member)) _ cut

/-- A delay and every beat lose at most the longest step. -/
theorem lost_le (inRange : metronome.InRange) (positive : 0 < metronome.interval) {steps : List K} {longest : K}
    (nonneg : 0 ≤ longest) (bounded : ∀ timeStep ∈ steps, 0 < timeStep ∧ timeStep ≤ longest) :
    metronome.lost steps ≤ (metronome.count steps + if 0 < metronome.delay then 1 else 0) * longest := by
  induction steps generalizing metronome with
  | nil =>
    refine mul_nonneg (add_nonneg (Nat.cast_nonneg _) ?_) nonneg
    split
    · exact zero_le_one
    · exact le_refl 0
  | cons timeStep steps inductionHypothesis =>
    obtain ⟨⟨forward, short⟩, restBounded⟩ := List.forall_mem_cons.mp bounded
    have rest := inductionHypothesis (inRange.step positive forward) (by rwa [step_interval]) restBounded
    simp only [lost, count, tally] at rest ⊢
    by_cases delaying : 0 < metronome.delay
    · have loss : metronome.loss timeStep = max (timeStep - metronome.delay) 0 := if_pos delaying
      have delayAfter : (metronome.step timeStep).delay = metronome.delay - timeStep := by
        rw [step_delaying delaying]
      rw [loss, beats_delaying delaying, if_neg Bool.false_ne_true, if_pos delaying, zero_add]
      by_cases lasts : 0 < metronome.delay - timeStep
      · rw [if_pos (delayAfter ▸ lasts)] at rest
        rwa [max_eq_right (by linarith), zero_add]
      · rw [if_neg (delayAfter ▸ lasts), add_zero] at rest
        rw [max_eq_left (by linarith), add_mul, one_mul, add_comm]
        linarith
    · have ended := not_lt.mp delaying
      rw [step_delay ended, if_neg delaying, add_zero] at rest
      rw [if_neg delaying, add_zero]
      cases beat : metronome.beats timeStep with
      | true =>
        have loss : metronome.loss timeStep = metronome.time + timeStep - metronome.interval := by
          rw [Metronome.loss, if_neg delaying, if_pos beat]
        have range := inRange.le
        rw [loss, if_pos rfl, Nat.cast_add, Nat.cast_one, add_mul, one_mul]
        linarith
      | false =>
        have loss : metronome.loss timeStep = 0 := by
          rw [Metronome.loss, if_neg delaying, beat, if_neg Bool.false_ne_true]
        rwa [loss, if_neg Bool.false_ne_true, zero_add, zero_add]

/-! ## The expected number of beats -/

section Expected

variable [FloorRing K]

/-- The number of beats differs by at most one from the number of intervals that have passed. -/
def OnTime (metronome : Metronome K) (steps : List K) : Prop :=
  |(metronome.count steps : ℤ) - ⌊(steps.sum - metronome.delay) / metronome.interval⌋| ≤ 1

/-- What has not become a beat was lost or is on the timer. -/
theorem Started.floor (started : metronome.Started) {steps : List K} (past : metronome.delay < steps.sum) :
    ⌊(steps.sum - metronome.delay) / metronome.interval⌋ = metronome.count steps +
      ⌊(metronome.lost steps + (run step metronome steps).time) / metronome.interval⌋ := by
  have conserved := run_conserves started.positive steps
  rw [run_level past, level, started.time, max_eq_left started.nonneg] at conserved
  have nonzero : metronome.interval ≠ 0 := started.positive.ne'
  have passed : (steps.sum - metronome.delay) / metronome.interval =
      (metronome.lost steps + (run step metronome steps).time) / metronome.interval +
        (metronome.count steps : ℕ) := by
    field_simp
    linarith
  rw [passed, Int.floor_add_natCast, add_comm]

theorem Started.count_le (started : metronome.Started) {steps : List K} (past : metronome.delay < steps.sum)
    (forward : ∀ timeStep ∈ steps, 0 < timeStep) :
    (metronome.count steps : ℤ) ≤ ⌊(steps.sum - metronome.delay) / metronome.interval⌋ := by
  have timer := (started.inRange.run started.positive forward).nonneg
  have behind := Int.floor_nonneg.mpr
    (div_nonneg (add_nonneg (lost_nonneg started.positive steps) timer) started.positive.le)
  rw [started.floor past]
  exact le_add_of_nonneg_right behind

theorem Started.onTime_iff (started : metronome.Started) {steps : List K} (past : metronome.delay < steps.sum)
    (forward : ∀ timeStep ∈ steps, 0 < timeStep) :
    metronome.OnTime steps ↔ metronome.lost steps + (run step metronome steps).time < 2 * metronome.interval := by
  have timer := (started.inRange.run started.positive forward).nonneg
  have nonneg : 0 ≤ (metronome.lost steps + (run step metronome steps).time) / metronome.interval :=
    div_nonneg (add_nonneg (lost_nonneg started.positive steps) timer) started.positive.le
  have behind := Int.floor_nonneg.mpr nonneg
  have short : metronome.lost steps + (run step metronome steps).time < 2 * metronome.interval ↔
      ⌊(metronome.lost steps + (run step metronome steps).time) / metronome.interval⌋ < 2 := by
    rw [Int.floor_lt, div_lt_iff₀ started.positive, Int.cast_ofNat]
  rw [OnTime, started.floor past, short, abs_le]
  omega

/-- A run is on time exactly when the steps after the delay can be cut into enough groups, each longer than
    the interval: at most one group less than there are intervals in the time that has passed. -/
theorem Started.onTime_iff_groups (started : metronome.Started) {steps : List K}
    (past : metronome.delay < steps.sum) (forward : ∀ timeStep ∈ steps, 0 < timeStep) :
    metronome.OnTime steps ↔
      ∃ groups, CutsInto metronome.interval (afterDelay metronome.delay steps) groups ∧
        ⌊(steps.sum - metronome.delay) / metronome.interval⌋ ≤ groups.length + 1 := by
  have most := started.count_le past forward
  constructor
  · intro onTime
    obtain ⟨groups, cut, number⟩ := started.exists_groups steps
    refine ⟨groups, cut, ?_⟩
    rw [OnTime, abs_le] at onTime
    omega
  · rintro ⟨groups, cut, enough⟩
    have least := started.groups_le_count forward cut
    rw [OnTime, abs_le]
    omega

/-- A run is on time if, from the end of the delay, it takes less than the interval as often as its longest
    step fits into the interval. -/
theorem Started.onTime_of_short (started : metronome.Started) {steps : List K} {longest : K}
    (past : metronome.delay < steps.sum) (bounded : ∀ timeStep ∈ steps, 0 < timeStep ∧ timeStep ≤ longest)
    (short : (steps.sum - metronome.delay) * longest < metronome.interval * metronome.interval) :
    metronome.OnTime steps := by
  have positive := started.positive
  have forward : ∀ timeStep ∈ steps, 0 < timeStep := fun timeStep member => (bounded timeStep member).1
  rw [started.onTime_iff past forward]
  have inRange := started.inRange.run positive forward
  have onTimer := inRange.nonneg
  have timer : (run step metronome steps).time ≤ metronome.interval := by
    have le := inRange.le
    rwa [run_interval] at le
  have conserved := run_conserves positive steps
  rw [run_level past, level, started.time, max_eq_left started.nonneg] at conserved
  have nonneg : 0 ≤ longest := by
    obtain ⟨timeStep, member⟩ : ∃ timeStep, timeStep ∈ steps := by
      apply List.exists_mem_of_ne_nil
      rintro rfl
      exact absurd past (not_lt.mpr (by simpa using started.nonneg))
    exact (forward timeStep member).le.trans (bounded timeStep member).2
  suffices lost : metronome.lost steps < metronome.interval by linarith
  by_contra much
  have each : metronome.lost steps ≤ (metronome.count steps + 1) * longest := by
    refine (lost_le started.inRange positive nonneg bounded).trans (mul_le_mul_of_nonneg_right ?_ nonneg)
    split
    · exact le_refl _
    · linarith
  -- Were a whole interval lost, the losses would be too many for the beats that the time allows.
  have absurdly : metronome.interval * metronome.interval ≤ (steps.sum - metronome.delay) * longest :=
    calc metronome.interval * metronome.interval
      _ ≤ metronome.interval * ((metronome.count steps + 1) * longest) :=
        mul_le_mul_of_nonneg_left ((not_lt.mp much).trans each) positive.le
      _ = (metronome.count steps * metronome.interval + metronome.interval) * longest := by ring
      _ ≤ (steps.sum - metronome.delay) * longest :=
        mul_le_mul_of_nonneg_right (by linarith [not_lt.mp much]) nonneg
  exact absurd short (not_lt.mpr absurdly)

omit [IsStrictOrderedRing K] in
/-- Two runs of the same length that are on time differ by at most two beats. -/
theorem OnTime.same_sum {steps steps' : List K} (onTime : metronome.OnTime steps)
    (onTime' : metronome.OnTime steps') (same : steps.sum = steps'.sum) :
    |(metronome.count steps : ℤ) - metronome.count steps'| ≤ 2 := by
  rw [OnTime, same] at onTime
  rw [OnTime] at onTime'
  rw [abs_le] at *
  omega

/-- A run that is on time has used up its time, up to two intervals, as its delay and its beats. -/
theorem OnTime.used {steps : List K} (onTime : metronome.OnTime steps) (started : metronome.Started)
    (past : metronome.delay < steps.sum) (forward : ∀ timeStep ∈ steps, 0 < timeStep) :
    metronome.delay + metronome.count steps * metronome.interval ≤ steps.sum ∧
      steps.sum < metronome.delay + metronome.count steps * metronome.interval + 2 * metronome.interval := by
  have short := (started.onTime_iff past forward).mp onTime
  have conserved := run_conserves started.positive steps
  rw [run_level past, level, started.time, max_eq_left started.nonneg] at conserved
  have timer := (started.inRange.run started.positive forward).nonneg
  have lost := lost_nonneg started.positive steps
  constructor
  · linarith
  · linarith

end Expected

end Metronome

end SneakySneaky.Foundation
