import Mathlib.Algebra.Order.BigOperators.Group.List
import Mathlib.Algebra.Order.Ring.Defs
import Mathlib.Tactic.Linarith
import SneakySneaky.Foundation.Runs

/-! # A queue whose items wait before they are served

Items are served first in, first out, by a server that is busy at times.  An item at the
head of the queue waits for its delay, which each idle tick of the server runs down in
rounded arithmetic, and is served at an idle tick after that.  Items are appended at the
end, or replace what is still waiting. -/

namespace SneakySneaky.Foundation.TimedQueue

variable {ι K : Type*}

structure Entry (ι K : Type*) where
  item : ι
  delay : K

inductive Event (ι K : Type*) where
  | tick (busy : Bool) (timeStep : K)
  | append (entries : List (Entry ι K))
  | replace (entries : List (Entry ι K))

section Step

variable [Zero K] [Sub K] [LT K] [DecidableLT K]

/-- The state is what waits, in order of service; the output is what the step serves. -/
def step (round : K → K) (waiting : List (Entry ι K)) : Event ι K → List (Entry ι K) × Option ι
  | .tick busy timeStep =>
    match waiting with
    | [] => ([], none)
    | head :: rest =>
      if busy then (head :: rest, none)
      else if 0 < head.delay then ({ head with delay := round (head.delay - timeStep) } :: rest, none)
      else (rest, some head.item)
  | .append entries => (waiting ++ entries, none)
  | .replace entries => (entries, none)

end Step

def Event.keeps : Event ι K → Prop
  | .replace _ => False
  | _ => True

/-- A record of steps, newest first. -/
abbrev Past (ι K : Type*) := List (Event ι K × Option ι)

/-- The items served, oldest first. -/
def served (past : Past ι K) : List ι := past.reverse.filterMap Prod.snd

/-- The entries appended, oldest first. -/
def appended : Past ι K → List (Entry ι K)
  | [] => []
  | (.append entries, _) :: past => appended past ++ entries
  | _ :: past => appended past

/-- The time steps of the idle ticks since the last item was served, newest first. -/
def idleSteps : Past ι K → List K
  | [] => []
  | (_, some _) :: _ => []
  | (.tick false timeStep, none) :: past => timeStep :: idleSteps past
  | _ :: past => idleSteps past

@[simp] theorem served_cons_none (event : Event ι K) (past : Past ι K) :
    served ((event, none) :: past) = served past := by
  simp [served]

@[simp] theorem served_cons_some (event : Event ι K) (item : ι) (past : Past ι K) :
    served ((event, some item) :: past) = served past ++ [item] := by
  simp [served]

/-! ## The countdown of a delay -/

/-- What is left of a delay after time steps, the newest first. -/
def countdown [Sub K] (round : K → K) (delay : K) : List K → K
  | [] => delay
  | timeStep :: timeSteps => round (countdown round delay timeSteps - timeStep)

/-- Without rounding the countdown is over once the time steps sum to the delay. -/
theorem countdown_id [AddCommGroup K] (delay : K) (timeSteps : List K) :
    countdown id delay timeSteps = delay - timeSteps.sum := by
  induction timeSteps with
  | nil => simp [countdown]
  | cons timeStep timeSteps inductionHypothesis =>
    rw [countdown, inductionHypothesis, List.sum_cons, id, sub_sub, add_comm]

section Rounded

variable [CommRing K] [LinearOrder K] [IsStrictOrderedRing K] {round : K → K} {loss : K}

/-- Each time step takes at most itself and a fixed share of what is left. -/
theorem countdown_ge (less : loss ≤ 1) (nonneg : 0 ≤ loss)
    (keeps : ∀ left, 0 < left → (1 - loss) * left ≤ round left) (delay : K) (timeSteps : List K)
    (forward : ∀ timeStep ∈ timeSteps, 0 ≤ timeStep) :
    (1 - loss) ^ timeSteps.length * delay ≤ max 0 (countdown round delay timeSteps) + timeSteps.sum := by
  induction timeSteps with
  | nil => simp [countdown]
  | cons timeStep timeSteps inductionHypothesis =>
    obtain ⟨step, forward⟩ := List.forall_mem_cons.mp forward
    have before := inductionHypothesis forward
    have total : 0 ≤ timeSteps.sum := List.sum_nonneg forward
    simp only [countdown, List.length_cons, List.sum_cons, pow_succ']
    generalize countdown round delay timeSteps = left at before ⊢
    have shrunk : (1 - loss) * ((1 - loss) ^ timeSteps.length * delay) ≤
        (1 - loss) * max 0 left + (1 - loss) * timeSteps.sum := by
      rw [← mul_add]
      exact mul_le_mul_of_nonneg_left before (sub_nonneg.mpr less)
    have sum : (1 - loss) * timeSteps.sum ≤ timeSteps.sum := by nlinarith
    have head : (1 - loss) * max 0 left ≤ max 0 (round (left - timeStep)) + timeStep := by
      rcases le_or_gt left timeStep with ended | running
      · -- The delay is over: all that was left is less than the time step.
        have left_le : max 0 left ≤ timeStep := max_le step ended
        have share : (1 - loss) * max 0 left ≤ max 0 left := by nlinarith [le_max_left 0 left]
        exact (share.trans left_le).trans (le_add_of_nonneg_left (le_max_left _ _))
      · have kept := keeps (left - timeStep) (sub_pos.mpr running)
        rw [max_eq_right (step.trans running.le)]
        have bound := le_max_right 0 (round (left - timeStep))
        nlinarith
    rw [mul_assoc]
    linarith

end Rounded

/-- The head of a list of entries has waited for some time steps. -/
def waitFor [Sub K] (round : K → K) (timeSteps : List K) : List (Entry ι K) → List (Entry ι K)
  | [] => []
  | head :: rest => { head with delay := countdown round head.delay timeSteps } :: rest

@[simp] theorem waitFor_nil [Sub K] (round : K → K) (entries : List (Entry ι K)) :
    waitFor round [] entries = entries := by
  cases entries <;> rfl

theorem map_item_waitFor [Sub K] (round : K → K) (timeSteps : List K) (entries : List (Entry ι K)) :
    (waitFor round timeSteps entries).map Entry.item = entries.map Entry.item := by
  cases entries <;> rfl

section Laws

variable [Zero K] [Sub K] [LinearOrder K] {round : K → K}

theorem step_tick_waitFor {head : Entry ι K} {rest : List (Entry ι K)} {timeStep : K}
    (delayed : 0 < head.delay) :
    step round (head :: rest) (.tick false timeStep) = (waitFor round [timeStep] (head :: rest), none) := by
  simp [step, delayed, waitFor, countdown]

theorem step_tick_serve {head : Entry ι K} {rest : List (Entry ι K)} {timeStep : K}
    (ready : ¬ 0 < head.delay) :
    step round (head :: rest) (.tick false timeStep) = (rest, some head.item) := by
  simp [step, ready]

/-- Nothing is lost, doubled or reordered: the items served, followed by those that wait, are
    the first entries and then the appended ones. -/
def InOrder (first waiting : List (Entry ι K)) (past : Past ι K) : Prop :=
  served past ++ waiting.map Entry.item = (first ++ appended past).map Entry.item

theorem InOrder.step {first waiting : List (Entry ι K)} {past : Past ι K} {event : Event ι K}
    (inOrder : InOrder first waiting past) (keeps : event.keeps) :
    InOrder first (step round waiting event).1 ((event, (step round waiting event).2) :: past) := by
  simp only [InOrder] at *
  cases event with
  | tick busy timeStep =>
    cases waiting with
    | nil => simpa [TimedQueue.step, appended] using inOrder
    | cons head rest =>
      cases busy with
      | true => simpa [TimedQueue.step, appended] using inOrder
      | false =>
        by_cases delayed : 0 < head.delay
        · rw [step_tick_waitFor delayed, map_item_waitFor, served_cons_none]
          exact inOrder
        · rw [step_tick_serve delayed]
          simpa [appended] using inOrder
  | append entries =>
    simp only [TimedQueue.step, served_cons_none, appended, ← List.append_assoc, List.map_append] at *
    rw [inOrder]
  | replace entries => cases keeps

/-- As long as first entries wait, the head has waited for the idle ticks since the last service
    and the others have not begun to. -/
def Waits (round : K → K) (first waiting : List (Entry ι K)) (past : Past ι K) : Prop :=
  (served past).length < first.length →
    waiting = waitFor round (idleSteps past) (first.drop (served past).length) ++ appended past

theorem Waits.step {first waiting : List (Entry ι K)} {past : Past ι K} {event : Event ι K}
    (waits : Waits round first waiting past) (keeps : event.keeps) :
    Waits round first (step round waiting event).1 ((event, (step round waiting event).2) :: past) := by
  intro remain
  cases event with
  | append entries =>
    simp only [TimedQueue.step, served_cons_none, appended, idleSteps] at remain ⊢
    rw [waits remain, List.append_assoc]
  | replace entries => cases keeps
  | tick busy timeStep =>
    -- If a first entry waits after the step then one waited before it.
    have before : (served past).length < first.length := by
      refine lt_of_le_of_lt ?_ remain
      cases (TimedQueue.step round waiting (.tick busy timeStep)).2 <;> simp
    obtain ⟨head, rest, dropped⟩ : ∃ head rest, first.drop (served past).length = head :: rest :=
      List.exists_cons_of_ne_nil (by simpa using before)
    have shape := waits before
    rw [dropped] at shape
    simp only [waitFor, List.cons_append] at shape
    subst shape
    cases busy with
    | true =>
      simp only [TimedQueue.step, if_true, served_cons_none, appended, idleSteps, dropped]
      rfl
    | false =>
      -- The head's own delay has run down in the idle ticks; the others' delays are untouched.
      by_cases delayed : 0 < countdown round head.delay (idleSteps past)
      · rw [step_tick_waitFor delayed]
        simp only [served_cons_none, appended, idleSteps, dropped, waitFor, List.cons_append, countdown]
      · rw [step_tick_serve delayed]
        -- The clock starts again for the entry that is now at the head.
        have next : first.drop (served past).length.succ = rest := by
          rw [← List.tail_drop, dropped, List.tail_cons]
        simp only [served_cons_some, List.length_append, List.length_singleton, appended, idleSteps,
          waitFor_nil]
        rw [next]

/-- What a step serves is the first entry not served yet, once the server is idle and the
    entry's delay has run down. -/
theorem Waits.serve {first waiting : List (Entry ι K)} {past : Past ι K} {event : Event ι K}
    {item : ι} (waits : Waits round first waiting past) (serves : (TimedQueue.step round waiting event).2 = some item)
    (remain : (served past).length < first.length) :
    ∃ entry, first[(served past).length]? = some entry ∧ entry.item = item ∧
      countdown round entry.delay (idleSteps past) ≤ 0 := by
  have dropped := List.drop_eq_getElem_cons remain
  have shape := waits remain
  rw [dropped] at shape
  simp only [waitFor, List.cons_append] at shape
  subst shape
  refine ⟨_, List.getElem?_eq_getElem remain, ?_⟩
  cases event with
  | append entries | replace entries => simp [TimedQueue.step] at serves
  | tick busy timeStep =>
    simp only [TimedQueue.step] at serves
    split at serves
    · cases serves
    · split at serves
      · cases serves
      · rename_i idle ready
        exact ⟨Option.some.inj serves, by simpa using ready⟩

end Laws

end SneakySneaky.Foundation.TimedQueue
