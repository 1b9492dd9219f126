import Mathlib.Data.Rat.Floor
import Mathlib.Tactic.FieldSimp
import Mathlib.Tactic.NormNum
import SneakySneaky.Foundation.Periodic
import SneakySneaky.Game

/-! # Animated textures

Two parts of the game show a row of numbered textures one after the other: `AnimatedPoster`,
each with a timer that is set back, and the materials of the walking people in `HandleUpdate`,
whose timers keep the excess and which find out by themselves how many textures there are.
The timers are exact: what a subtraction of floats rounds off is left out, but not the values
that only floats have. -/

namespace SneakySneaky

open SneakySneaky.Foundation

/-! ## `AnimatedPoster` -/

/-- A float; `finite 0` is the positive zero. -/
inductive FloatValue where
  | finite (value : ℚ)
  | negativeZero
  | infinity (negative : Bool)
  | nan
  deriving DecidableEq

namespace FloatValue

/-- `1.0f / value`. -/
def reciprocal : FloatValue → FloatValue
  | finite value => if value = 0 then infinity false else finite (1 / value)
  | negativeZero => infinity true
  | infinity negative => if negative then negativeZero else finite 0
  | nan => nan

/-- The value less a finite amount. -/
def sub (value : FloatValue) (amount : ℚ) : FloatValue :=
  match value with
  | finite value => finite (value - amount)
  | negativeZero => finite (0 - amount)
  | infinity negative => infinity negative
  | nan => nan

/-- `value > 0.0f`. -/
def positive : FloatValue → Bool
  | finite value => 0 < value
  | negativeZero => false
  | infinity negative => !negative
  | nan => false

/-- The value of a timer that is over at once. -/
def Over (value : FloatValue) : Prop := ∀ amount, 0 ≤ amount → (value.sub amount).positive = false

theorem over_finite {value : ℚ} (nonpos : value ≤ 0) : (finite value).Over := by
  intro amount forward
  simp only [sub, positive, decide_eq_false_iff_not, not_lt]
  linarith

/-- A speed that is no number, or is below zero, makes an interval that is over at once. -/
theorem reciprocal_over {speed : FloatValue} (backward : ∀ value, speed = finite value → value < 0) :
    speed.reciprocal.Over := by
  cases speed with
  | finite value =>
    have negative := backward value rfl
    rw [reciprocal, if_neg negative.ne]
    exact over_finite (one_div_neg.mpr negative).le
  | negativeZero => exact fun _ _ => rfl
  | infinity negative =>
    cases negative with
    | false => exact over_finite (le_refl 0)
    | true => exact over_finite (le_refl 0)
  | nan => exact fun _ _ => rfl

end FloatValue

/-- `shown` is the textures set so far, newest first, which nothing in the source reads. -/
structure AnimatedPoster where
  speed : FloatValue
  count : ℤ
  path : String
  timer : FloatValue
  frame : ℤ
  hasMaterial : Bool
  removed : Bool
  shown : List String

namespace AnimatedPoster

/-- The constructor, `LoadFromXML` and `DelayedStart`. -/
def loadFromXML (toFloat : String → FloatValue) (toInt : String → ℤ) (element : XMLElement) (hasMaterial : Bool) :
    AnimatedPoster where
  speed := (toFloat (element.getAttribute "speed")).reciprocal
  count := toInt (element.getAttribute "frames")
  path := element.getAttribute "path"
  timer := .finite 0
  frame := 0
  hasMaterial := hasMaterial
  removed := false
  shown := []

def texture (path : String) (frame : ℤ) : String := "Textures/" ++ path ++ "/" ++ toString (frame + 1) ++ ".png"

def nextFrame (poster : AnimatedPoster) : ℤ := if poster.count ≤ poster.frame + 1 then 0 else poster.frame + 1

def update (poster : AnimatedPoster) (timeStep : ℚ) : AnimatedPoster :=
  if !poster.hasMaterial then { poster with removed := true }
  else if (poster.timer.sub timeStep).positive then { poster with timer := poster.timer.sub timeStep }
  else
    { poster with
      timer := poster.speed
      frame := poster.nextFrame
      shown := texture poster.path poster.nextFrame :: poster.shown }

/-- The textures 2, 3, ... up to the last and again from the first, as often as the page was turned. -/
def pages (path : String) (count : ℤ) (turns : ℕ) : List String :=
  (List.range turns).map fun turn => texture path ((turn + 1 : ℕ) % max count 1)

theorem pages_succ (path : String) (count : ℤ) (turns : ℕ) :
    pages path count (turns + 1) = pages path count turns ++ [texture path ((turns + 1 : ℕ) % max count 1)] := by
  rw [pages, List.range_succ, List.map_append]
  rfl

theorem nextFrame_eq {poster : AnimatedPoster} {turns : ℕ} (turned : poster.frame = turns % max poster.count 1) :
    poster.nextFrame = (turns + 1 : ℕ) % max poster.count 1 := by
  have positive : 0 < max poster.count 1 := by omega
  have nonneg := Int.emod_nonneg turns positive.ne'
  have below := Int.emod_lt_of_pos turns positive
  rw [nextFrame, Nat.cast_add, Nat.cast_one, ← Int.emod_add_emod, ← turned]
  rw [← turned] at nonneg below
  split
  · have last : poster.frame + 1 = max poster.count 1 := by omega
    rw [last, Int.emod_self]
  · rw [Int.emod_eq_of_lt (by omega) (by omega)]

/-- A poster with a material that has turned its page some number of times. -/
structure Turned (start : AnimatedPoster) (turns : ℕ) (poster : AnimatedPoster) : Prop where
  hasMaterial : poster.hasMaterial = true
  speed : poster.speed = start.speed
  count : poster.count = start.count
  path : poster.path = start.path
  frame : poster.frame = turns % max start.count 1
  shown : poster.shown.reverse = pages start.path start.count turns

theorem Turned.wait {start poster : AnimatedPoster} {turns : ℕ} (turned : Turned start turns poster)
    (timer : FloatValue) : Turned start turns { poster with timer := timer } :=
  ⟨turned.hasMaterial, turned.speed, turned.count, turned.path, turned.frame, turned.shown⟩

theorem Turned.turn {start poster : AnimatedPoster} {turns : ℕ} (turned : Turned start turns poster)
    (timer : FloatValue) : Turned start (turns + 1) { poster with
      timer := timer
      frame := poster.nextFrame
      shown := texture poster.path poster.nextFrame :: poster.shown } := by
  have next : poster.nextFrame = (turns + 1 : ℕ) % max start.count 1 := by
    rw [← turned.count]
    apply nextFrame_eq
    rw [turned.count, turned.frame]
  refine ⟨turned.hasMaterial, turned.speed, turned.count, turned.path, next, ?_⟩
  show (texture poster.path poster.nextFrame :: poster.shown).reverse = _
  rw [List.reverse_cons, turned.shown, pages_succ, next, turned.path]

theorem loadFromXML_turned (toFloat : String → FloatValue) (toInt : String → ℤ) (element : XMLElement) :
    Turned (loadFromXML toFloat toInt element true) 0 (loadFromXML toFloat toInt element true) :=
  ⟨rfl, rfl, rfl, rfl, (Int.zero_emod _).symm, rfl⟩

theorem Turned.update_waiting {start poster : AnimatedPoster} {turns : ℕ} (turned : Turned start turns poster)
    {timeStep : ℚ} (waits : (poster.timer.sub timeStep).positive = true) :
    poster.update timeStep = { poster with timer := poster.timer.sub timeStep } := by
  rw [update, if_neg (by simp [turned.hasMaterial]), if_pos waits]

theorem Turned.update_turning {start poster : AnimatedPoster} {turns : ℕ} (turned : Turned start turns poster)
    {timeStep : ℚ} (elapsed : (poster.timer.sub timeStep).positive = false) :
    poster.update timeStep = { poster with
      timer := poster.speed
      frame := poster.nextFrame
      shown := texture poster.path poster.nextFrame :: poster.shown } := by
  rw [update, if_neg (by simp [turned.hasMaterial]), if_neg (by simp [elapsed])]

/-- With a finite time between two pages the poster follows a timer that is set back to zero. -/
structure Follows (start : AnimatedPoster) (interval : ℚ) (poster : AnimatedPoster) (state : ℚ × ℕ) : Prop where
  turned : Turned start state.2 poster
  timer : poster.timer = .finite (interval - state.1)

theorem Follows.update {start poster : AnimatedPoster} {interval : ℚ} {state : ℚ × ℕ}
    (finite : start.speed = .finite interval) (follows : Follows start interval poster state) (timeStep : ℚ) :
    Follows start interval (poster.update timeStep) ((Periodic.resetting interval).tick state timeStep) := by
  obtain ⟨time, turns⟩ := state
  obtain ⟨turned, timer⟩ := follows
  have left : poster.timer.sub timeStep = .finite (interval - (time + timeStep)) := by
    rw [timer, FloatValue.sub]
    congr 1
    ring
  cases firing : (Periodic.resetting interval).fires time timeStep with
  | true =>
    have due : interval ≤ time + timeStep := Periodic.fires_iff.mp firing
    have elapsed : (poster.timer.sub timeStep).positive = false := by
      rw [left, FloatValue.positive, decide_eq_false (by linarith)]
    rw [turned.update_turning elapsed]
    simp only [Periodic.tick, firing, if_true]
    refine ⟨turned.turn poster.speed, ?_⟩
    show poster.speed = _
    rw [turned.speed, finite, Periodic.step_firing firing]
    show _ = FloatValue.finite (interval - 0)
    rw [sub_zero]
  | false =>
    have early : time + timeStep < interval :=
      not_le.mp fun due => Bool.false_ne_true (firing.symm.trans (Periodic.fires_iff.mpr due))
    have waits : (poster.timer.sub timeStep).positive = true := by
      rw [left, FloatValue.positive, decide_eq_true (by linarith)]
    rw [turned.update_waiting waits]
    simp only [Periodic.tick, firing, Bool.false_eq_true, if_false, add_zero]
    refine ⟨turned.wait _, ?_⟩
    rw [Periodic.step_waiting firing, left]

theorem Follows.counted {start : AnimatedPoster} {interval : ℚ} (finite : start.speed = .finite interval)
    (follows : Follows start interval start (interval, 0)) (steps : List ℚ) :
    Turned start ((Periodic.resetting interval).count interval steps) (run AnimatedPoster.update start steps) := by
  have related := run_relates (Follows start interval)
    (fun _ _ timeStep follows => follows.update finite timeStep) follows steps
  rw [Periodic.run_tick, zero_add] at related
  exact related.turned

/-- A page for every interval of the speed, each at most one step late. -/
theorem count_bounds {speed longest : ℚ} (positive : 0 < speed) {steps : List ℚ}
    (forward : ∀ timeStep ∈ steps, 0 ≤ timeStep) (bounded : ∀ timeStep ∈ steps, timeStep ≤ longest) :
    (Periodic.resetting (1 / speed)).count (1 / speed) steps ≤ speed * steps.sum + 1 ∧
      speed * steps.sum ≤ (Periodic.resetting (1 / speed)).count (1 / speed) steps * (1 + speed * longest) := by
  have interval : 0 < 1 / speed := one_div_pos.mpr positive
  have early := Periodic.count_mul_le (Periodic.resetting (1 / speed)) interval.le forward
  rw [Periodic.resetting_interval] at early
  have late := Periodic.resetting_le_count interval.le (le_refl (1 / speed)) bounded
  generalize (Periodic.resetting (1 / speed)).count (1 / speed) steps = turns at early late ⊢
  have scale : speed * (1 / speed) = 1 := mul_one_div_cancel positive.ne'
  constructor
  · have scaled := mul_le_mul_of_nonneg_left early positive.le
    calc (turns : ℚ) = speed * (turns * (1 / speed)) := by rw [mul_left_comm, scale, mul_one]
      _ ≤ speed * (1 / speed + steps.sum) := scaled
      _ = speed * steps.sum + 1 := by rw [mul_add, scale, add_comm]
  · have scaled := mul_le_mul_of_nonneg_left late positive.le
    have expanded : speed * ((turns + 1) * (1 / speed) + turns * longest) =
        turns * (1 + speed * longest) + 1 := by
      rw [mul_add, mul_left_comm, scale]
      ring
    rw [mul_add, scale, expanded] at scaled
    linarith

/-- An infinite time between two pages leaves the page that the first update shows. -/
theorem run_infinite {start : AnimatedPoster} (turned : Turned start 0 start)
    (infinite : start.speed = .infinity false) (ready : start.timer.Over) {steps : List ℚ}
    (forward : ∀ timeStep ∈ steps, 0 ≤ timeStep) :
    ∃ turns ≤ 1, Turned start turns (run AnimatedPoster.update start steps) := by
  cases steps with
  | nil => exact ⟨0, Nat.zero_le 1, turned⟩
  | cons timeStep steps =>
    refine ⟨1, le_refl 1, ?_⟩
    rw [run_cons, turned.update_turning (ready timeStep (forward timeStep List.mem_cons_self))]
    apply And.left
    refine run_invariant (fun poster => Turned start 1 poster ∧ poster.timer = .infinity false) ?_
      ⟨turned.turn _, infinite⟩ steps
    rintro poster later ⟨turned, waits⟩
    have waiting : (poster.timer.sub later).positive = true := by rw [waits]; rfl
    rw [turned.update_waiting waiting]
    refine ⟨turned.wait _, ?_⟩
    rw [waits]
    rfl

/-- If the time between two pages is over at once, every update turns the page. -/
theorem run_restless {start poster : AnimatedPoster} {turns : ℕ} (turned : Turned start turns poster)
    (restless : start.speed.Over) (ready : poster.timer.Over) {steps : List ℚ}
    (forward : ∀ timeStep ∈ steps, 0 ≤ timeStep) :
    Turned start (turns + steps.length) (run AnimatedPoster.update poster steps) := by
  induction steps generalizing poster turns with
  | nil => exact turned
  | cons timeStep steps inductionHypothesis =>
    obtain ⟨first, later⟩ := List.forall_mem_cons.mp forward
    have next := turned.turn poster.speed
    rw [run_cons, turned.update_turning (ready timeStep first), List.length_cons, Nat.add_comm steps.length,
      ← Nat.add_assoc]
    exact inductionHypothesis next (by rw [turned.speed]; exact restless) later

/-- Without a material the component only removes itself. -/
theorem run_bare {start : AnimatedPoster} (bare : start.hasMaterial = false) (fresh : start.shown = [])
    (steps : List ℚ) : (run AnimatedPoster.update start steps).shown = [] := by
  apply And.right
  refine run_invariant (fun poster : AnimatedPoster => poster.hasMaterial = false ∧ poster.shown = []) ?_
    ⟨bare, fresh⟩ steps
  intro poster timeStep holds
  rw [update, if_pos (by simp [holds.1])]
  exact holds

end AnimatedPoster

/-- A poster shows its textures in order and round again from the second on.  In exact arithmetic the page
    turns once for every interval of its speed, each time at most one step late; without a speed it turns
    once, with one that is negative, infinite or no number at every update, and without a material never. -/
theorem posters_turn_pages (toFloat : String → FloatValue) (toInt : String → ℤ) (element : XMLElement)
    (hasMaterial : Bool) (longest : ℚ) (steps : List ℚ) (forward : ∀ timeStep ∈ steps, 0 ≤ timeStep)
    (bounded : ∀ timeStep ∈ steps, timeStep ≤ longest) :
    ∃ turns : ℕ, (run AnimatedPoster.update (.loadFromXML toFloat toInt element hasMaterial) steps).shown.reverse =
        AnimatedPoster.pages (element.getAttribute "path") (toInt (element.getAttribute "frames")) turns ∧
      (hasMaterial = false → turns = 0) ∧
      (hasMaterial = true →
        (∀ speed, toFloat (element.getAttribute "speed") = .finite speed → 0 < speed →
          turns ≤ speed * steps.sum + 1 ∧ speed * steps.sum ≤ turns * (1 + speed * longest)) ∧
        (toFloat (element.getAttribute "speed") = .finite 0 → turns ≤ 1) ∧
        ((∀ speed, toFloat (element.getAttribute "speed") = .finite speed → speed < 0) → turns = steps.length)) := by
  cases hasMaterial with
  | false =>
    refine ⟨0, ?_, fun _ => rfl, by simp⟩
    rw [AnimatedPoster.run_bare rfl rfl]
    rfl
  | true =>
    have fresh := AnimatedPoster.loadFromXML_turned toFloat toInt element
    have ready : (FloatValue.finite 0).Over := FloatValue.over_finite (le_refl 0)
    have reciprocal : (AnimatedPoster.loadFromXML toFloat toInt element true).speed =
        (toFloat (element.getAttribute "speed")).reciprocal := rfl
    by_cases backward : ∀ speed, toFloat (element.getAttribute "speed") = .finite speed → speed < 0
    · have restless := FloatValue.reciprocal_over backward
      rw [← reciprocal] at restless
      have turned := AnimatedPoster.run_restless fresh restless ready forward
      rw [zero_add] at turned
      refine ⟨_, turned.shown, by simp, fun _ => ⟨fun speed reading positive => ?_, fun reading => ?_, fun _ => rfl⟩⟩
      · exact absurd (backward speed reading) positive.not_gt
      · exact absurd (backward 0 reading) (lt_irrefl 0)
    · obtain ⟨speed, reading, nonneg⟩ : ∃ speed, toFloat (element.getAttribute "speed") = .finite speed ∧
          0 ≤ speed := by
        simpa only [not_forall, not_lt, exists_prop] using backward
      rcases nonneg.eq_or_lt with zero | positive
      · subst zero
        have infinite : (AnimatedPoster.loadFromXML toFloat toInt element true).speed = .infinity false := by
          rw [reciprocal, reading]
          rfl
        obtain ⟨turns, atMost, turned⟩ := AnimatedPoster.run_infinite fresh infinite ready forward
        refine ⟨turns, turned.shown, by simp, fun _ =>
          ⟨fun speed other positive => ?_, fun _ => atMost, fun always => absurd always backward⟩⟩
        rw [reading] at other
        cases other
        exact absurd positive (lt_irrefl 0)
      · have finite : (AnimatedPoster.loadFromXML toFloat toInt element true).speed = .finite (1 / speed) := by
          rw [reciprocal, reading]
          exact if_neg positive.ne'
        have turned := AnimatedPoster.Follows.counted finite ⟨fresh, by rw [sub_self]; rfl⟩ steps
        refine ⟨_, turned.shown, by simp, fun _ =>
          ⟨fun other sameReading _ => ?_, fun other => ?_, fun always => absurd always backward⟩⟩
        · obtain rfl : speed = other := FloatValue.finite.inj (reading.symm.trans sameReading)
          exact AnimatedPoster.count_bounds positive forward bounded
        · rw [reading] at other
          exact absurd (FloatValue.finite.inj other) positive.ne'

/-- The poster of the conference room, for twelve seconds. -/
theorem posters_turn_pages_conference :
    let toFloat := fun _ => FloatValue.finite (1 / 5)
    let element : XMLElement :=
      .mk "object" [("speed", "0.2"), ("frames", "3"), ("path", "wl_conference")] "" []
    let steps : List ℚ := [1, 4, 3, 4]
    ∃ turns : ℕ, (run AnimatedPoster.update (.loadFromXML toFloat (fun _ => 3) element true) steps).shown.reverse =
        AnimatedPoster.pages (element.getAttribute "path") 3 turns ∧
      (true = false → turns = 0) ∧
      (true = true →
        (∀ speed, toFloat (element.getAttribute "speed") = .finite speed → 0 < speed →
          turns ≤ speed * steps.sum + 1 ∧ speed * steps.sum ≤ turns * (1 + speed * 4)) ∧
        (toFloat (element.getAttribute "speed") = .finite 0 → turns ≤ 1) ∧
        ((∀ speed, toFloat (element.getAttribute "speed") = .finite speed → speed < 0) → turns = steps.length)) := by
  intro toFloat element steps
  exact posters_turn_pages toFloat (fun _ => 3) element true 4 steps (by decide +kernel) (by decide +kernel)

/-! ## The materials of walking people -/

/-- `requested` and `shown` are the textures asked for and set so far, newest first; nothing in the
    source reads them. -/
structure AnimatedMaterial where
  material : String
  path : String
  frame : ℤ
  count : ℤ
  timer : ℚ
  rate : ℚ
  requested : List String
  shown : List (Option String)

namespace AnimatedMaterial

/-- `M_MAX_INT`. -/
def maxInt : ℤ := 2147483647

def create (material path : String) (rate : ℚ) : AnimatedMaterial := ⟨material, path, 1, maxInt, 0, rate, [], []⟩

def texture (path : String) (frame : ℤ) : String := path ++ toString frame ++ ".png"

def load (hasTexture : String → Bool) (name : String) : Option String := if hasTexture name then some name else none

/-- The next texture, or the first again when there is no next; then the number of textures is known. -/
def turn (hasTexture : String → Bool) (entry : AnimatedMaterial) : AnimatedMaterial :=
  let frame := entry.frame + 1
  let requested := if entry.count ≤ frame then entry.requested else texture entry.path frame :: entry.requested
  if frame < entry.count ∧ hasTexture (texture entry.path frame) = true then
    { entry with
      frame := frame
      requested := requested
      shown := some (texture entry.path frame) :: entry.shown }
  else
    { entry with
      count := frame
      frame := 1
      requested := (entry.path ++ "1.png") :: requested
      shown := load hasTexture (entry.path ++ "1.png") :: entry.shown }

/-- The loop's step for one entry.  `timer` is a float; what its additions and subtractions round is left out. -/
def advance (hasTexture : String → Bool) (entry : AnimatedMaterial) (timeStep : ℚ) : AnimatedMaterial :=
  let frameRate := 1 / entry.rate
  let timer := entry.timer + timeStep
  if timer < frameRate then { entry with timer := timer }
  else { entry with timer := timer - frameRate }.turn hasTexture

/-- The requests that found nothing. -/
def failures (hasTexture : String → Bool) (entry : AnimatedMaterial) : ℕ :=
  (entry.requested.filter fun name => !hasTexture name).length

end AnimatedMaterial

namespace Game

/-- The static table in `HandleUpdate`. -/
def animated : List AnimatedMaterial :=
  [.create "Materials/MaverickForwardAnimated.xml" "Textures/maverick/forward/" 10,
    .create "Materials/MaverickBackAnimated.xml" "Textures/maverick/back/" 10,
    .create "Materials/MaverickLeftAnimated.xml" "Textures/maverick/left/" 9,
    .create "Materials/MaverickRightAnimated.xml" "Textures/maverick/right/" 9,
    .create "Materials/GuardForwardAnimated.xml" "Textures/guard/forward/" 10,
    .create "Materials/GuardBackAnimated.xml" "Textures/guard/back/" 10,
    .create "Materials/GuardLeftAnimated.xml" "Textures/guard/left/" 9,
    .create "Materials/GuardRightAnimated.xml" "Textures/guard/right/" 9]

/-- The time of a frame if the materials move in it: in the menu and while a level is played. -/
def animationStep (frame : GameState × ℚ) : Option ℚ :=
  if frame.1 = .menu ∨ frame.1 = .playing then some frame.2 else none

/-- The loop over the table. -/
def animate (hasTexture : String → Bool) (table : List AnimatedMaterial) (frame : GameState × ℚ) :
    List AnimatedMaterial :=
  (animationStep frame).elim table fun timeStep => table.map (·.advance hasTexture timeStep)

/-- The time during which the materials have moved. -/
def animationTime (frames : List (GameState × ℚ)) : ℚ := (frames.filterMap animationStep).sum

end Game

namespace AnimatedMaterial

/-- The textures 1 to `pages` are there, and the next is not. -/
structure HasPages (hasTexture : String → Bool) (path : String) (pages : ℕ) : Prop where
  positive : 0 < pages
  present : ∀ page : ℕ, page < pages → hasTexture (texture path (page + 1)) = true
  missing : hasTexture (texture path (pages + 1)) = false
  few : (pages : ℤ) + 1 < maxInt

/-- An entry whose texture has been changed some number of times, with the time on its timer. -/
structure Walked (hasTexture : String → Bool) (pages : ℕ) (start entry : AnimatedMaterial) (state : ℚ × ℕ) : Prop where
  material : entry.material = start.material
  path : entry.path = start.path
  rate : entry.rate = start.rate
  timer : entry.timer = state.1
  frame : entry.frame = (state.2 % pages : ℕ) + 1
  count : entry.count = if state.2 < pages then maxInt else pages + 1
  shown : entry.shown.reverse =
    (List.range state.2).map fun turn => some (texture start.path (((turn + 1) % pages : ℕ) + 1))
  failures : entry.failures hasTexture = if state.2 < pages then 0 else 1

section Walked

variable {hasTexture : String → Bool} {pages : ℕ} {start entry : AnimatedMaterial} {state : ℚ × ℕ}

theorem create_walked (material path : String) (rate : ℚ) (positive : 0 < pages) :
    Walked hasTexture pages (create material path rate) (create material path rate) (0, 0) := by
  refine ⟨rfl, rfl, rfl, rfl, ?_, ?_, rfl, ?_⟩
  · simp [create]
  · simp [create, positive]
  · simp [create, positive, AnimatedMaterial.failures]

theorem Walked.wait (walked : Walked hasTexture pages start entry state) (time : ℚ) :
    Walked hasTexture pages start { entry with timer := time } (time, state.2) :=
  ⟨walked.material, walked.path, walked.rate, rfl, walked.frame, walked.count, walked.shown, walked.failures⟩

theorem texture_first (path : String) : path ++ "1.png" = texture path (0 + 1) := by
  show path ++ "1.png" = path ++ "1" ++ ".png"
  rw [String.append_assoc]
  rfl

omit state in
theorem HasPages.first {path : String} (hasPages : HasPages hasTexture path pages) :
    hasTexture (texture path (0 + 1)) = true :=
  hasPages.present 0 hasPages.positive

theorem shown_succ {path : String} {turns : ℕ} {texture' : Option String} {shown : List (Option String)}
    (before : shown.reverse = (List.range turns).map fun turn => some (texture path (((turn + 1) % pages : ℕ) + 1)))
    (next : texture' = some (texture path (((turns + 1) % pages : ℕ) + 1))) :
    (texture' :: shown).reverse =
      (List.range (turns + 1)).map fun turn => some (texture path (((turn + 1) % pages : ℕ) + 1)) := by
  rw [List.reverse_cons, before, next, List.range_succ, List.map_append]
  rfl

/-- Before the last texture the next is there. -/
theorem Walked.turn_next (walked : Walked hasTexture pages start entry state)
    (hasPages : HasPages hasTexture start.path pages) (inside : state.2 % pages + 1 < pages) :
    Walked hasTexture pages start (entry.turn hasTexture) (state.1, state.2 + 1) := by
  obtain ⟨material, path, rate, timer, frame, count, shown, failures⟩ := walked
  have few := hasPages.few
  have next : (state.2 + 1) % pages = state.2 % pages + 1 := by
    rw [← Nat.mod_add_mod, Nat.mod_eq_of_lt inside]
  have nextFrame : entry.frame + 1 = ((state.2 + 1) % pages : ℕ) + 1 := by
    rw [frame, next]
    push_cast
    ring
  have known : state.2 + 1 < pages ↔ state.2 < pages := by
    refine ⟨Nat.lt_of_succ_lt, fun learning => ?_⟩
    rwa [Nat.mod_eq_of_lt learning] at inside
  have below : entry.frame + 1 < entry.count := by
    rw [nextFrame, count, next]
    split
    · omega
    · omega
  have present : hasTexture (texture entry.path (entry.frame + 1)) = true := by
    rw [path, nextFrame, next]
    exact hasPages.present _ inside
  rw [AnimatedMaterial.turn, if_pos ⟨below, present⟩, if_neg (not_le.mpr below)]
  refine ⟨material, path, rate, timer, nextFrame, ?_, ?_, ?_⟩
  · show entry.count = if state.2 + 1 < pages then maxInt else pages + 1
    simp only [count, known]
  · apply shown_succ shown
    rw [path, nextFrame]
  · show (List.filter _ (_ :: entry.requested)).length = if state.2 + 1 < pages then 0 else 1
    rw [List.filter_cons_of_neg (by simp [present])]
    simp only [known]
    exact failures

/-- After the last texture the first comes again; only the first time is the one after the last asked for. -/
theorem Walked.turn_round (walked : Walked hasTexture pages start entry state)
    (hasPages : HasPages hasTexture start.path pages) (last : state.2 % pages + 1 = pages) :
    Walked hasTexture pages start (entry.turn hasTexture) (state.1, state.2 + 1) := by
  obtain ⟨material, path, rate, timer, frame, count, shown, failures⟩ := walked
  have few := hasPages.few
  have next : (state.2 + 1) % pages = 0 := by
    rw [← Nat.mod_add_mod, last, Nat.mod_self]
  have due : ¬ state.2 + 1 < pages := by
    have := Nat.mod_le state.2 pages
    omega
  have nextFrame : entry.frame + 1 = pages + 1 := by
    rw [frame]
    omega
  have ends : ¬ (entry.frame + 1 < entry.count ∧ hasTexture (texture entry.path (entry.frame + 1)) = true) := by
    rw [path, nextFrame, hasPages.missing]
    simp
  rw [AnimatedMaterial.turn, if_neg ends]
  refine ⟨material, path, rate, timer, ?_, ?_, ?_, ?_⟩
  · simp [next]
  · show entry.frame + 1 = if state.2 + 1 < pages then maxInt else pages + 1
    rw [if_neg due, nextFrame]
  · apply shown_succ shown
    rw [path, texture_first, load, if_pos hasPages.first, next]
    rfl
  · show (List.filter _ (_ :: _)).length = if state.2 + 1 < pages then 0 else 1
    have first : hasTexture (entry.path ++ "1.png") = true := by
      rw [path, texture_first]
      exact hasPages.first
    rw [List.filter_cons_of_neg (by simp [first]), if_neg due, nextFrame]
    by_cases learning : state.2 < pages
    · rw [if_pos learning] at count failures
      rw [count, if_neg (not_le.mpr few), path, List.filter_cons_of_pos (by simp [hasPages.missing])]
      exact congrArg (· + 1) failures
    · rw [if_neg learning] at count failures
      rw [count, if_pos le_rfl]
      exact failures

theorem Walked.turn (walked : Walked hasTexture pages start entry state)
    (hasPages : HasPages hasTexture start.path pages) :
    Walked hasTexture pages start (entry.turn hasTexture) (state.1, state.2 + 1) := by
  have below := Nat.mod_lt state.2 hasPages.positive
  cases Nat.lt_or_eq_of_le below with
  | inl inside => exact walked.turn_next hasPages inside
  | inr last => exact walked.turn_round hasPages last

/-- An entry follows a timer that keeps the excess. -/
theorem Walked.advance (walked : Walked hasTexture pages start entry state)
    (hasPages : HasPages hasTexture start.path pages) (timeStep : ℚ) :
    Walked hasTexture pages start (entry.advance hasTexture timeStep)
      ((Periodic.lossless (1 / start.rate)).tick state timeStep) := by
  have time : entry.timer + timeStep = state.1 + timeStep := by rw [walked.timer]
  have interval : 1 / entry.rate = 1 / start.rate := by rw [walked.rate]
  simp only [AnimatedMaterial.advance, time, interval]
  cases firing : (Periodic.lossless (1 / start.rate)).fires state.1 timeStep with
  | true =>
    have due : 1 / start.rate ≤ state.1 + timeStep := Periodic.fires_iff.mp firing
    simp only [Periodic.tick, firing, if_true]
    rw [if_neg (not_lt.mpr due), Periodic.step_firing firing]
    exact (walked.wait (state.1 + timeStep - 1 / start.rate)).turn hasPages
  | false =>
    have waits : state.1 + timeStep < 1 / start.rate :=
      not_le.mp fun due => Bool.false_ne_true (firing.symm.trans (Periodic.fires_iff.mpr due))
    simp only [Periodic.tick, firing, Bool.false_eq_true, if_false, add_zero]
    rw [if_pos waits, Periodic.step_waiting firing]
    exact walked.wait (state.1 + timeStep)

end Walked

/-- An entry of the table by itself. -/
theorem run_advance {hasTexture : String → Bool} {pages : ℕ} {start : AnimatedMaterial}
    (fresh : Walked hasTexture pages start start (0, 0)) (hasPages : HasPages hasTexture start.path pages)
    (steps : List ℚ) :
    Walked hasTexture pages start (run (advance hasTexture) start steps)
      (run (Periodic.lossless (1 / start.rate)).step 0 steps,
        (Periodic.lossless (1 / start.rate)).count 0 steps) := by
  have related := run_relates (Walked hasTexture pages start)
    (fun _ _ timeStep walked => walked.advance hasPages timeStep) fresh steps
  rwa [Periodic.run_tick, zero_add] at related

end AnimatedMaterial

/-- Every entry of the table is one that nothing has been shown of yet. -/
theorem Game.animated_create {entry : AnimatedMaterial} (member : entry ∈ Game.animated) :
    0 < entry.rate ∧ entry = .create entry.material entry.path entry.rate := by
  simp only [Game.animated, List.mem_cons, List.not_mem_nil, or_false] at member
  obtain rfl | rfl | rfl | rfl | rfl | rfl | rfl | rfl := member <;>
    exact ⟨by norm_num [AnimatedMaterial.create], rfl⟩

theorem Game.run_animate (hasTexture : String → Bool) (table : List AnimatedMaterial)
    (frames : List (GameState × ℚ)) :
    run (Game.animate hasTexture) table frames =
      table.map fun entry => run (AnimatedMaterial.advance hasTexture) entry (frames.filterMap Game.animationStep) := by
  rw [← run_map]
  exact run_filterMap Game.animationStep table frames

/-- Whatever the states of the game: the texture of a walking person goes round its pages in order.  In exact
    arithmetic it has never changed more often than the rate allows, and just as often if no frame was longer
    than a page.  The texture that is missing after the last page was asked for at most once. -/
theorem walkers_keep_pace (hasTexture : String → Bool) (frames : List (GameState × ℚ))
    (forward : ∀ frame ∈ frames, 0 ≤ frame.2) (index : ℕ) (entry : AnimatedMaterial)
    (listed : Game.animated[index]? = some entry) (pages : ℕ)
    (hasPages : AnimatedMaterial.HasPages hasTexture entry.path pages) :
    ∃ turns later, (run (Game.animate hasTexture) Game.animated frames)[index]? = some later ∧
      later.material = entry.material ∧
      later.shown.reverse = ((List.range turns).map fun turn =>
        some (AnimatedMaterial.texture entry.path (((turn + 1) % pages : ℕ) + 1))) ∧
      later.failures hasTexture = (if turns < pages then 0 else 1) ∧
      (turns : ℤ) ≤ ⌊entry.rate * Game.animationTime frames⌋ ∧
      ((∀ timeStep ∈ frames.filterMap Game.animationStep, timeStep ≤ 1 / entry.rate) →
        (turns : ℤ) = ⌊entry.rate * Game.animationTime frames⌋) := by
  obtain ⟨positive, created⟩ := Game.animated_create (List.mem_of_getElem? listed)
  have fresh : AnimatedMaterial.Walked hasTexture pages entry entry (0, 0) := by
    rw [created]
    exact AnimatedMaterial.create_walked _ _ _ hasPages.positive
  have walked := AnimatedMaterial.run_advance fresh hasPages (frames.filterMap Game.animationStep)
  have forwardSteps : ∀ timeStep ∈ frames.filterMap Game.animationStep, 0 ≤ timeStep := by
    intro timeStep member
    obtain ⟨frame, found, accepted⟩ := List.mem_filterMap.mp member
    simp only [Game.animationStep, Option.ite_none_right_eq_some, Option.some.injEq] at accepted
    rw [← accepted.2]
    exact forward frame found
  have interval : 0 < 1 / entry.rate := one_div_pos.mpr positive
  have counted := Periodic.lossless_count interval (le_refl 0) interval forwardSteps
  rw [zero_add, div_div_eq_mul_div, div_one, mul_comm] at counted
  refine ⟨_, run (AnimatedMaterial.advance hasTexture) entry (frames.filterMap Game.animationStep), ?_,
    walked.material, walked.shown, walked.failures, counted⟩
  rw [Game.run_animate, List.getElem?_map, listed]
  rfl

/-- Two long frames and some of another state, with the five textures of `Textures/maverick/forward`. -/
theorem walkers_keep_pace_forward :
    let hasTexture := fun name => ["1", "2", "3", "4", "5"].any fun page =>
      name = "Textures/maverick/forward/" ++ page ++ ".png"
    let entry := AnimatedMaterial.create "Materials/MaverickForwardAnimated.xml" "Textures/maverick/forward/" 10
    let frames := [(.menu, 1 / 10), (.dead, 1), (.playing, 1 / 4)]
    ∃ turns later, (run (Game.animate hasTexture) Game.animated frames)[0]? = some later ∧
      later.material = entry.material ∧
      later.shown.reverse = ((List.range turns).map fun turn =>
        some (AnimatedMaterial.texture entry.path (((turn + 1) % 5 : ℕ) + 1))) ∧
      later.failures hasTexture = (if turns < 5 then 0 else 1) ∧
      (turns : ℤ) ≤ ⌊entry.rate * Game.animationTime frames⌋ ∧
      ((∀ timeStep ∈ frames.filterMap Game.animationStep, timeStep ≤ 1 / entry.rate) →
        (turns : ℤ) = ⌊entry.rate * Game.animationTime frames⌋) := by
  intro hasTexture entry frames
  exact walkers_keep_pace hasTexture frames (by decide +kernel) 0 entry rfl 5
    ⟨by decide, by decide +kernel, by decide +kernel, by decide⟩

end SneakySneaky
