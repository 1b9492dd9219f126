import Mathlib.Algebra.Group.Prod
import SneakySneaky.Analytics
import SneakySneaky.Scores

/-! # What the game reports

The events that `Analytics` is sent: one when the game is launched, one for each level that
`EndLevel` ends without suppressing the score, and one by the callback of the crash handler,
after which the process is gone.  The totals of the game can be told from them, but for the
levels that a defeated boss has ended.  Times and scores are those of exact arithmetic, and a
time can be told as far as its text reads back. -/

namespace SneakySneaky

open SneakySneaky.Foundation

/-! ## Reports -/

/-- The texts in the data of an event: the engine's for numbers and positions, and those of the build. -/
structure Texts where
  ofFloat : ℚ → String
  ofVector : Vector3 → String
  compileDate : String
  compileTime : String
  platform : String
  generator : String
  compiler : String

/-- The calls of `SendLaunchEvent`, `SendLevelCompletedEvent`, `SendLevelFailedEvent` and `SendCrashEvent`. -/
inductive Report where
  | launch
  | levelCompleted (level : ℤ) (levelTime : ℚ) (guardCount pickupCount : ℕ) (score : ℤ)
  | levelFailed (level : ℤ) (levelTime : ℚ) (guardCount pickupCount : ℕ) (playerPosition : Vector3)
  | crash (id : String)
  deriving DecidableEq

/-- The JSON that a request posts. -/
structure EventJson where
  event : String
  data : List (String × String)
  deriving DecidableEq

namespace Report

def json (texts : Texts) : Report → EventJson
  | .launch =>
    ⟨"launch",
      [("compile-date", texts.compileDate), ("compile-time", texts.compileTime), ("platform", texts.platform),
        ("generator", texts.generator), ("compiler", texts.compiler)]⟩
  | .levelCompleted level levelTime guardCount pickupCount score =>
    ⟨"level-complete",
      [("level", toString level), ("level-time", texts.ofFloat levelTime), ("guard-count", toString guardCount),
        ("pickup-count", toString pickupCount), ("score", toString score)]⟩
  | .levelFailed level levelTime guardCount pickupCount playerPosition =>
    ⟨"level-failed",
      [("level", toString level), ("level-time", texts.ofFloat levelTime), ("guard-count", toString guardCount),
        ("pickup-count", toString pickupCount), ("player-position", texts.ofVector playerPosition)]⟩
  | .crash id => ⟨"crash", [("id", id)]⟩

/-- Time and score of the level that a report is about; for a failed level the score is worked out. -/
def gain : Report → ℚ × ℤ
  | .levelCompleted _ levelTime _ _ score => (levelTime, score)
  | .levelFailed _ levelTime guardCount pickupCount _ =>
    (levelTime, Game.toInt (((300 - levelTime) + guardCount * -100 + pickupCount * 50) * 5))
  | .launch | .crash _ => 0

/-- The time that the text of a report is of. -/
def levelTime : Report → Option ℚ
  | .levelCompleted _ levelTime _ _ _ | .levelFailed _ levelTime _ _ _ => some levelTime
  | .launch | .crash _ => none

/-- The player died in the level that a report is about. -/
def died : Report → Option Bool
  | .levelCompleted _ _ _ _ _ => some false
  | .levelFailed _ _ _ _ _ => some true
  | .launch | .crash _ => none

end Report

namespace EventJson

def value (posted : EventJson) (key : String) : String :=
  ((posted.data.find? fun item => item.1 = key).map Prod.snd).getD ""

def count (posted : EventJson) (key : String) : ℤ := (posted.value key).toInt?.getD 0

/-- Time and score of a level as they can be told from what was posted, given how the text of a time reads. -/
def tells (readFloat : String → ℚ) (posted : EventJson) : ℚ × ℤ :=
  let time := readFloat (posted.value "level-time")
  if posted.event = "level-complete" then (time, posted.count "score")
  else if posted.event = "level-failed" then
    (time, Game.toInt (((300 - time) + posted.count "guard-count" * -100 + posted.count "pickup-count" * 50) * 5))
  else 0

end EventJson

namespace Report

/-- The text of the time in a report reads back. -/
def Readable (texts : Texts) (readFloat : String → ℚ) (report : Report) : Prop :=
  ∀ time ∈ report.levelTime, readFloat (texts.ofFloat time) = time

instance (texts : Texts) (readFloat : String → ℚ) (report : Report) : Decidable (report.Readable texts readFloat) :=
  inferInstanceAs (Decidable (∀ time ∈ report.levelTime, readFloat (texts.ofFloat time) = time))

theorem json_tells {texts : Texts} {readFloat : String → ℚ} {report : Report}
    (readable : report.Readable texts readFloat) : (report.json texts).tells readFloat = report.gain := by
  cases report with
  | launch | crash id => rfl
  | levelCompleted level levelTime guardCount pickupCount score =>
    have time : readFloat (texts.ofFloat levelTime) = levelTime := readable levelTime rfl
    simp [EventJson.tells, EventJson.value, EventJson.count, json, gain, time]
  | levelFailed level levelTime guardCount pickupCount playerPosition =>
    have time : readFloat (texts.ofFloat levelTime) = levelTime := readable levelTime rfl
    simp [EventJson.tells, EventJson.value, EventJson.count, json, gain, time]

end Report

/-- The player died in the level, for a call of `EndLevel` with a score. -/
def Call.died : Call → Option Bool
  | .endLevel _ call => if call.suppressScore then none else some call.died
  | .loadLevel | .play _ => none

namespace EndLevelCall

/-- What `EndLevel` sends, with the player where it finds it. -/
def report (playerPosition : Vector3) (call : EndLevelCall) : Option Report :=
  call.state.scene.level.bind fun level =>
    let guardCount := level.guards.count true
    let pickupCount := level.items.inventory.itemCount
    if call.call.suppressScore then none
    else if call.call.died then
      some (.levelFailed call.state.currentLevel call.state.levelTime guardCount pickupCount playerPosition)
    else
      some (.levelCompleted call.state.currentLevel call.state.levelTime guardCount pickupCount
        (Game.score call.state.levelTime level))

/-- Time and score that the call adds to the totals. -/
def gain (call : EndLevelCall) : ℚ × ℤ :=
  match call.state.scene.level with
  | none => 0
  | some level => (call.state.levelTime, Game.score call.state.levelTime level)

end EndLevelCall

/-! ## The game, its requests and its crash handler -/

/-- `posted` is what the requests post, newest first; `crashed` is set by the callback of the crash handler. -/
structure Telemetry where
  game : Game
  analytics : Analytics
  posted : List EventJson
  crashed : Bool

/-- The player is where the event finds it, and requests change their states on their own. -/
inductive TelemetryEvent where
  | game (event : Event) (playerPosition : Vector3)
  | changeState (request : ℕ) (state : HttpRequestState)
  | minidump (id : String)

namespace Telemetry

def sendGameEvent (texts : Texts) (telemetry : Telemetry) (report : Report) : Telemetry :=
  { telemetry with
    analytics := telemetry.analytics.sendGameEvent
    posted := report.json texts :: telemetry.posted }

/-- `Start`. -/
def create (texts : Texts) : Telemetry := sendGameEvent texts ⟨.create, .create, [], false⟩ .launch

/-- What `EndLevel` sends in an event, which calls it once at most. -/
def endLevelReport (world : World) (game : Game) (event : Event) (playerPosition : Vector3) : Option Report :=
  (game.endLevelCalls world event).head?.bind (·.report playerPosition)

def step (world : World) (texts : Texts) (telemetry : Telemetry) (event : TelemetryEvent) : Telemetry :=
  if telemetry.crashed then telemetry
  else
    match event with
    | .game event playerPosition =>
      let sent := (endLevelReport world telemetry.game event playerPosition).elim telemetry
        (sendGameEvent texts telemetry)
      { sent with game := telemetry.game.step world event }
    | .changeState request state =>
      { telemetry with analytics := telemetry.analytics.step (.changeState request state) }
    | .minidump id =>
      let sent := sendGameEvent texts telemetry (.crash id)
      { sent with analytics := sent.analytics.flushEvents, crashed := true }

/-! ## What the events of a run come to -/

/-- What an event sends. -/
def sends (world : World) (telemetry : Telemetry) (event : TelemetryEvent) : Option Report :=
  if telemetry.crashed then none
  else
    match event with
    | .game event playerPosition => endLevelReport world telemetry.game event playerPosition
    | .changeState _ _ => none
    | .minidump id => some (.crash id)

/-- The event of the game that is handled. -/
def handles (telemetry : Telemetry) : TelemetryEvent → Option Event
  | .game event _ => if telemetry.crashed then none else some event
  | .changeState _ _ | .minidump _ => none

/-- What the calls of `EndLevel` with a suppressed score add. -/
def unreported (world : World) (telemetry : Telemetry) (event : TelemetryEvent) : ℚ × ℤ :=
  (telemetry.handles event).elim 0 fun event =>
    (((telemetry.game.endLevelCalls world event).filter (·.call.suppressScore)).map EndLevelCall.gain).sum

end Telemetry

/-! ## Calls and their reports -/

namespace EndLevelCall

/-- A call adds what it reports, unless it keeps quiet about it. -/
theorem gain_eq (call : EndLevelCall) (playerPosition : Vector3) :
    call.gain = (call.report playerPosition).elim 0 Report.gain + if call.call.suppressScore then call.gain else 0 := by
  cases found : call.state.scene.level with
  | none => simp [gain, report, found]
  | some level =>
    cases quiet : call.call.suppressScore with
    | true => simp [report, found, quiet]
    | false =>
      cases dead : call.call.died with
      | true => simp [gain, report, found, quiet, dead, Report.gain, Game.score]
      | false => simp [gain, report, found, quiet, dead, Report.gain]

theorem addTo_gain (totals : Totals) (call : EndLevelCall) :
    ((addTo totals call).time, (addTo totals call).score) = (totals.time, totals.score) + call.gain := by
  cases found : call.state.scene.level with
  | none => simp [addTo, gain, found]
  | some level => simp [addTo, gain, found]

theorem addTo_died (totals : Totals) (call : EndLevelCall) (playerPosition : Vector3) :
    (addTo totals call).ends.filterMap Call.died =
      ((call.report playerPosition).bind Report.died).toList ++ totals.ends.filterMap Call.died := by
  cases found : call.state.scene.level with
  | none => simp [addTo, report, found]
  | some level =>
    cases quiet : call.call.suppressScore with
    | true => simp [addTo, report, found, quiet, Call.died]
    | false =>
      cases dead : call.call.died with
      | true => simp [addTo, report, found, quiet, dead, Call.died, Report.died]
      | false => simp [addTo, report, found, quiet, dead, Call.died, Report.died]

end EndLevelCall

namespace Telemetry

variable {world : World} {texts : Texts}

theorem endLevelReport_gain (world : World) (game : Game) (event : Event) (playerPosition : Vector3) :
    ((game.step world event).totalTime, (game.step world event).totalScore) =
      (game.totalTime, game.totalScore) +
        ((endLevelReport world game event playerPosition).elim 0 Report.gain +
          (((game.endLevelCalls world event).filter (·.call.suppressScore)).map EndLevelCall.gain).sum) := by
  have totals := Game.step_totals world game event
  have sums : ((game.step world event).totalTime, (game.step world event).totalScore) =
      (((game.endLevelCalls world event).foldl EndLevelCall.addTo game.totals).time,
        ((game.endLevelCalls world event).foldl EndLevelCall.addTo game.totals).score) :=
    Prod.ext (congrArg Totals.time totals) (congrArg Totals.score totals)
  rw [sums, endLevelReport]
  rcases Game.endLevelCalls_length world game event with none | ⟨call, one⟩
  · simp [none, Game.totals]
  · have reported := call.gain_eq playerPosition
    rw [one, List.foldl_cons, List.foldl_nil, EndLevelCall.addTo_gain, reported]
    cases quiet : call.call.suppressScore with
    | true => simp [quiet, Game.totals]
    | false => simp [quiet, Game.totals]

theorem ends_died (game : Game) : game.totals.ends.filterMap Call.died = game.calls.filterMap Call.died := by
  rw [Game.totals, List.filterMap_filter]
  refine List.filterMap_congr fun call _ => ?_
  cases call with
  | endLevel caller call => rfl
  | loadLevel | play source => rfl

theorem endLevelReport_died (world : World) (game : Game) (event : Event) (playerPosition : Vector3) :
    (game.step world event).calls.filterMap Call.died =
      ((endLevelReport world game event playerPosition).bind Report.died).toList ++ game.calls.filterMap Call.died := by
  rw [← ends_died, ← ends_died, Game.step_totals, endLevelReport]
  rcases Game.endLevelCalls_length world game event with none | ⟨call, one⟩
  · simp [none]
  · simp [one, call.addTo_died game.totals playerPosition]

/-- The game goes on by the events it handles, and each report is posted by a request of its own. -/
theorem step_spec (telemetry : Telemetry) (event : TelemetryEvent) :
    (telemetry.step world texts event).game =
        (telemetry.handles event).elim telemetry.game (telemetry.game.step world) ∧
      (telemetry.step world texts event).posted =
        (telemetry.sends world event).elim telemetry.posted (·.json texts :: telemetry.posted) ∧
      (telemetry.step world texts event).analytics.created =
        (telemetry.sends world event).elim telemetry.analytics.created fun _ => telemetry.analytics.created + 1 := by
  cases crashed : telemetry.crashed with
  | true => cases event <;> simp [step, handles, sends, crashed]
  | false =>
    cases event with
    | game event playerPosition =>
      cases report : endLevelReport world telemetry.game event playerPosition with
      | none => simp [step, handles, sends, crashed, report]
      | some sent => simp [step, handles, sends, crashed, report, sendGameEvent, Analytics.sendGameEvent]
    | changeState request state => simp [step, handles, sends, crashed, Analytics.step]
    | minidump id =>
      simp [step, handles, sends, crashed, sendGameEvent, Analytics.sendGameEvent, Analytics.flushEvents]

/-- Every post has a request of its own. -/
theorem step_created {telemetry : Telemetry} (event : TelemetryEvent)
    (counted : telemetry.analytics.created = telemetry.posted.length) :
    (telemetry.step world texts event).analytics.created = (telemetry.step world texts event).posted.length := by
  rw [(step_spec telemetry event).2.1, (step_spec telemetry event).2.2]
  cases telemetry.sends world event with
  | none => exact counted
  | some report => exact congrArg (· + 1) counted

theorem step_gain (telemetry : Telemetry) (event : TelemetryEvent) :
    ((telemetry.step world texts event).game.totalTime, (telemetry.step world texts event).game.totalScore) =
      (telemetry.game.totalTime, telemetry.game.totalScore) +
        ((telemetry.sends world event).elim 0 Report.gain + telemetry.unreported world event) := by
  rw [(step_spec telemetry event).1]
  cases crashed : telemetry.crashed with
  | true => cases event <;> simp [handles, sends, unreported, crashed]
  | false =>
    cases event with
    | game event playerPosition =>
      simp only [handles, sends, unreported, crashed, Bool.false_eq_true, if_false, Option.elim_some]
      exact endLevelReport_gain world telemetry.game event playerPosition
    | changeState request state => simp [handles, sends, unreported, crashed]
    | minidump id => simp [handles, sends, unreported, crashed, Report.gain]

theorem step_died (telemetry : Telemetry) (event : TelemetryEvent) :
    (telemetry.step world texts event).game.calls.filterMap Call.died =
      (telemetry.sends world event).elim (telemetry.game.calls.filterMap Call.died) fun report =>
        report.died.elim (telemetry.game.calls.filterMap Call.died)
          (· :: telemetry.game.calls.filterMap Call.died) := by
  rw [(step_spec telemetry event).1]
  cases crashed : telemetry.crashed with
  | true => cases event <;> simp [handles, sends, crashed]
  | false =>
    cases event with
    | game event playerPosition =>
      simp only [handles, sends, crashed, Bool.false_eq_true, if_false, Option.elim_some]
      rw [endLevelReport_died world telemetry.game event playerPosition]
      cases endLevelReport world telemetry.game event playerPosition with
      | none => rfl
      | some report =>
        cases dead : report.died with
        | none => simp [dead]
        | some died => simp [dead]
    | changeState request state => simp [handles, sends, crashed]
    | minidump id => simp [handles, sends, crashed, Report.died]

end Telemetry

/-- In every run, each call of `EndLevel` with a score has sent one report, in order, after the one of the launch, and
    each report was posted by a request of its own.  In exact arithmetic the time and the score of the game are those
    of the levels reported, as the posts tell them if the texts of the times read back, and of the levels that were
    ended without a report. -/
theorem reports_account_for_totals (world : World) (texts : Texts) (events : List TelemetryEvent) :
    let step := Telemetry.step world texts
    let start := Telemetry.create texts
    let telemetry := run step start events
    let reports := .launch :: projection step (Telemetry.sends world) start events
    telemetry.game = run (Game.step world) .create (projection step Telemetry.handles start events) ∧
      telemetry.posted.reverse = reports.map (Report.json texts) ∧
      telemetry.analytics.created = reports.length ∧
      (telemetry.game.calls.filterMap Call.died).reverse = reports.filterMap Report.died ∧
      (telemetry.game.totalTime, telemetry.game.totalScore) =
        (reports.map Report.gain).sum + tally step (Telemetry.unreported world) start events ∧
      ∀ readFloat, (∀ report ∈ reports, report.Readable texts readFloat) →
        (telemetry.game.totalTime, telemetry.game.totalScore) =
          (telemetry.posted.reverse.map (EventJson.tells readFloat)).sum +
            tally step (Telemetry.unreported world) start events := by
  intro step start telemetry reports
  have posted : telemetry.posted.reverse = reports.map (Report.json texts) := by
    have written : telemetry.posted = run (fun posted (report : Report) => report.json texts :: posted) start.posted
        (projection step (Telemetry.sends world) start events) :=
      run_projection Telemetry.posted (fun telemetry event => (Telemetry.step_spec telemetry event).2.1) start events
    rw [written, run_written, List.reverse_append, List.reverse_reverse]
    rfl
  have created : telemetry.analytics.created = telemetry.posted.length :=
    run_invariant (fun telemetry : Telemetry => telemetry.analytics.created = telemetry.posted.length)
      (fun telemetry event counted => Telemetry.step_created event counted) rfl events
  have died : telemetry.game.calls.filterMap Call.died =
      run (fun written died => died :: written) [] ((projection step (Telemetry.sends world) start events).filterMap
        Report.died) :=
    (run_projection (fun telemetry : Telemetry => telemetry.game.calls.filterMap Call.died) Telemetry.step_died start
      events).trans (run_filterMap Report.died [] _)
  have totals : (telemetry.game.totalTime, telemetry.game.totalScore) =
      (0, 0) + tally step (fun telemetry event =>
        (telemetry.sends world event).elim 0 Report.gain + telemetry.unreported world event) start events :=
    run_eq_add_tally (fun telemetry : Telemetry => (telemetry.game.totalTime, telemetry.game.totalScore)) _
      (fun _ => True) (fun _ _ _ => trivial) (fun telemetry event _ => Telemetry.step_gain telemetry event) trivial
      events
  have sums : (telemetry.game.totalTime, telemetry.game.totalScore) =
      (reports.map Report.gain).sum + tally step (Telemetry.unreported world) start events := by
    rw [totals, tally_add, ← sum_projection, List.map_cons, List.sum_cons, ← add_assoc]
    rfl
  refine ⟨?_, posted, ?_, ?_, sums, fun readFloat readable => ?_⟩
  · exact run_projection Telemetry.game (fun telemetry event => (Telemetry.step_spec telemetry event).1) start events
  · rw [created, ← List.length_reverse, posted, List.length_map]
  · rw [died, run_written (fun died => died), List.map_id', List.append_nil, List.reverse_reverse]
    rfl
  · have told : (reports.map (Report.json texts)).map (EventJson.tells readFloat) = reports.map Report.gain := by
      rw [List.map_map]
      exact List.map_congr_left fun report member => Report.json_tells (readable report member)
    rw [posted, told, sums]

open WrightLevel in
/-- The player runs into the guard two seconds into the level. -/
theorem reports_account_for_totals_caught :
    let texts : Texts := ⟨fun _ => "2", fun _ => "0 0 0", "", "", "", "", ""⟩
    let events := (enterLevel ++ [Event.level .beginPhysicsStep] ++ touchGuard).map
      (TelemetryEvent.game · .zero) ++ [.minidump "42"]
    let telemetry := run (Telemetry.step (world allSounds) texts) (.create texts) events
    telemetry.posted.map EventJson.event = ["crash", "level-failed", "launch"] ∧
      (telemetry.game.totalTime, telemetry.game.totalScore) =
        (telemetry.posted.reverse.map (EventJson.tells fun _ => 2)).sum +
          tally (Telemetry.step (world allSounds) texts) (Telemetry.unreported (world allSounds)) (.create texts)
            events := by
  intro texts events telemetry
  have accounts := reports_account_for_totals (world allSounds) texts events
  exact ⟨by decide +kernel, accounts.2.2.2.2.2 (fun _ => 2) (by decide +kernel)⟩

end SneakySneaky
