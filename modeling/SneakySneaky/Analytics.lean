import Mathlib.Data.List.Nodup
import Mathlib.Data.List.Range
import SneakySneaky.Foundation.RefCount
import SneakySneaky.Foundation.Runs

/-! # `Analytics`

The requests that `Analytics` has sent, which it owns by hand: a vector of raw pointers,
one `AddRef` on creation, `ReleaseRef` in `FlushEvents`.  What a request sends is left out.

A request changes its state on a thread of its own.  `SendGameEvent` reads each state
once, so a change during a sweep is one before or after it. -/

namespace SneakySneaky

open SneakySneaky.Foundation

inductive HttpRequestState where
  | initializing | error | opened | closed
  deriving DecidableEq

def HttpRequestState.finished : HttpRequestState → Bool
  | .error | .closed => true
  | .initializing | .opened => false

/-- Requests are numbered in the order of their creation; the ledger is what `Analytics` did to
    them. -/
structure Analytics where
  created : ℕ
  state : ℕ → HttpRequestState
  requests : List ℕ
  ledger : RefLedger ℕ

namespace Analytics

def create : Analytics := ⟨0, fun _ => .initializing, [], []⟩

/-- The loop over the requests, which erases the finished ones: what it keeps, and the ledger. -/
def sweep (state : ℕ → HttpRequestState) : List ℕ → RefLedger ℕ → List ℕ × RefLedger ℕ
  | [], ledger => ([], ledger)
  | request :: rest, ledger =>
    match state request with
    | .error => sweep state rest ((request, .read) :: (request, .read) :: ledger) -- `GetError`
    | .closed => sweep state rest ((request, .read) :: ledger)
    | .initializing | .opened =>
      let (kept, ledger) := sweep state rest ((request, .read) :: ledger)
      (request :: kept, ledger)

def sendGameEvent (analytics : Analytics) : Analytics :=
  let (kept, ledger) := sweep analytics.state analytics.requests analytics.ledger
  { created := analytics.created + 1
    state := analytics.state
    requests := kept ++ [analytics.created]
    ledger := (analytics.created, .addRef) :: ledger }

/-- The pointers stay in the vector. -/
def flushEvents (analytics : Analytics) : Analytics :=
  { analytics with ledger := Ledger.each .releaseRef analytics.requests ++ analytics.ledger }

/-- The destructor. -/
def destroy (analytics : Analytics) : Analytics := analytics.flushEvents

end Analytics

inductive AnalyticsEvent where
  | sendGameEvent
  | flushEvents
  | changeState (request : ℕ) (state : HttpRequestState)
  deriving DecidableEq

namespace Analytics

def step (analytics : Analytics) : AnalyticsEvent → Analytics
  | .sendGameEvent => analytics.sendGameEvent
  | .flushEvents => analytics.flushEvents
  | .changeState request state => { analytics with state := Function.update analytics.state request state }

abbrev history (analytics : Analytics) (request : ℕ) : RefHistory :=
  Ledger.history analytics.ledger request

def unfinished (analytics : Analytics) (request : ℕ) : Bool := !(analytics.state request).finished

/-! ## The sweep -/

theorem sweep_kept (state : ℕ → HttpRequestState) (requests : List ℕ) (ledger : RefLedger ℕ) :
    (sweep state requests ledger).1 = requests.filter fun request => !(state request).finished := by
  induction requests generalizing ledger with
  | nil => rfl
  | cons request rest inductionHypothesis =>
    cases found : state request <;>
      simp [sweep, found, HttpRequestState.finished, inductionHypothesis]

/-- The sweep only reads, and reads every stored request. -/
theorem sweep_reads (state : ℕ → HttpRequestState) (requests : List ℕ) (ledger : RefLedger ℕ) (request : ℕ) :
    ∃ reads, requests.count request ≤ reads ∧ (request ∉ requests → reads = 0) ∧
      Ledger.history (sweep state requests ledger).2 request =
        List.replicate reads .read ++ Ledger.history ledger request := by
  induction requests generalizing ledger with
  | nil => exact ⟨0, Nat.le_refl 0, fun _ => rfl, rfl⟩
  | cons head rest inductionHypothesis =>
    -- The head is read once, or twice when it is in error.
    have split : ∃ times, 0 < times ∧ (sweep state (head :: rest) ledger).2 =
        (sweep state rest (List.replicate times (head, .read) ++ ledger)).2 := by
      cases found : state head with
      | error => exact ⟨2, by decide, by simp [sweep, found]⟩
      | closed | initializing | opened => exact ⟨1, by decide, by simp [sweep, found]⟩
    obtain ⟨times, positive, swept⟩ := split
    obtain ⟨reads, enough, absent, same⟩ := inductionHypothesis (List.replicate times (head, .read) ++ ledger)
    have headReads : Ledger.history (List.replicate times (head, RefOp.read)) request =
        List.replicate (if head = request then times else 0) .read := by
      by_cases isHead : head = request
      · simp [Ledger.history, isHead]
      · simp [Ledger.history, isHead]
    refine ⟨reads + if head = request then times else 0, ?_, ?_, ?_⟩
    · by_cases isHead : head = request
      · subst isHead
        simp only [List.count_cons_self, if_pos]
        omega
      · rw [List.count_cons_of_ne isHead]
        omega
    · intro missing
      rw [List.mem_cons, not_or] at missing
      rw [absent missing.2, if_neg (Ne.symm missing.1)]
    · rw [swept, same, Ledger.history_append, headReads, ← List.append_assoc, List.replicate_append_replicate]

theorem sendGameEvent_requests (analytics : Analytics) :
    analytics.sendGameEvent.requests = analytics.requests.filter analytics.unfinished ++ [analytics.created] := by
  simp only [sendGameEvent, sweep_kept]
  rfl

theorem sendGameEvent_history (analytics : Analytics) {request : ℕ} (old : request ≠ analytics.created) :
    ∃ reads, analytics.requests.count request ≤ reads ∧
      analytics.sendGameEvent.history request = List.replicate reads .read ++ analytics.history request := by
  obtain ⟨reads, enough, -, same⟩ := sweep_reads analytics.state analytics.requests analytics.ledger request
  refine ⟨reads, enough, ?_⟩
  rw [← same]
  exact Ledger.history_cons_other (Ne.symm old) _ _

theorem sendGameEvent_history_new (analytics : Analytics) (stored : analytics.created ∉ analytics.requests) :
    analytics.sendGameEvent.history analytics.created = .addRef :: analytics.history analytics.created := by
  obtain ⟨reads, -, absent, same⟩ :=
    sweep_reads analytics.state analytics.requests analytics.ledger analytics.created
  rw [absent stored] at same
  exact (Ledger.history_cons_self _ _ _).trans (congrArg _ same)

theorem flushEvents_history (analytics : Analytics) (request : ℕ) :
    analytics.flushEvents.history request =
      List.replicate (analytics.requests.count request) .releaseRef ++ analytics.history request := by
  simp only [history, flushEvents, Ledger.history_append, Ledger.history_each]

/-! ## Ownership -/

/-- Every request made so far is stored, and holds the one reference of `Analytics`. -/
structure Owned (analytics : Analytics) : Prop where
  requests : analytics.requests = List.range analytics.created
  added : ∀ request < analytics.created, (analytics.history request).count .addRef = 1
  released : ∀ request < analytics.created, (analytics.history request).count .releaseRef = 0
  sane : ∀ request < analytics.created, (analytics.history request).Sane
  fresh : ∀ request, analytics.created ≤ request → analytics.history request = []

/-- Nothing is swept away, and nothing is released while it is stored. -/
def Allowed (analytics : Analytics) : AnalyticsEvent → Prop
  | .sendGameEvent => ∀ request ∈ analytics.requests, analytics.unfinished request = true
  | .flushEvents => analytics.requests = []
  | .changeState _ _ => True

/-- Some request can no longer be accounted for: it was leaked, misused, or will be. -/
def Doomed (analytics : Analytics) : Prop :=
  ∃ request < analytics.created,
    (request ∉ analytics.requests ∧ (analytics.history request).count .releaseRef = 0) ∨
      ¬ (analytics.history request).Sane ∨
        (request ∈ analytics.requests ∧ (analytics.history request).refs = 0)

theorem create_owned : Owned create :=
  ⟨rfl, fun _ none => absurd none (Nat.not_lt_zero _), fun _ none => absurd none (Nat.not_lt_zero _),
    fun _ none => absurd none (Nat.not_lt_zero _), fun _ _ => rfl⟩

theorem Owned.refs {analytics : Analytics} (owned : Owned analytics) {request : ℕ}
    (made : request < analytics.created) : (analytics.history request).refs = 1 := by
  have balance := (owned.sane request made).refs_add_released
  rw [owned.released request made, owned.added request made] at balance
  exact balance

theorem Owned.mem_iff {analytics : Analytics} (owned : Owned analytics) {request : ℕ} :
    request ∈ analytics.requests ↔ request < analytics.created := by
  rw [owned.requests, List.mem_range]

theorem Owned.count {analytics : Analytics} (owned : Owned analytics) {request : ℕ}
    (made : request < analytics.created) : analytics.requests.count request = 1 := by
  rw [owned.requests]
  exact List.count_eq_one_of_mem List.nodup_range (List.mem_range.mpr made)

theorem Owned.sendGameEvent {analytics : Analytics} (owned : Owned analytics)
    (unfinished : ∀ request ∈ analytics.requests, analytics.unfinished request = true) :
    Owned analytics.sendGameEvent := by
  have missing : analytics.created ∉ analytics.requests := fun stored =>
    Nat.lt_irrefl _ (owned.mem_iff.mp stored)
  have new : analytics.sendGameEvent.history analytics.created = [.addRef] := by
    rw [sendGameEvent_history_new analytics missing, owned.fresh _ (Nat.le_refl _)]
  -- The requests before are read, the new one gets its reference.
  have cases_lt : ∀ {request}, request < analytics.sendGameEvent.created →
      request = analytics.created ∨ request < analytics.created ∧ ∃ reads,
        analytics.sendGameEvent.history request = List.replicate reads .read ++ analytics.history request := by
    intro request made
    rcases Nat.eq_or_lt_of_le (Nat.le_of_lt_succ made) with same | older
    · exact .inl same
    · obtain ⟨reads, -, read⟩ := sendGameEvent_history analytics (Nat.ne_of_lt older)
      exact .inr ⟨older, reads, read⟩
  constructor
  · rw [sendGameEvent_requests, List.filter_eq_self.mpr unfinished, owned.requests]
    exact List.range_succ.symm
  · intro request made
    rcases cases_lt made with rfl | ⟨older, reads, read⟩
    · rw [new]
      rfl
    · rw [read, List.count_append, owned.added request older]
      simp [List.count_replicate]
  · intro request made
    rcases cases_lt made with rfl | ⟨older, reads, read⟩
    · rw [new]
      rfl
    · rw [read, List.count_append, owned.released request older]
      simp [List.count_replicate]
  · intro request made
    rcases cases_lt made with rfl | ⟨older, reads, read⟩
    · rw [new]
      exact ⟨.inl rfl, trivial⟩
    · rw [read]
      exact (owned.sane request older).reads (by rw [owned.refs older]; exact Nat.one_pos) reads
  · intro request unmade
    have later : analytics.created < request := unmade
    obtain ⟨reads, -, absent, read⟩ :=
      sweep_reads analytics.state analytics.requests analytics.ledger request
    have unread : reads = 0 := absent fun stored => Nat.lt_asymm later (owned.mem_iff.mp stored)
    rw [unread] at read
    exact (Ledger.history_cons_other (Nat.ne_of_lt later) _ _).trans
      (read.trans (owned.fresh request (Nat.le_of_lt later)))

theorem Owned.step {analytics : Analytics} {event : AnalyticsEvent} (owned : Owned analytics)
    (allowed : Allowed analytics event) : Owned (analytics.step event) := by
  cases event with
  | sendGameEvent => exact owned.sendGameEvent allowed
  | flushEvents =>
    have unchanged : analytics.flushEvents = analytics := by
      obtain ⟨created, state, requests, ledger⟩ := analytics
      have empty : requests = [] := allowed
      subst empty
      rfl
    rw [Analytics.step, unchanged]
    exact owned
  | changeState request state =>
    exact ⟨owned.requests, owned.added, owned.released, owned.sane, owned.fresh⟩

/-- The destructor releases what is owned. -/
theorem Owned.destroy {analytics : Analytics} (owned : Owned analytics) {request : ℕ}
    (made : request < analytics.created) : (analytics.destroy.history request).Balanced := by
  have released : analytics.destroy.history request = .releaseRef :: analytics.history request := by
    rw [Analytics.destroy, flushEvents_history, owned.count made]
    rfl
  rw [released]
  constructor
  · simpa using owned.added request made
  · simpa using owned.released request made
  · exact ⟨by rw [owned.refs made]; exact Nat.one_pos, owned.sane request made⟩

/-! ## A request that is lost stays lost -/

theorem Doomed.of_not_allowed {analytics : Analytics} {event : AnalyticsEvent} (owned : Owned analytics)
    (violated : ¬ Allowed analytics event) : Doomed (analytics.step event) := by
  cases event with
  | sendGameEvent =>
    simp only [Allowed, not_forall] at violated
    obtain ⟨request, stored, finished⟩ := violated
    have made := owned.mem_iff.mp stored
    -- The finished request is erased with its reference unreleased.
    refine ⟨request, Nat.lt_succ_of_lt made, .inl ⟨?_, ?_⟩⟩
    · intro kept
      rw [Analytics.step, sendGameEvent_requests, List.mem_append, List.mem_filter, List.mem_singleton] at kept
      exact kept.elim (fun kept => finished kept.2) (Nat.ne_of_lt made)
    · obtain ⟨reads, -, read⟩ := sendGameEvent_history analytics (Nat.ne_of_lt made)
      rw [Analytics.step, read, List.count_append, owned.released request made]
      simp [List.count_replicate]
  | flushEvents =>
    obtain ⟨request, stored⟩ := List.exists_mem_of_ne_nil _ violated
    have made := owned.mem_iff.mp stored
    refine ⟨request, made, .inr (.inr ⟨stored, ?_⟩)⟩
    rw [Analytics.step, flushEvents_history, owned.count made]
    change (analytics.history request).refs - 1 = 0
    rw [owned.refs made]
  | changeState request state => exact absurd trivial violated

theorem Doomed.flushEvents {analytics : Analytics} (doomed : Doomed analytics) :
    ∃ request < analytics.created,
      (request ∉ analytics.requests ∧ (analytics.flushEvents.history request).count .releaseRef = 0) ∨
        ¬ (analytics.flushEvents.history request).Sane := by
  obtain ⟨request, made, ⟨erased, unreleased⟩ | insane | ⟨stored, dead⟩⟩ := doomed
  · refine ⟨request, made, .inl ⟨erased, ?_⟩⟩
    rw [flushEvents_history, List.count_eq_zero_of_not_mem erased]
    exact unreleased
  · refine ⟨request, made, .inr ?_⟩
    rw [flushEvents_history]
    exact fun sane => insane sane.of_append
  · refine ⟨request, made, .inr ?_⟩
    rw [flushEvents_history]
    exact RefHistory.not_sane_of_release dead (List.count_pos_iff.mpr stored)

theorem Doomed.sendGameEvent {analytics : Analytics} (doomed : Doomed analytics) :
    Doomed analytics.sendGameEvent := by
  obtain ⟨request, made, lost⟩ := doomed
  obtain ⟨reads, enough, read⟩ := sendGameEvent_history analytics (Nat.ne_of_lt made)
  refine ⟨request, Nat.lt_succ_of_lt made, ?_⟩
  rw [read]
  rcases lost with ⟨erased, unreleased⟩ | insane | ⟨stored, dead⟩
  · refine .inl ⟨?_, ?_⟩
    · intro kept
      rw [sendGameEvent_requests, List.mem_append, List.mem_filter, List.mem_singleton] at kept
      exact kept.elim (fun kept => erased kept.1) (Nat.ne_of_lt made)
    · rw [List.count_append, unreleased]
      simp [List.count_replicate]
  · exact .inr (.inl fun sane => insane sane.of_append)
  · have read_once : 0 < reads := Nat.lt_of_lt_of_le (List.count_pos_iff.mpr stored) enough
    exact .inr (.inl (RefHistory.not_sane_of_read dead read_once))

theorem Doomed.step {analytics : Analytics} (doomed : Doomed analytics) (event : AnalyticsEvent) :
    Doomed (analytics.step event) := by
  cases event with
  | sendGameEvent => exact doomed.sendGameEvent
  | flushEvents =>
    obtain ⟨request, made, leaked | insane⟩ := doomed.flushEvents
    · exact ⟨request, made, .inl leaked⟩
    · exact ⟨request, made, .inr (.inl insane)⟩
  | changeState request state => exact doomed

theorem Doomed.not_balanced {analytics : Analytics} (doomed : Doomed analytics) :
    ¬ ∀ request < analytics.created, (analytics.destroy.history request).Balanced := by
  intro balanced
  obtain ⟨request, made, ⟨-, unreleased⟩ | insane⟩ := doomed.flushEvents
  · have released := (balanced request made).released
    rw [Analytics.destroy, unreleased] at released
    cases released
  · exact insane (balanced request made).sane

/-- As long as every event is allowed everything is owned; from the first that is not, a request is
    lost. -/
theorem owned_or_doomed {analytics : Analytics} (owned : Owned analytics) (events : List AnalyticsEvent) :
    Meets step Allowed analytics events ∧ Owned (run step analytics events) ∨
      ¬ Meets step Allowed analytics events ∧ Doomed (run step analytics events) := by
  induction events generalizing analytics with
  | nil => exact .inl ⟨trivial, owned⟩
  | cons event events inductionHypothesis =>
    by_cases allowed : Allowed analytics event
    · rcases inductionHypothesis (owned.step allowed) with ⟨meets, still⟩ | ⟨fails, lost⟩
      · exact .inl ⟨⟨allowed, meets⟩, still⟩
      · exact .inr ⟨fun meets => fails meets.2, lost⟩
    · refine .inr ⟨fun meets => allowed meets.1, ?_⟩
      exact run_invariant Doomed (fun _ later doomed => doomed.step later)
        (Doomed.of_not_allowed owned allowed) events

end Analytics

/-! ## Accounting -/

/-- Every request gets one reference and gives it back, none is used without one, and a sweep keeps
    exactly the unfinished requests before the new one. -/
def AnalyticsAccounts (events : List AnalyticsEvent) : Prop :=
  (∀ request < (run Analytics.step Analytics.create events).created,
      ((run Analytics.step Analytics.create events).destroy.history request).Balanced) ∧
    ∀ before after, events = before ++ .sendGameEvent :: after →
      let analytics := run Analytics.step Analytics.create before
      (analytics.step .sendGameEvent).requests =
        analytics.requests.filter analytics.unfinished ++ [analytics.created]

/-- The references are accounted for exactly when no event is sent while a finished request is stored,
    and nothing is flushed before the destructor does it while any is. -/
theorem analytics_accounts_iff (events : List AnalyticsEvent) :
    AnalyticsAccounts events ↔ Meets Analytics.step Analytics.Allowed Analytics.create events := by
  have outcome := Analytics.owned_or_doomed Analytics.create_owned events
  constructor
  · intro accounts
    rcases outcome with ⟨meets, -⟩ | ⟨-, doomed⟩
    · exact meets
    · exact absurd accounts.1 doomed.not_balanced
  · intro meets
    rcases outcome with ⟨-, owned⟩ | ⟨fails, -⟩
    · exact ⟨fun request made => owned.destroy made,
        fun before _ _ => Analytics.sendGameEvent_requests (run Analytics.step Analytics.create before)⟩
    · exact absurd meets fails

/-- A request that is closed when the next event is sent is erased and never released. -/
theorem finished_request_leaks :
    ¬ AnalyticsAccounts [.sendGameEvent, .changeState 0 .closed, .sendGameEvent] := by
  intro accounts
  exact absurd (accounts.1 0 (by decide)).released (by decide)

end SneakySneaky
