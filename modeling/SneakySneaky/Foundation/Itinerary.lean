import Mathlib.Data.List.Chain
import Mathlib.Data.Stream.Init
import Mathlib.Logic.Relation

/-! # Itineraries

A traveller has a list of points ahead, uses it up from the front, and may be given another
list at any time.  An itinerary keeps every list as a leg: where it came from, the points of
it that were reached, and the points left.  If one route is taken up again only when the leg
before is used up, the points reached on it follow its endless repetition. -/

namespace SneakySneaky.Foundation

variable {κ α : Type*}

/-! ## Legs -/

structure Leg (κ α : Type*) where
  source : κ
  reached : List α
  left : List α

namespace Leg

def fresh (source : κ) (points : List α) : Leg κ α := ⟨source, [], points⟩

/-- All the points of the list, as it was given. -/
def points (leg : Leg κ α) : List α := leg.reached ++ leg.left

/-- The next point is reached, if there is one. -/
def advance : Leg κ α → Leg κ α
  | ⟨source, reached, []⟩ => ⟨source, reached, []⟩
  | ⟨source, reached, next :: left⟩ => ⟨source, reached ++ [next], left⟩

@[simp] theorem points_fresh (source : κ) (points : List α) : (fresh source points).points = points := rfl

@[simp] theorem advance_source (leg : Leg κ α) : leg.advance.source = leg.source := by
  obtain ⟨source, reached, _ | ⟨next, left⟩⟩ := leg
  · rfl
  · rfl

@[simp] theorem advance_left (leg : Leg κ α) : leg.advance.left = leg.left.tail := by
  obtain ⟨source, reached, _ | ⟨next, left⟩⟩ := leg
  · rfl
  · rfl

@[simp] theorem points_advance (leg : Leg κ α) : leg.advance.points = leg.points := by
  obtain ⟨source, reached, _ | ⟨next, left⟩⟩ := leg
  · rfl
  · simp [advance, points]

theorem left_suffix_points (leg : Leg κ α) : leg.left <:+ leg.points := List.suffix_append leg.reached leg.left

end Leg

/-! ## Itineraries -/

/-- The legs before the current one are kept newest first. -/
structure Itinerary (κ α : Type*) where
  current : Leg κ α
  earlier : List (Leg κ α)

namespace Itinerary

def legs (itinerary : Itinerary κ α) : List (Leg κ α) := itinerary.current :: itinerary.earlier

def depart (source : κ) (points : List α) : Itinerary κ α := ⟨.fresh source points, []⟩

/-- The list ahead is replaced. -/
def reroute (itinerary : Itinerary κ α) (source : κ) (points : List α) : Itinerary κ α :=
  ⟨.fresh source points, itinerary.legs⟩

def advance (itinerary : Itinerary κ α) : Itinerary κ α := { itinerary with current := itinerary.current.advance }

/-- Every point reached, in order. -/
def reached (itinerary : Itinerary κ α) : List α := itinerary.legs.reverse.flatMap Leg.reached

@[simp] theorem reroute_legs (itinerary : Itinerary κ α) (source : κ) (points : List α) :
    (itinerary.reroute source points).legs = .fresh source points :: itinerary.legs := rfl

@[simp] theorem advance_current (itinerary : Itinerary κ α) :
    itinerary.advance.current = itinerary.current.advance := rfl

@[simp] theorem reached_reroute (itinerary : Itinerary κ α) (source : κ) (points : List α) :
    (itinerary.reroute source points).reached = itinerary.reached := by
  simp [reached, Leg.fresh]

theorem reached_advance {itinerary : Itinerary κ α} {next : α} {left : List α}
    (ahead : itinerary.current.left = next :: left) :
    itinerary.advance.reached = itinerary.reached ++ [next] := by
  obtain ⟨⟨source, reachedNow, _⟩, earlier⟩ := itinerary
  cases ahead
  simp [reached, legs, advance, Leg.advance]

/-! ## Steps -/

/-- Any number of times, the list ahead is replaced. -/
def Reroutes : Itinerary κ α → Itinerary κ α → Prop :=
  Relation.ReflTransGen fun before after => ∃ source points, after = before.reroute source points

/-- The list ahead is replaced any number of times; then at most one point, its first, is reached. -/
def AdvancesOnce (before after : Itinerary κ α) : Prop :=
  ∃ middle, Reroutes before middle ∧
    (after = middle ∨ ∃ next, middle.current.left = next :: after.current.left ∧ after = middle.advance)

theorem reroutes_reroute (itinerary : Itinerary κ α) (source : κ) (points : List α) :
    Reroutes itinerary (itinerary.reroute source points) := .single ⟨source, points, rfl⟩

theorem Reroutes.reached {before after : Itinerary κ α} (reroutes : Reroutes before after) :
    after.reached = before.reached := by
  induction reroutes with
  | refl => rfl
  | tail _ step inductionHypothesis =>
    obtain ⟨source, points, rfl⟩ := step
    rw [reached_reroute, inductionHypothesis]

theorem Reroutes.advancesOnce {before after : Itinerary κ α} (reroutes : Reroutes before after) :
    AdvancesOnce before after := ⟨after, reroutes, .inl rfl⟩

theorem AdvancesOnce.reached {before after : Itinerary κ α} (advances : AdvancesOnce before after) :
    after.reached = before.reached ∨ ∃ next, after.reached = before.reached ++ [next] := by
  obtain ⟨middle, reroutes, rfl | ⟨next, ahead, rfl⟩⟩ := advances
  · exact .inl reroutes.reached
  · refine .inr ⟨next, ?_⟩
    rw [reached_advance ahead, reroutes.reached]

end Itinerary

/-! ## Going round -/

section Rounds

variable [DecidableEq κ]

/-- The points reached since a leg that is no round. -/
def stretch (round : κ) : List (Leg κ α) → List α
  | [] => []
  | leg :: earlier => if leg.source = round then stretch round earlier ++ leg.reached else []

/-- A round begins only when the leg before it is used up. -/
def InTurn (round : κ) (legs : List (Leg κ α)) : Prop :=
  legs.IsChain fun later earlier => later.source = round → earlier.left = []

omit [DecidableEq κ] in
theorem InTurn.fresh {round source : κ} {points : List α} {legs : List (Leg κ α)} (inTurn : InTurn round legs)
    (usedUp : source = round → ∀ leg ∈ legs.head?, leg.left = []) :
    InTurn round (.fresh source points :: legs) :=
  List.isChain_cons.mpr ⟨fun leg newest isRound => usedUp isRound leg newest, inTurn⟩

omit [DecidableEq κ] in
theorem InTurn.advance {round : κ} {itinerary : Itinerary κ α} (inTurn : InTurn round itinerary.legs) :
    InTurn round itinerary.advance.legs := by
  obtain ⟨usedUp, earlierInTurn⟩ := List.isChain_cons.mp inTurn
  refine List.isChain_cons.mpr ⟨fun leg newest isRound => usedUp leg newest ?_, earlierInTurn⟩
  rwa [Itinerary.advance_current, Leg.advance_source] at isRound

/-- The points reached on rounds and what is left of the last lead into the endless repetition. -/
theorem stretch_append_left {round : κ} {route : List α} (nonempty : route ≠ []) {leg : Leg κ α}
    {earlier : List (Leg κ α)} (inTurn : InTurn round (leg :: earlier)) (isRound : leg.source = round)
    (rounds : ∀ other ∈ leg :: earlier, other.source = round → other.points = route) :
    stretch round (leg :: earlier) ++ₛ (leg.left ++ₛ Stream'.cycle route nonempty) =
      Stream'.cycle route nonempty := by
  induction earlier generalizing leg with
  | nil =>
    rw [stretch, if_pos isRound, stretch, List.nil_append, ← Stream'.append_append_stream]
    show leg.points ++ₛ _ = _
    rw [rounds leg List.mem_cons_self isRound, ← Stream'.cycle_eq]
  | cons before earlier inductionHypothesis =>
    obtain ⟨usedUp, earlierInTurn⟩ := List.isChain_cons.mp inTurn
    -- The leg before, if it was a round, was used up, so what it leads into begins the route again.
    have untilHere : stretch round (before :: earlier) ++ₛ Stream'.cycle route nonempty =
        Stream'.cycle route nonempty := by
      by_cases wasRound : before.source = round
      · have previous := inductionHypothesis earlierInTurn wasRound
          fun other member => rounds other (List.mem_cons_of_mem leg member)
        rwa [usedUp before rfl isRound, Stream'.nil_append_stream] at previous
      · rw [stretch, if_neg wasRound, Stream'.nil_append_stream]
    rw [stretch, if_pos isRound, Stream'.append_append_stream, ← Stream'.append_append_stream leg.reached]
    show _ ++ₛ (leg.points ++ₛ _) = _
    rw [rounds leg List.mem_cons_self isRound, ← Stream'.cycle_eq, untilHere]

/-- The points reached on rounds are the first of the endless repetition. -/
theorem stretch_eq_take {round : κ} {route : List α} (nonempty : route ≠ []) {legs : List (Leg κ α)}
    (inTurn : InTurn round legs) (rounds : ∀ leg ∈ legs, leg.source = round → leg.points = route) :
    stretch round legs = (Stream'.cycle route nonempty).take (stretch round legs).length := by
  cases legs with
  | nil => rfl
  | cons leg earlier =>
    by_cases isRound : leg.source = round
    · conv_rhs => rw [← stretch_append_left nonempty inTurn isRound rounds]
      rw [Stream'.take_append_of_le_length _ _ _ le_rfl, List.take_length]
    · rw [stretch, if_neg isRound]
      rfl

/-- When every leg is a round, the rounds make up the whole journey. -/
theorem stretch_eq_reached {round : κ} {itinerary : Itinerary κ α}
    (onlyRounds : ∀ leg ∈ itinerary.legs, leg.source = round) :
    stretch round itinerary.legs = itinerary.reached := by
  suffices general : ∀ legs : List (Leg κ α), (∀ leg ∈ legs, leg.source = round) →
      stretch round legs = legs.reverse.flatMap Leg.reached from general itinerary.legs onlyRounds
  intro legs allRounds
  induction legs with
  | nil => rfl
  | cons leg earlier inductionHypothesis =>
    obtain ⟨isRound, earlierRounds⟩ := List.forall_mem_cons.mp allRounds
    simp [stretch, isRound, inductionHypothesis earlierRounds]

end Rounds

end SneakySneaky.Foundation
