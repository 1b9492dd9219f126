import Mathlib.Data.List.Forall2
import Mathlib.Data.List.Induction
import SneakySneaky.Foundation.Runs

/-! # Words and streaks in a stream

A reader waits for the letters of a word in turn, and takes the first event that the next
letter accepts.  It has read the whole word exactly when some of the events, in order, spell
it.  A streak is the number of the last events without a break that meet a condition. -/

namespace SneakySneaky.Foundation

variable {α ε : Type*}

def readLetter (accepts : α → ε → Bool) : List α → ε → List α
  | [], _ => []
  | letter :: word, event => if accepts letter event then word else letter :: word

/-- Some of the events, in order, are accepted by the letters of the word. -/
def Spells (accepts : α → ε → Bool) (word : List α) (events : List ε) : Prop :=
  ∃ taken, List.Sublist taken events ∧ List.Forall₂ (fun letter event => accepts letter event = true) word taken

variable {accepts : α → ε → Bool}

theorem spells_nil (events : List ε) : Spells accepts [] events := ⟨[], List.nil_sublist events, .nil⟩

theorem not_spells_nil (letter : α) (word : List α) : ¬ Spells accepts (letter :: word) [] := by
  rintro ⟨taken, part, spelled⟩
  rw [List.sublist_nil.mp part] at spelled
  cases spelled

/-- To take the first event that fits is never a loss. -/
theorem spells_cons_iff (word : List α) (event : ε) (events : List ε) :
    Spells accepts word (event :: events) ↔ Spells accepts (readLetter accepts word event) events := by
  cases word with
  | nil => exact ⟨fun _ => spells_nil events, fun _ => spells_nil (event :: events)⟩
  | cons letter word =>
    simp only [readLetter]
    by_cases fits : accepts letter event = true
    · rw [if_pos fits]
      constructor
      · rintro ⟨taken, part, spelled⟩
        cases spelled with
        | cons first rest => exact ⟨_, part.tail, rest⟩
      · rintro ⟨taken, part, spelled⟩
        exact ⟨event :: taken, part.cons_cons event, .cons fits spelled⟩
    · rw [if_neg fits]
      constructor
      · rintro ⟨taken, part, spelled⟩
        refine ⟨taken, ?_, spelled⟩
        cases part with
        | cons _ later => exact later
        | cons_cons _ later =>
          cases spelled with
          | cons first rest => exact absurd first fits
      · rintro ⟨taken, part, spelled⟩
        exact ⟨taken, part.cons event, spelled⟩

theorem run_readLetter_eq_nil_iff (word : List α) (events : List ε) :
    run (readLetter accepts) word events = [] ↔ Spells accepts word events := by
  induction events generalizing word with
  | nil =>
    cases word with
    | nil => exact ⟨fun _ => spells_nil [], fun _ => rfl⟩
    | cons letter word => exact ⟨fun done => absurd done (List.cons_ne_nil letter word),
        fun spelled => absurd spelled (not_spells_nil letter word)⟩
  | cons event events inductionHypothesis => rw [run_cons, inductionHypothesis, spells_cons_iff]

/-! ## Streaks -/

def streak (holds : ε → Bool) (events : List ε) : ℕ := (events.reverse.takeWhile holds).length

@[simp] theorem streak_nil (holds : ε → Bool) : streak holds [] = 0 := rfl

theorem streak_append_singleton (holds : ε → Bool) (events : List ε) (event : ε) :
    streak holds (events ++ [event]) = if holds event then streak holds events + 1 else 0 := by
  rw [streak, List.reverse_append, List.reverse_singleton, List.singleton_append, List.takeWhile_cons]
  split
  · rfl
  · rfl

end SneakySneaky.Foundation
