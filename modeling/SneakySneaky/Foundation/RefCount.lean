import Mathlib.Data.List.Basic

/-! # Reference counts by hand

The history of a reference-counted object is the list of what was done to it, newest
first; a ledger is one list for many objects.  An object comes into being with no
reference and is destroyed when the last one is released, so a history is sane when
nothing but the first `addRef` happens at count 0. -/

namespace SneakySneaky.Foundation

inductive RefOp where
  | addRef | read | releaseRef
  deriving DecidableEq

abbrev RefHistory := List RefOp

namespace RefHistory

/-! ## One object -/

def refs : RefHistory → ℕ
  | [] => 0
  | .addRef :: earlier => refs earlier + 1
  | .read :: earlier => refs earlier
  | .releaseRef :: earlier => refs earlier - 1

/-- No step uses an object that has been destroyed. -/
def Sane : RefHistory → Prop
  | [] => True
  | .addRef :: earlier => (earlier = [] ∨ 0 < refs earlier) ∧ Sane earlier
  | .read :: earlier => 0 < refs earlier ∧ Sane earlier
  | .releaseRef :: earlier => 0 < refs earlier ∧ Sane earlier

instance Sane.decidable : ∀ history : RefHistory, Decidable (Sane history)
  | [] => inferInstanceAs (Decidable True)
  | .addRef :: earlier =>
    have : Decidable (Sane earlier) := Sane.decidable earlier
    inferInstanceAs (Decidable ((earlier = [] ∨ 0 < refs earlier) ∧ Sane earlier))
  | .read :: earlier =>
    have : Decidable (Sane earlier) := Sane.decidable earlier
    inferInstanceAs (Decidable (0 < refs earlier ∧ Sane earlier))
  | .releaseRef :: earlier =>
    have : Decidable (Sane earlier) := Sane.decidable earlier
    inferInstanceAs (Decidable (0 < refs earlier ∧ Sane earlier))

/-- The object got one reference and gave it back, and was not used without one. -/
structure Balanced (history : RefHistory) : Prop where
  added : history.count .addRef = 1
  released : history.count .releaseRef = 1
  sane : Sane history

instance (history : RefHistory) : Decidable (Balanced history) :=
  decidable_of_iff (history.count .addRef = 1 ∧ history.count .releaseRef = 1 ∧ Sane history)
    ⟨fun facts => ⟨facts.1, facts.2.1, facts.2.2⟩, fun balanced => ⟨balanced.1, balanced.2, balanced.3⟩⟩

theorem Sane.tail {op : RefOp} {earlier : RefHistory} (sane : Sane (op :: earlier)) : Sane earlier := by
  cases op with
  | addRef | read | releaseRef => exact sane.2

theorem Sane.of_append {later earlier : RefHistory} (sane : Sane (later ++ earlier)) : Sane earlier := by
  induction later with
  | nil => exact sane
  | cons op later inductionHypothesis => exact inductionHypothesis sane.tail

/-- In a sane history the count is the number of references not yet released. -/
theorem Sane.refs_add_released {history : RefHistory} (sane : Sane history) :
    refs history + history.count .releaseRef = history.count .addRef := by
  induction history with
  | nil => rfl
  | cons op earlier inductionHypothesis =>
    have before := inductionHypothesis sane.tail
    cases op with
    | addRef => simp [refs]; omega
    | read => simpa [refs] using before
    | releaseRef =>
      have alive : 0 < refs earlier := sane.1
      simp [refs]
      omega

/-! ## Repeated reads -/

@[simp] theorem refs_reads (count : ℕ) (earlier : RefHistory) :
    refs (List.replicate count .read ++ earlier) = refs earlier := by
  induction count with
  | zero => rfl
  | succ count inductionHypothesis => exact inductionHypothesis

theorem Sane.reads {earlier : RefHistory} (sane : Sane earlier) (alive : 0 < refs earlier) (count : ℕ) :
    Sane (List.replicate count .read ++ earlier) := by
  induction count with
  | zero => exact sane
  | succ count inductionHypothesis =>
    have stillAlive : 0 < refs (List.replicate count .read ++ earlier) := by
      rw [refs_reads]
      exact alive
    exact ⟨stillAlive, inductionHypothesis⟩

theorem not_sane_of_read {earlier : RefHistory} (dead : refs earlier = 0) {count : ℕ} (some_read : 0 < count) :
    ¬ Sane (List.replicate count .read ++ earlier) := by
  cases count with
  | zero => exact absurd some_read (Nat.lt_irrefl 0)
  | succ count =>
    intro sane
    have alive : 0 < refs (List.replicate count .read ++ earlier) := sane.1
    rw [refs_reads] at alive
    omega

/-! ## Repeated releases -/

theorem not_sane_of_release {earlier : RefHistory} (dead : refs earlier = 0) {count : ℕ}
    (some_release : 0 < count) : ¬ Sane (List.replicate count .releaseRef ++ earlier) := by
  intro sane
  induction count with
  | zero => exact absurd some_release (Nat.lt_irrefl 0)
  | succ count inductionHypothesis =>
    by_cases first : count = 0
    · subst first
      have alive : 0 < refs earlier := sane.1
      omega
    · exact inductionHypothesis (Nat.pos_of_ne_zero first) sane.tail

end RefHistory

/-! ## Many objects -/

/-- What was done to many objects, newest first. -/
abbrev Ledger (ι ω : Type*) := List (ι × ω)

abbrev RefLedger (ι : Type*) := Ledger ι RefOp

namespace Ledger

variable {ι ω : Type*} [DecidableEq ι]

def history (ledger : Ledger ι ω) (object : ι) : List ω :=
  ledger.filterMap fun entry => if entry.1 = object then some entry.2 else none

@[simp] theorem history_nil (object : ι) : history ([] : Ledger ι ω) object = [] := rfl

@[simp] theorem history_cons_self (object : ι) (op : ω) (ledger : Ledger ι ω) :
    history ((object, op) :: ledger) object = op :: history ledger object := by
  simp [history]

theorem history_cons_other {object other : ι} (different : other ≠ object) (op : ω)
    (ledger : Ledger ι ω) : history ((other, op) :: ledger) object = history ledger object := by
  simp [history, different]

@[simp] theorem history_append (later earlier : Ledger ι ω) (object : ι) :
    history (later ++ earlier) object = history later object ++ history earlier object :=
  List.filterMap_append

/-- The same step for each of some objects, the first of them first. -/
def each (op : ω) (objects : List ι) : Ledger ι ω := (objects.map fun object => (object, op)).reverse

theorem history_each (op : ω) (objects : List ι) (object : ι) :
    history (each op objects) object = List.replicate (objects.count object) op := by
  induction objects with
  | nil => rfl
  | cons head rest inductionHypothesis =>
    have split : each op (head :: rest) = each op rest ++ [(head, op)] := by simp [each]
    rw [split, history_append, inductionHypothesis]
    by_cases same : head = object
    · subst same
      simp [List.replicate_succ']
    · rw [history_cons_other same, List.count_cons_of_ne same]
      simp

end Ledger

end SneakySneaky.Foundation
