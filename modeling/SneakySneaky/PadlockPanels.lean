import SneakySneaky.Foundation.RefCount
import SneakySneaky.Foundation.Runs

/-! # The panels of the padlocks

A `Padlock` makes a panel before its first update, as a child of the UI root, and keeps it
in `panel_`, a `SharedPtr`.  The tree and the pointer hold a reference each, and the panel
is destroyed when both are gone: in whatever order UI and scene are cleared, no step acts
on a destroyed panel, and every panel leaves the tree once. -/

namespace SneakySneaky

open SneakySneaky.Foundation

/-! ## One panel -/

inductive PanelOp where
  /-- `DelayedStart` makes it a child of the UI root and stores it in `panel_`. -/
  | created
  /-- `Update` places, shows or hides it. -/
  | updated
  /-- `Stop` calls its `Remove`. -/
  | stopped
  /-- `Remove` finds it in the tree and takes it out. -/
  | removed
  /-- `UI::Clear` takes it out of the tree. -/
  | cleared
  /-- `Stop` sets `panel_` to NULL. -/
  | forgotten
  deriving DecidableEq

/-- What an operation does to the reference count, newest first. -/
def PanelOp.refOps : PanelOp → RefHistory
  | .created => [.addRef, .addRef]
  | .updated | .stopped => [.read]
  | .removed | .cleared | .forgotten => [.releaseRef]

abbrev PanelHistory := List PanelOp

namespace PanelHistory

def refHistory (history : PanelHistory) : RefHistory := history.flatMap PanelOp.refOps

/-- How often the panel has left the UI tree. -/
def exits (history : PanelHistory) : ℕ := history.count .removed + history.count .cleared

/-- `Update` has acted on the panel in the tree only. -/
def UpdatedInTree : PanelHistory → Prop
  | [] => True
  | op :: earlier => (op = .updated → exits earlier = 0) ∧ UpdatedInTree earlier

/-- Neither `Update` nor `Stop` has acted on the panel after a `UI::Clear`. -/
def UntouchedOnceCleared : PanelHistory → Prop
  | [] => True
  | op :: earlier => (op = .updated ∨ op = .stopped → .cleared ∉ earlier) ∧ UntouchedOnceCleared earlier

instance UntouchedOnceCleared.decidable : ∀ history : PanelHistory, Decidable (UntouchedOnceCleared history)
  | [] => inferInstanceAs (Decidable True)
  | op :: earlier =>
    have : Decidable (UntouchedOnceCleared earlier) := UntouchedOnceCleared.decidable earlier
    inferInstanceAs (Decidable ((op = .updated ∨ op = .stopped → .cleared ∉ earlier) ∧
      UntouchedOnceCleared earlier))

/-- The history of a panel that is in the tree, and stored by padlocks, so many times. -/
structure Account (history : PanelHistory) (inTree stored : ℕ) : Prop where
  sane : (refHistory history).Sane
  refs : (refHistory history).refs = inTree + stored
  exits : exits history + inTree = history.count .created
  forgotten : history.count .forgotten + stored = history.count .created
  within : inTree ≤ stored

section Account

variable {history : PanelHistory} {inTree stored : ℕ}

theorem account_nil : Account [] 0 0 := ⟨trivial, rfl, rfl, rfl, Nat.le_refl 0⟩

theorem account_created : Account [.created] 1 1 :=
  ⟨⟨.inr (Nat.zero_lt_one), .inl rfl, trivial⟩, rfl, rfl, rfl, Nat.le_refl 1⟩

theorem Account.nothing (account : Account [] inTree stored) : inTree = 0 ∧ stored = 0 := by
  have none : 0 = inTree + stored := account.refs
  omega

theorem Account.update (account : Account history inTree stored) (held : 0 < stored) :
    Account (.updated :: history) inTree stored := by
  have alive : 0 < (refHistory history).refs := by rw [account.refs]; omega
  exact ⟨⟨alive, account.sane⟩, account.refs, account.exits, account.forgotten, account.within⟩

theorem Account.clear (account : Account history (inTree + 1) stored) :
    Account (.cleared :: history) inTree stored := by
  obtain ⟨sane, refs, exits, forgotten, within⟩ := account
  have alive : 0 < (refHistory history).refs := by omega
  refine ⟨⟨alive, sane⟩, ?_, ?_, forgotten, by omega⟩
  · change (refHistory history).refs - 1 = inTree + stored
    omega
  · simp only [PanelHistory.exits] at exits ⊢
    simp only [List.count_cons_self, List.count_cons_of_ne (show PanelOp.cleared ≠ .removed by decide),
      List.count_cons_of_ne (show PanelOp.cleared ≠ .created by decide)]
    omega

theorem Account.clearAll (account : Account history inTree stored) :
    Account (List.replicate inTree .cleared ++ history) 0 stored := by
  -- Generalised over the entries in the tree that are left.
  suffices general : ∀ count left, Account history (left + count) stored →
      Account (List.replicate count .cleared ++ history) left stored from
    general inTree 0 (by rwa [Nat.zero_add])
  intro count
  induction count with
  | zero => exact fun left account => account
  | succ count inductionHypothesis =>
    intro left account
    exact (inductionHypothesis (left + 1) (by rwa [Nat.add_assoc, Nat.add_comm 1])).clear

theorem Account.remove (account : Account history (inTree + 1) stored) (held : 0 < stored) :
    Account (.forgotten :: .removed :: .stopped :: history) inTree (stored - 1) := by
  obtain ⟨sane, refs, exits, forgotten, within⟩ := account
  have alive : 1 < (refHistory history).refs := by omega
  refine ⟨⟨?_, ?_, ?_, sane⟩, ?_, ?_, ?_, by omega⟩
  · change 0 < (refHistory history).refs - 1
    omega
  · change 0 < (refHistory history).refs
    omega
  · change 0 < (refHistory history).refs
    omega
  · change (refHistory history).refs - 1 - 1 = inTree + (stored - 1)
    omega
  · simp [PanelHistory.exits] at exits ⊢
    omega
  · simp at forgotten ⊢
    omega

theorem Account.forget (account : Account history 0 stored) (held : 0 < stored) :
    Account (.forgotten :: .stopped :: history) 0 (stored - 1) := by
  obtain ⟨sane, refs, exits, forgotten, within⟩ := account
  refine ⟨⟨?_, ?_, sane⟩, ?_, ?_, ?_, by omega⟩
  · change 0 < (refHistory history).refs
    omega
  · change 0 < (refHistory history).refs
    omega
  · change (refHistory history).refs - 1 = 0 + (stored - 1)
    omega
  · simp [PanelHistory.exits] at exits ⊢
    omega
  · simp at forgotten ⊢
    omega

end Account

end PanelHistory

/-! ## The panels and the padlocks -/

/-- `panel_` of a padlock: NULL before `DelayedStart`, and gone after `Stop`. -/
inductive PanelPointer where
  | unstarted
  | panel (panel : ℕ)
  | stopped
  deriving DecidableEq

def PanelPointer.isStopped : PanelPointer → Bool
  | .unstarted | .panel _ => false
  | .stopped => true

/-- Panels are numbered as they are created.  `root` lists those among the children of the UI root,
    `padlocks` the pointers of the scene's padlocks. -/
structure Panels where
  created : ℕ
  root : List ℕ
  padlocks : List PanelPointer
  log : Ledger ℕ PanelOp

/-- What the game does that padlocks and their panels notice. -/
inductive DisplayOp where
  | uiClear
  | sceneClear
  | createPadlocks (count : ℕ)
  | removePadlocks
  | updatePadlock (padlock : ℕ) (unlocks : Bool)
  deriving DecidableEq

namespace Panels

def create : Panels := ⟨0, [], [], []⟩

abbrev history (panels : Panels) (panel : ℕ) : PanelHistory := Ledger.history panels.log panel

def delayedStart (panels : Panels) (padlock : ℕ) : Panels where
  created := panels.created + 1
  root := panels.root ++ [panels.created]
  padlocks := panels.padlocks.set padlock (.panel panels.created)
  log := (panels.created, .created) :: panels.log

/-- `panel_->Remove()` and `panel_ = NULL`; `Remove` does nothing to a panel that has no parent. -/
def release (panels : Panels) (panel : ℕ) : Ledger ℕ PanelOp :=
  if panel ∈ panels.root then (panel, .forgotten) :: (panel, .removed) :: (panel, .stopped) :: panels.log
  else (panel, .forgotten) :: (panel, .stopped) :: panels.log

/-- `Padlock::Stop`, which the engine calls when it detaches the component. -/
def stop (panels : Panels) (padlock : ℕ) : Panels :=
  match panels.padlocks[padlock]? with
  | some (.panel panel) =>
    { panels with
      root := panels.root.erase panel
      padlocks := panels.padlocks.set padlock .stopped
      log := panels.release panel }
  | some .unstarted => { panels with padlocks := panels.padlocks.set padlock .stopped }
  | some .stopped | none => panels

def stopFirst (panels : Panels) : ℕ → Panels
  | 0 => panels
  | count + 1 => (panels.stopFirst count).stop count

/-- `Padlock::Update`; an unlocked padlock removes its node. -/
def update (panels : Panels) (padlock panel : ℕ) (unlocks : Bool) : Panels :=
  let updated := { panels with log := (panel, .updated) :: panels.log }
  if unlocks then updated.stop padlock else updated

/-- The engine calls `DelayedStart` before the first `Update`. -/
def handleSceneUpdate (panels : Panels) (padlock : ℕ) (unlocks : Bool) : Panels :=
  match panels.padlocks[padlock]? with
  | some .unstarted => (panels.delayedStart padlock).update padlock panels.created unlocks
  | some (.panel panel) => panels.update padlock panel unlocks
  | some .stopped | none => panels

def step (panels : Panels) : DisplayOp → Panels
  | .uiClear => { panels with root := [], log := Ledger.each .cleared panels.root ++ panels.log }
  | .sceneClear => { panels.stopFirst panels.padlocks.length with padlocks := [] }
  | .createPadlocks count => { panels with padlocks := panels.padlocks ++ List.replicate count .unstarted }
  | .removePadlocks => panels.stopFirst panels.padlocks.length
  | .updatePadlock padlock unlocks => panels.handleSceneUpdate padlock unlocks

/-! ## Ownership -/

/-- Every panel has been created once, and its history agrees with the tree and the pointers. -/
structure Owned (panels : Panels) : Prop where
  fresh : ∀ panel, panels.created ≤ panel → panels.history panel = []
  made : ∀ panel < panels.created, (panels.history panel).count .created = 1
  account : ∀ panel, (panels.history panel).Account (panels.root.count panel)
    (panels.padlocks.count (.panel panel))

variable {panels : Panels} {padlock : ℕ}

theorem create_owned : Owned create :=
  ⟨fun _ _ => rfl, fun panel made => absurd made (Nat.not_lt_zero panel), fun _ => PanelHistory.account_nil⟩

theorem Owned.made_of_stored (owned : Owned panels) {panel : ℕ} (stored : .panel panel ∈ panels.padlocks) :
    panel < panels.created := by
  by_contra unmade
  have account := owned.account panel
  rw [owned.fresh panel (by omega)] at account
  have positive := List.count_pos_iff.mpr stored
  have none := account.nothing
  omega

/-- Only one padlock stores a panel. -/
theorem Owned.count_stored (owned : Owned panels) {panel : ℕ} (stored : .panel panel ∈ panels.padlocks) :
    panels.padlocks.count (.panel panel) = 1 := by
  have forgotten := (owned.account panel).forgotten
  have positive := List.count_pos_iff.mpr stored
  rw [owned.made panel (owned.made_of_stored stored)] at forgotten
  omega

/-- The pointers after one of them has been replaced. -/
theorem count_set {pointers : List PanelPointer} {old : PanelPointer} (found : pointers[padlock]? = some old)
    (new pointer : PanelPointer) :
    (pointers.set padlock new).count pointer =
      pointers.count pointer - (if old = pointer then 1 else 0) + (if new = pointer then 1 else 0) := by
  obtain ⟨bound, rfl⟩ := List.getElem?_eq_some_iff.mp found
  simp [List.count_set bound]

theorem Owned.uiClear (owned : Owned panels) : Owned (panels.step .uiClear) := by
  obtain ⟨fresh, made, account⟩ := owned
  have cleared : ∀ panel, (panels.step .uiClear).history panel =
      List.replicate (panels.root.count panel) .cleared ++ panels.history panel := by
    intro panel
    simp only [history, step, Ledger.history_append, Ledger.history_each]
  refine ⟨fun panel unmade => ?_, fun panel isMade => ?_, fun panel => ?_⟩
  · have nothing := account panel
    rw [fresh panel unmade] at nothing
    rw [cleared, fresh panel unmade, nothing.nothing.1]
    rfl
  · rw [cleared, List.count_append, made panel isMade, List.count_replicate]
    rfl
  · rw [cleared]
    exact (account panel).clearAll

theorem Owned.delayedStart (owned : Owned panels) (found : panels.padlocks[padlock]? = some .unstarted) :
    Owned (panels.delayedStart padlock) := by
  obtain ⟨fresh, made, account⟩ := owned
  have older : ∀ panel, panel ≠ panels.created →
      (panels.delayedStart padlock).history panel = panels.history panel := fun panel other =>
    Ledger.history_cons_other (Ne.symm other) _ _
  have new : (panels.delayedStart padlock).history panels.created = [.created] := by
    simp only [history, Panels.delayedStart, Ledger.history_cons_self]
    exact congrArg _ (fresh panels.created (Nat.le_refl _))
  refine ⟨fun panel unmade => ?_, fun panel isMade => ?_, fun panel => ?_⟩
  · have later : panels.created < panel := unmade
    rw [older panel (by omega)]
    exact fresh panel (by omega)
  · have within : panel < panels.created + 1 := isMade
    by_cases same : panel = panels.created
    · rw [same, new]
      rfl
    · rw [older panel same]
      exact made panel (by omega)
  · by_cases same : panel = panels.created
    · have nothing := account panels.created
      rw [fresh panels.created (Nat.le_refl _)] at nothing
      subst same
      rw [new]
      simp only [Panels.delayedStart, List.count_append, count_set found, nothing.nothing.1, nothing.nothing.2]
      simpa using PanelHistory.account_created
    · have kept := account panel
      rw [older panel same]
      simp only [Panels.delayedStart, List.count_append, count_set found]
      simpa [Ne.symm same] using kept

theorem Owned.updated (owned : Owned panels) {panel : ℕ} (stored : .panel panel ∈ panels.padlocks) :
    Owned { panels with log := (panel, .updated) :: panels.log } := by
  have isMade := owned.made_of_stored stored
  obtain ⟨fresh, made, account⟩ := owned
  refine ⟨fun other unmade => ?_, fun other otherMade => ?_, fun other => ?_⟩
  · have later : panels.created ≤ other := unmade
    exact (Ledger.history_cons_other (show panel ≠ other by omega) _ _).trans (fresh other unmade)
  · by_cases same : panel = other
    · subst same
      simpa [history] using made panel isMade
    · simpa [history, Ledger.history_cons_other same] using made other otherMade
  · by_cases same : panel = other
    · subst same
      simpa [history] using (account panel).update (List.count_pos_iff.mpr stored)
    · simpa [history, Ledger.history_cons_other same] using account other

/-- `Stop` before the padlock's first update finds NULL. -/
theorem Owned.stopUnstarted (owned : Owned panels) (found : panels.padlocks[padlock]? = some .unstarted) :
    Owned { panels with padlocks := panels.padlocks.set padlock .stopped } := by
  obtain ⟨fresh, made, account⟩ := owned
  exact ⟨fresh, made, fun panel => by simpa [count_set found] using account panel⟩

theorem release_other {panel other : ℕ} (different : panel ≠ other) :
    Ledger.history (panels.release panel) other = panels.history other := by
  simp only [release]
  split <;> simp [Ledger.history_cons_other different, history]

/-- `Stop` gives up the pointer, and takes the panel out of the tree if it is still there. -/
theorem Owned.stopPanel (owned : Owned panels) {panel : ℕ}
    (found : panels.padlocks[padlock]? = some (.panel panel)) :
    Owned { panels with
      root := panels.root.erase panel
      padlocks := panels.padlocks.set padlock .stopped
      log := panels.release panel } := by
  have stored : .panel panel ∈ panels.padlocks := List.mem_of_getElem? found
  have isMade := owned.made_of_stored stored
  obtain ⟨fresh, made, account⟩ := owned
  have positive := List.count_pos_iff.mpr stored
  have released : Ledger.history (panels.release panel) panel =
      if panel ∈ panels.root then .forgotten :: .removed :: .stopped :: panels.history panel
      else .forgotten :: .stopped :: panels.history panel := by
    simp only [release]
    split <;> simp [history]
  refine ⟨fun other unmade => ?_, fun other otherMade => ?_, fun other => ?_⟩
  · have later : panels.created ≤ other := unmade
    exact (release_other (show panel ≠ other by omega)).trans (fresh other unmade)
  · by_cases same : panel = other
    · subst same
      have once := made panel isMade
      simp only [history, released] at once ⊢
      split <;> simpa using once
    · exact (congrArg _ (release_other same)).trans (made other otherMade)
  · by_cases same : panel = other
    · subst same
      have kept := account panel
      simp only [history, released, count_set found, List.count_erase_self, if_true]
      by_cases inTree : panel ∈ panels.root
      · rw [if_pos inTree]
        have counted := List.count_pos_iff.mpr inTree
        rw [← Nat.sub_add_cancel counted] at kept
        simpa using kept.remove positive
      · rw [if_neg inTree]
        rw [List.count_eq_zero_of_not_mem inTree] at kept ⊢
        simpa using kept.forget positive
    · have kept := account other
      simp only [history, release_other same, count_set found, List.count_erase_of_ne (Ne.symm same)]
      simpa [same] using kept

theorem Owned.stop (owned : Owned panels) (padlock : ℕ) : Owned (panels.stop padlock) := by
  simp only [Panels.stop]
  split
  · rename_i panel found
    exact owned.stopPanel found
  · rename_i found
    exact owned.stopUnstarted found
  · exact owned
  · exact owned

theorem Owned.stopFirst (owned : Owned panels) (count : ℕ) : Owned (panels.stopFirst count) := by
  induction count with
  | zero => exact owned
  | succ count inductionHypothesis => exact inductionHypothesis.stop count

/-! ## Which padlocks have been stopped -/

def flags (panels : Panels) : List Bool := panels.padlocks.map PanelPointer.isStopped

theorem stop_flags (panels : Panels) (padlock : ℕ) :
    (panels.stop padlock).flags = panels.flags.set padlock true := by
  simp only [Panels.stop, flags]
  split
  · rw [List.map_set]
    rfl
  · rw [List.map_set]
    rfl
  · rename_i found
    have already : (panels.padlocks.map PanelPointer.isStopped)[padlock]? = some true := by
      rw [List.getElem?_map, found]
      rfl
    obtain ⟨bound, value⟩ := List.getElem?_eq_some_iff.mp already
    rw [← value, List.set_getElem_self]
  · rename_i none
    rw [List.set_eq_of_length_le]
    simpa using none

theorem stopFirst_flags_length (panels : Panels) (count : ℕ) :
    (panels.stopFirst count).flags.length = panels.flags.length := by
  induction count with
  | zero => rfl
  | succ count inductionHypothesis => rw [stopFirst, stop_flags, List.length_set, inductionHypothesis]

theorem stopFirst_flags (panels : Panels) (count : ℕ) {padlock : ℕ} (first : padlock < count)
    (bound : padlock < panels.flags.length) : (panels.stopFirst count).flags[padlock]? = some true := by
  induction count with
  | zero => exact absurd first (Nat.not_lt_zero padlock)
  | succ count inductionHypothesis =>
    rw [stopFirst, stop_flags, List.getElem?_set]
    have within : padlock < (panels.stopFirst count).flags.length := by
      rw [stopFirst_flags_length]
      exact bound
    by_cases last : count = padlock
    · subst last
      simp [within]
    · rw [if_neg last]
      exact inductionHypothesis (by omega)

theorem stopAll_flags (panels : Panels) :
    (panels.stopFirst panels.padlocks.length).flags = List.replicate panels.padlocks.length true := by
  have length : panels.flags.length = panels.padlocks.length := List.length_map _
  rw [List.eq_replicate_iff, stopFirst_flags_length, length]
  refine ⟨rfl, fun flag member => ?_⟩
  obtain ⟨padlock, found⟩ := List.getElem?_of_mem member
  obtain ⟨bound, -⟩ := List.getElem?_eq_some_iff.mp found
  rw [stopFirst_flags_length] at bound
  have stopped := stopFirst_flags panels panels.padlocks.length (length ▸ bound) bound
  rw [found] at stopped
  exact Option.some.inj stopped

theorem not_stored_of_stopped (stopped : ∀ flag ∈ panels.flags, flag = true) (panel : ℕ) :
    .panel panel ∉ panels.padlocks := by
  intro stored
  have running := stopped _ (List.mem_map_of_mem stored)
  cases running

theorem stopAll_not_stored (panels : Panels) (panel : ℕ) :
    .panel panel ∉ (panels.stopFirst panels.padlocks.length).padlocks := by
  refine not_stored_of_stopped (fun flag member => ?_) panel
  rw [stopAll_flags] at member
  exact List.eq_of_mem_replicate member

/-! ## Every order of the operations -/

theorem Owned.sceneClear (owned : Owned panels) : Owned (panels.step .sceneClear) := by
  obtain ⟨fresh, made, account⟩ := owned.stopFirst panels.padlocks.length
  refine ⟨fresh, made, fun panel => ?_⟩
  have kept := account panel
  rw [List.count_eq_zero_of_not_mem (stopAll_not_stored panels panel)] at kept
  exact kept

theorem Owned.createPadlocks (owned : Owned panels) (count : ℕ) : Owned (panels.step (.createPadlocks count)) := by
  obtain ⟨fresh, made, account⟩ := owned
  refine ⟨fresh, made, fun panel => ?_⟩
  simpa [step, List.count_append, List.count_replicate] using account panel

theorem delayedStart_found (found : panels.padlocks[padlock]? = some .unstarted) :
    (panels.delayedStart padlock).padlocks[padlock]? = some (.panel panels.created) := by
  obtain ⟨bound, -⟩ := List.getElem?_eq_some_iff.mp found
  simp [Panels.delayedStart, bound]

/-- The parts of a scene update keep the invariant. -/
structure KeptByParts (holds : Panels → Prop) : Prop where
  delayedStart : ∀ {panels : Panels} {padlock : ℕ}, holds panels →
    panels.padlocks[padlock]? = some .unstarted → holds (panels.delayedStart padlock)
  updated : ∀ {panels : Panels}, holds panels → ∀ {panel : ℕ}, .panel panel ∈ panels.padlocks →
    holds { panels with log := (panel, .updated) :: panels.log }
  stop : ∀ {panels : Panels}, holds panels → ∀ padlock, holds (panels.stop padlock)

theorem KeptByParts.update {holds : Panels → Prop} (kept : KeptByParts holds) (before : holds panels) {panel : ℕ}
    (found : panels.padlocks[padlock]? = some (.panel panel)) (unlocks : Bool) :
    holds (panels.update padlock panel unlocks) := by
  have updated := kept.updated before (List.mem_of_getElem? found)
  simp only [Panels.update]
  split
  · exact kept.stop updated padlock
  · exact updated

theorem KeptByParts.handleSceneUpdate {holds : Panels → Prop} (kept : KeptByParts holds) (before : holds panels)
    (padlock : ℕ) (unlocks : Bool) : holds (panels.handleSceneUpdate padlock unlocks) := by
  simp only [Panels.handleSceneUpdate]
  split
  · rename_i found
    exact kept.update (kept.delayedStart before found) (delayedStart_found found) unlocks
  · rename_i panel found
    exact kept.update before found unlocks
  · exact before
  · exact before

theorem owned_keptByParts : KeptByParts Owned :=
  ⟨Owned.delayedStart, Owned.updated, Owned.stop⟩

theorem Owned.step (owned : Owned panels) (op : DisplayOp) : Owned (panels.step op) := by
  cases op with
  | uiClear => exact owned.uiClear
  | sceneClear => exact owned.sceneClear
  | createPadlocks count => exact owned.createPadlocks count
  | removePadlocks => exact owned.stopFirst panels.padlocks.length
  | updatePadlock padlock unlocks => exact owned_keptByParts.handleSceneUpdate owned padlock unlocks

/-- In whatever order UI and scene are cleared, padlocks updated and unlocked, the references are
    those of the tree and the pointers. -/
theorem Owned.run (owned : Owned panels) (ops : List DisplayOp) : Owned (run Panels.step panels ops) :=
  run_invariant Owned (fun _ op owned => owned.step op) owned ops

/-! ## Updates in the tree -/

/-- From one state to the other no panel is updated. -/
def Quiet (panels panels' : Panels) : Prop :=
  ∀ panel, ∃ later : PanelHistory, panels'.history panel = later ++ panels.history panel ∧ .updated ∉ later

theorem Quiet.refl (panels : Panels) : Quiet panels panels := fun _ => ⟨[], rfl, by simp⟩

theorem Quiet.trans {first second third : Panels} (left : Quiet first second) (right : Quiet second third) :
    Quiet first third := by
  intro panel
  obtain ⟨earlier, reached, quiet⟩ := left panel
  obtain ⟨later, reached', quiet'⟩ := right panel
  exact ⟨later ++ earlier, by rw [reached', reached, List.append_assoc], by simp [quiet, quiet']⟩

theorem Quiet.updatedInTree {panels' : Panels} (quiet : Quiet panels panels') {panel : ℕ}
    (updated : (panels.history panel).UpdatedInTree) : (panels'.history panel).UpdatedInTree := by
  obtain ⟨later, reached, noUpdate⟩ := quiet panel
  rw [reached]
  clear reached
  induction later with
  | nil => exact updated
  | cons op later inductionHypothesis =>
    rw [List.mem_cons, not_or] at noUpdate
    exact ⟨fun update => absurd update.symm noUpdate.1, inductionHypothesis noUpdate.2⟩

theorem uiClear_quiet (panels : Panels) : Quiet panels (panels.step .uiClear) := by
  intro panel
  refine ⟨List.replicate (panels.root.count panel) .cleared, ?_, by simp⟩
  simp only [history, step, Ledger.history_append, Ledger.history_each]

theorem delayedStart_quiet (panels : Panels) (padlock : ℕ) : Quiet panels (panels.delayedStart padlock) := by
  intro panel
  by_cases same : panels.created = panel
  · subst same
    exact ⟨[.created], Ledger.history_cons_self _ _ _, by simp⟩
  · exact ⟨[], Ledger.history_cons_other same _ _, by simp⟩

theorem stop_quiet (panels : Panels) (padlock : ℕ) : Quiet panels (panels.stop padlock) := by
  simp only [Panels.stop]
  split
  · rename_i stopped found
    intro panel
    by_cases same : stopped = panel
    · subst same
      simp only [history, release]
      split
      · exact ⟨[.forgotten, .removed, .stopped], by simp, by simp⟩
      · exact ⟨[.forgotten, .stopped], by simp, by simp⟩
    · exact ⟨[], release_other same, by simp⟩
  · exact .refl panels
  · exact .refl panels
  · exact .refl panels

theorem stopFirst_quiet (panels : Panels) (count : ℕ) : Quiet panels (panels.stopFirst count) := by
  induction count with
  | zero => exact .refl panels
  | succ count inductionHypothesis => exact inductionHypothesis.trans (stop_quiet _ count)

/-! ## Between the events of the engine -/

/-- The references are accounted for, and `Update` has acted on panels in the tree only. -/
structure Settled (panels : Panels) : Prop where
  owned : Owned panels
  updated : ∀ panel, (panels.history panel).UpdatedInTree

/-- Settled, and the panels of all padlocks are in the tree. -/
structure Shown (panels : Panels) : Prop where
  settled : Settled panels
  inTree : ∀ panel, .panel panel ∈ panels.padlocks → panel ∈ panels.root

theorem create_shown : Shown create :=
  ⟨⟨create_owned, fun _ => trivial⟩, fun _ stored => absurd stored List.not_mem_nil⟩

theorem Settled.quiet {panels' : Panels} (settled : Settled panels) (owned : Owned panels')
    (quiet : Quiet panels panels') : Settled panels' :=
  ⟨owned, fun panel => quiet.updatedInTree (settled.updated panel)⟩

theorem Settled.uiClear (settled : Settled panels) : Settled (panels.step .uiClear) :=
  settled.quiet settled.owned.uiClear (uiClear_quiet panels)

/-- Without padlocks it does not matter what is in the tree. -/
theorem Settled.sceneClear (settled : Settled panels) : Shown (panels.step .sceneClear) :=
  ⟨settled.quiet settled.owned.sceneClear (stopFirst_quiet panels panels.padlocks.length),
    fun _ stored => absurd stored List.not_mem_nil⟩

theorem Shown.uiClear (shown : Shown panels) (none : panels.padlocks = []) : Shown (panels.step .uiClear) := by
  refine ⟨shown.settled.uiClear, fun panel stored => ?_⟩
  change .panel panel ∈ panels.padlocks at stored
  rw [none] at stored
  cases stored

theorem Shown.createPadlocks (shown : Shown panels) (count : ℕ) : Shown (panels.step (.createPadlocks count)) := by
  refine ⟨⟨shown.settled.owned.createPadlocks count, shown.settled.updated⟩, fun panel stored => ?_⟩
  simp only [step, List.mem_append, List.mem_replicate] at stored
  exact shown.inTree panel (stored.resolve_right (by simp))

/-- No other padlock has stored the panel that leaves the tree. -/
theorem Shown.stop (shown : Shown panels) (padlock : ℕ) : Shown (panels.stop padlock) := by
  refine ⟨shown.settled.quiet (shown.settled.owned.stop padlock) (stop_quiet panels padlock),
    fun other stored => ?_⟩
  simp only [Panels.stop] at stored ⊢
  split at stored
  · rename_i panel found
    have once := shown.settled.owned.count_stored (List.mem_of_getElem? found)
    have counted := List.count_pos_iff.mpr stored
    rw [count_set found] at counted
    by_cases same : panel = other
    · subst same
      simp [once] at counted
    · have before : .panel other ∈ panels.padlocks := by
        simp only [PanelPointer.panel.injEq, same, if_false, reduceCtorEq] at counted
        exact List.count_pos_iff.mp counted
      exact (List.mem_erase_of_ne (Ne.symm same)).mpr (shown.inTree other before)
  · exact shown.inTree other ((List.mem_or_eq_of_mem_set stored).resolve_right (by simp))
  · exact shown.inTree other stored
  · exact shown.inTree other stored

theorem Shown.removePadlocks (shown : Shown panels) : Shown (panels.step .removePadlocks) := by
  have general : ∀ count, Shown (panels.stopFirst count) := by
    intro count
    induction count with
    | zero => exact shown
    | succ count inductionHypothesis => exact inductionHypothesis.stop count
  exact general panels.padlocks.length

theorem Shown.delayedStart (shown : Shown panels) (found : panels.padlocks[padlock]? = some .unstarted) :
    Shown (panels.delayedStart padlock) := by
  refine ⟨shown.settled.quiet (shown.settled.owned.delayedStart found) (delayedStart_quiet panels padlock),
    fun panel stored => ?_⟩
  simp only [Panels.delayedStart, List.mem_append, List.mem_singleton]
  rcases List.mem_or_eq_of_mem_set stored with before | new
  · exact .inl (shown.inTree panel before)
  · exact .inr (PanelPointer.panel.inj new)

theorem Shown.updated (shown : Shown panels) {panel : ℕ} (stored : .panel panel ∈ panels.padlocks) :
    Shown { panels with log := (panel, .updated) :: panels.log } := by
  have isMade := shown.settled.owned.made_of_stored stored
  refine ⟨⟨shown.settled.owned.updated stored, fun other => ?_⟩, shown.inTree⟩
  by_cases same : panel = other
  · subst same
    have inTree := List.count_pos_iff.mpr (shown.inTree panel stored)
    have exits := (shown.settled.owned.account panel).exits
    rw [shown.settled.owned.made panel isMade] at exits
    simp only [history, Ledger.history_cons_self]
    refine ⟨fun _ => ?_, shown.settled.updated panel⟩
    change (panels.history panel).exits = 0
    omega
  · simp only [history, Ledger.history_cons_other same]
    exact shown.settled.updated other

theorem Shown.updatePadlock (shown : Shown panels) (padlock : ℕ) (unlocks : Bool) :
    Shown (panels.step (.updatePadlock padlock unlocks)) := by
  have kept : KeptByParts Shown := ⟨Shown.delayedStart, Shown.updated, Shown.stop⟩
  exact kept.handleSceneUpdate shown padlock unlocks

/-! ## What has become of a panel -/

/-- A panel whose padlock is in the scene is alive and in the tree. -/
theorem Shown.stored (shown : Shown panels) {panel : ℕ} (stored : .panel panel ∈ panels.padlocks) :
    (panels.history panel).exits = 0 ∧ 0 < (panels.history panel).refHistory.refs := by
  have account := shown.settled.owned.account panel
  have exits := account.exits
  rw [shown.settled.owned.made panel (shown.settled.owned.made_of_stored stored)] at exits
  have inTree := List.count_pos_iff.mpr (shown.inTree panel stored)
  have refs := account.refs
  omega

/-- A panel whose padlock is gone has left the tree once and is destroyed. -/
theorem Owned.gone (owned : Owned panels) {panel : ℕ} (isMade : panel < panels.created)
    (gone : .panel panel ∉ panels.padlocks) :
    (panels.history panel).exits = 1 ∧ (panels.history panel).refHistory.refs = 0 := by
  obtain ⟨-, refs, exits, -, within⟩ := owned.account panel
  rw [owned.made panel isMade] at exits
  rw [List.count_eq_zero_of_not_mem gone] at refs within
  omega

/-! ## The padlocks after an operation -/

theorem flags_delayedStart (found : panels.padlocks[padlock]? = some .unstarted) :
    (panels.delayedStart padlock).flags = panels.flags := by
  have flag : panels.flags[padlock]? = some false := by
    rw [flags, List.getElem?_map, found]
    rfl
  obtain ⟨bound, value⟩ := List.getElem?_eq_some_iff.mp flag
  have same : panels.flags.set padlock false = panels.flags := by
    rw [← value, List.set_getElem_self]
  rw [← same]
  exact List.map_set

theorem update_flags (panels : Panels) (padlock panel : ℕ) (unlocks : Bool) :
    (panels.update padlock panel unlocks).flags =
      if unlocks then panels.flags.set padlock true else panels.flags := by
  simp only [Panels.update]
  split
  · exact stop_flags _ padlock
  · rfl

theorem updatePadlock_flags (panels : Panels) (padlock : ℕ) (unlocks : Bool)
    (present : unlocks = true → panels.flags[padlock]? = some false) :
    (panels.step (.updatePadlock padlock unlocks)).flags =
      if unlocks then panels.flags.set padlock true else panels.flags := by
  simp only [step, Panels.handleSceneUpdate]
  split
  · rename_i found
    rw [update_flags, flags_delayedStart found]
  · exact update_flags panels padlock _ unlocks
  · rename_i found
    cases unlocks with
    | false => rfl
    | true => simp [flags, found, PanelPointer.isStopped] at present
  · rename_i none
    cases unlocks with
    | false => rfl
    | true => simp [flags, none] at present

end Panels

end SneakySneaky
