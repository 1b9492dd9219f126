import Mathlib.Data.List.Forall2
import SneakySneaky.GlyphRow

/-! # The glyphs as objects behind pointers

In `MrWright` a material is a value, a sequence has a front, and a displayed glyph is a record of
its own.  Here, as in the code, materials are objects behind pointers, a sequence is any vector, and
the row holds pointers to clones.  A read outside a container, or through a NULL pointer, is a
fault. -/

namespace SneakySneaky

open SneakySneaky.Foundation

variable {Time : Type*}

/-! ## Material objects -/

structure MaterialObject where
  texture : String
  /-- The shader parameter `MatDiffColor`. -/
  diffColor : Color
  deriving DecidableEq

/-- An index into the material objects; `none` is NULL. -/
abbrev MaterialPointer := Option ℕ

/-- The objects of the resource cache; a material that cannot be loaded is NULL. -/
structure MaterialCache where
  materials : List MaterialObject
  getResource : String → MaterialPointer
  loaded : ∀ name pointer, getResource name = some pointer → pointer < materials.length

inductive Fault where
  | outsidePool
  | outsideSequence
  | outsideDisplay
  | nullMaterial
  deriving DecidableEq

def dereference (materials : List MaterialObject) (pointer : MaterialPointer) : Except Fault MaterialObject :=
  match pointer.bind (materials[·]?) with
  | some object => .ok object
  | none => .error .nullMaterial

/-! ## The class -/

/-- The material objects, what the posters of the room show, and the fields of MrWright.  Objects
    that nothing points to any more are kept. -/
structure GlyphRoom (Time : Type*) where
  materials : List MaterialObject
  posters : List MaterialPointer
  swapTimer : Time
  sequences : List (List MaterialPointer)
  /-- The material of each node. -/
  displayGlyphs : List ℕ
  deriving DecidableEq

namespace GlyphRoom

/-- The outer loop of `DelayedStart`. -/
def drawSequences (random : Random) (glyphs : List MaterialPointer) :
    ℕ → ℕ → ℕ → Except Fault (List (List MaterialPointer))
  | 0, _, _ => .ok []
  | sequenceCount + 1, glyphCount, drawn =>
    match draw random drawn glyphCount glyphs with
    | none => .error .outsidePool
    | some sequence =>
      (drawSequences random glyphs sequenceCount (glyphCount + 2) (drawn + glyphCount)).map (sequence :: ·)

/-- The last loop of `UpdateDisplayGlyphs` from index `i` on: the objects after it, and the clones. -/
def cloneGlyphs (materials : List MaterialObject) : ℕ → List MaterialPointer →
    Except Fault (List MaterialObject × List ℕ)
  | _, [] => .ok (materials, [])
  | i, glyph :: glyphs =>
    match dereference materials glyph with
    | .error fault => .error fault
    | .ok object =>
      let clone := if 0 < i then { object with diffColor := Color.gray } else object
      (cloneGlyphs (materials ++ [clone]) (i + 1) glyphs).map fun (after, clones) =>
        (after, materials.length :: clones)

def updateDisplayGlyphs (room : GlyphRoom Time) : Except Fault (GlyphRoom Time) :=
  match room.sequences with
  | [] => .ok { room with displayGlyphs := [] }
  | current :: _ =>
    -- The nodes are added or removed to fit; then each gets a clone for its material.
    if room.displayGlyphs.length ≠ current.length then
      (cloneGlyphs room.materials 0 current).map fun (materials, clones) =>
        { room with materials := materials, displayGlyphs := clones }
    else .ok room

def delayedStart (materials : List MaterialObject) (posters : List MaterialPointer) (random : Random)
    (swapTimer : Time) : Except Fault (GlyphRoom Time) :=
  (drawSequences random posters 3 2 0).bind fun sequences =>
    updateDisplayGlyphs ⟨materials, posters, swapTimer, sequences, []⟩

/-- `SetShaderParameter` on the material of `displayGlyphs_[index]`. -/
def paint (room : GlyphRoom Time) (index : ℤ) (color : Color) : Except Fault (GlyphRoom Time) :=
  if index < 0 then .error .outsideDisplay
  else match room.displayGlyphs[index.toNat]? with
    | none => .error .outsideDisplay
    | some pointer =>
      .ok { room with materials := room.materials.modify pointer ({ · with diffColor := color }) }

def matchFront (room : GlyphRoom Time) (current : List MaterialPointer) (later : List (List MaterialPointer)) :
    Except Fault (GlyphRoom Time) :=
  let index : ℤ := room.displayGlyphs.length - current.length
  (room.paint index .green).bind fun painted =>
    (if index + 1 < painted.displayGlyphs.length then painted.paint (index + 1) .white
      else .ok painted).bind fun painted =>
        let current := current.eraseIdx 0
        if current.isEmpty then updateDisplayGlyphs { painted with sequences := later }
        else .ok { painted with sequences := current :: later }

def handleNodeCollision (room : GlyphRoom Time) (otherIsPerson : Bool) (posterMaterial : MaterialPointer) :
    Except Fault (GlyphRoom Time) :=
  match room.sequences with
  | [] => .ok room
  | current :: later =>
    if !otherIsPerson then .ok room
    -- The name of the material is logged.
    else (dereference room.materials posterMaterial).bind fun _ =>
      match current with
      | [] => .error .outsideSequence
      | currentMaterial :: _ =>
        if posterMaterial ≠ currentMaterial then .ok room else room.matchFront current later

section Steps

variable [Add Time] [LT Time] [DecidableLT Time] [OfNat Time 0] [OfNat Time 10]

def update (room : GlyphRoom Time) (timeStep : Time) (random : Random) : GlyphRoom Time :=
  let swapTimer := room.swapTimer + timeStep
  if swapTimer < 10 then { room with swapTimer := swapTimer }
  else { room with swapTimer := 0, posters := shuffle random room.posters }

def step (room : GlyphRoom Time) : PuzzleEvent Time → Except Fault (GlyphRoom Time)
  | .update timeStep random => .ok (room.update timeStep random)
  | .touch poster otherIsPerson =>
    match room.posters[poster]? with
    | none => .ok room
    | some posterMaterial => room.handleNodeCollision otherIsPerson posterMaterial

/-- The handlers after `DelayedStart`, up to the first fault. -/
def runAll (started : Except Fault (GlyphRoom Time)) (events : List (PuzzleEvent Time)) :
    Except Fault (GlyphRoom Time) :=
  run (fun outcome event => outcome.bind (step · event)) started events

end Steps

end GlyphRoom

/-! ## The row of clones -/

section Clones

variable {cached : List MaterialObject}

/-- The object at `pointer` is a clone of the glyph's material with the colour set on it, if any. -/
def Copies (cached materials : List MaterialObject) (pointer : ℕ) (glyph : DisplayGlyph MaterialPointer) : Prop :=
  ∃ original, dereference cached glyph.material = .ok original ∧
    materials[pointer]? = some { original with diffColor := glyph.diffColor.getD original.diffColor }

/-- The row in memory: each node has a clone of its own, and the cached materials are as they were. -/
structure HoldsRow (cached materials : List MaterialObject) (pointers : List ℕ)
    (glyphs : List (DisplayGlyph MaterialPointer)) : Prop where
  copies : List.Forall₂ (Copies cached materials) pointers glyphs
  distinct : pointers.Nodup
  fresh : ∀ pointer ∈ pointers, cached.length ≤ pointer
  unchanged : cached <+: materials

theorem HoldsRow.nil {materials : List MaterialObject} (unchanged : cached <+: materials) :
    HoldsRow cached materials [] [] :=
  ⟨.nil, List.nodup_nil, fun _ member => absurd member List.not_mem_nil, unchanged⟩

theorem Copies.of_modify_ne {materials : List MaterialObject} {pointer painted : ℕ}
    {glyph : DisplayGlyph MaterialPointer} (copies : Copies cached materials pointer glyph)
    (other : painted ≠ pointer) (f : MaterialObject → MaterialObject) :
    Copies cached (materials.modify painted f) pointer glyph := by
  obtain ⟨original, cloned, stored⟩ := copies
  exact ⟨original, cloned, by rw [List.getElem?_modify_ne f materials other, stored]⟩

theorem Copies.paint {materials : List MaterialObject} {pointer : ℕ} {glyph : DisplayGlyph MaterialPointer}
    (copies : Copies cached materials pointer glyph) (color : Color) :
    Copies cached (materials.modify pointer ({ · with diffColor := color })) pointer
      { glyph with diffColor := some color } := by
  obtain ⟨original, cloned, stored⟩ := copies
  refine ⟨original, cloned, ?_⟩
  rw [List.getElem?_modify_eq, stored]
  rfl

theorem copies_frame {materials : List MaterialObject} {pointers : List ℕ}
    {glyphs : List (DisplayGlyph MaterialPointer)}
    (copies : List.Forall₂ (Copies cached materials) pointers glyphs) {painted : ℕ} (absent : painted ∉ pointers)
    (f : MaterialObject → MaterialObject) :
    List.Forall₂ (Copies cached (materials.modify painted f)) pointers glyphs := by
  have others : ∀ pointer ∈ pointers, painted ≠ pointer := fun pointer member same => absent (same ▸ member)
  exact ((List.forall₂_and_left pointers glyphs).mpr ⟨others, copies⟩).imp fun _ _ both => both.2.of_modify_ne both.1 f

/-- Painting the clone of one node leaves the other nodes as they are. -/
theorem copies_paint {materials : List MaterialObject} {pointers : List ℕ}
    {glyphs : List (DisplayGlyph MaterialPointer)}
    (copies : List.Forall₂ (Copies cached materials) pointers glyphs) (distinct : pointers.Nodup)
    {index pointer : ℕ} (nodeAt : pointers[index]? = some pointer) (color : Color) :
    List.Forall₂ (Copies cached (materials.modify pointer ({ · with diffColor := color }))) pointers
      (glyphs.modify index ({ · with diffColor := some color })) := by
  induction copies generalizing index with
  | nil => cases nodeAt
  | @cons first glyph pointers glyphs head tail inductionHypothesis =>
    obtain ⟨absent, distinct⟩ := List.nodup_cons.mp distinct
    cases index with
    | zero =>
      cases nodeAt
      exact .cons (head.paint color) (copies_frame tail absent _)
    | succ index =>
      have member : pointer ∈ pointers := List.mem_of_getElem? nodeAt
      have other : pointer ≠ first := fun same => absent (same ▸ member)
      exact .cons (head.of_modify_ne other _) (inductionHypothesis distinct nodeAt)

theorem prefix_modify {materials : List MaterialObject} (unchanged : cached <+: materials) {pointer : ℕ}
    (beyond : cached.length ≤ pointer) (f : MaterialObject → MaterialObject) :
    cached <+: materials.modify pointer f := by
  rw [List.prefix_iff_getElem?] at unchanged ⊢
  intro i inside
  rw [List.getElem?_modify_ne f materials (by omega), unchanged i inside]

theorem HoldsRow.paint {materials : List MaterialObject} {pointers : List ℕ}
    {glyphs : List (DisplayGlyph MaterialPointer)} (displays : HoldsRow cached materials pointers glyphs)
    {index pointer : ℕ} (nodeAt : pointers[index]? = some pointer) (color : Color) :
    HoldsRow cached (materials.modify pointer ({ · with diffColor := color })) pointers
      (glyphs.modify index ({ · with diffColor := some color })) := by
  constructor
  · exact copies_paint displays.copies displays.distinct nodeAt color
  · exact displays.distinct
  · exact displays.fresh
  · exact prefix_modify displays.unchanged (displays.fresh pointer (List.mem_of_getElem? nodeAt)) _

theorem HoldsRow.nodeAt {materials : List MaterialObject} {pointers : List ℕ}
    {glyphs : List (DisplayGlyph MaterialPointer)} (displays : HoldsRow cached materials pointers glyphs) {i : ℕ}
    {glyph : DisplayGlyph MaterialPointer} (glyphAt : glyphs[i]? = some glyph) :
    ∃ pointer, pointers[i]? = some pointer ∧ Copies cached materials pointer glyph := by
  obtain ⟨inside, rfl⟩ := List.getElem?_eq_some_iff.mp glyphAt
  have within : i < pointers.length := by rwa [displays.copies.length_eq]
  exact ⟨pointers[i], List.getElem?_eq_getElem within, displays.copies.get within inside⟩

/-! ### Cloning -/

theorem dereference_prefix {materials : List MaterialObject} (unchanged : cached <+: materials)
    {pointer : MaterialPointer} (owned : ∀ index, pointer = some index → index < cached.length) :
    dereference materials pointer = dereference cached pointer := by
  obtain ⟨own, rfl⟩ := unchanged
  cases pointer with
  | none => rfl
  | some index =>
    simp only [dereference, Option.bind_some]
    rw [List.getElem?_append_left (owned index rfl)]

/-- A pointer to a cached object can be followed, unless it is NULL. -/
theorem dereference_owned {pointer : MaterialPointer}
    (owned : ∀ index, pointer = some index → index < cached.length) :
    (pointer = none ∧ dereference cached pointer = .error .nullMaterial) ∨
      ∃ object, dereference cached pointer = .ok object := by
  cases pointer with
  | none => exact .inl ⟨rfl, rfl⟩
  | some index =>
    have inside := owned index rfl
    refine .inr ⟨cached[index], ?_⟩
    simp [dereference, inside]

theorem dereference_ok_lt {pointer : ℕ} {object : MaterialObject}
    (found : dereference cached (some pointer) = .ok object) : pointer < cached.length := by
  by_contra beyond
  simp [dereference, List.getElem?_eq_none (Nat.le_of_not_lt beyond)] at found

/-- The glyphs that `cloneGlyphs` displays from index `i` on. -/
def clonedFrom (i : ℕ) (glyphs : List MaterialPointer) : List (DisplayGlyph MaterialPointer) :=
  glyphs.mapIdx fun j glyph => ⟨glyph, if 0 < i + j then some .gray else none⟩

theorem clonedFrom_cons (i : ℕ) (glyph : MaterialPointer) (glyphs : List MaterialPointer) :
    clonedFrom i (glyph :: glyphs) =
      ⟨glyph, if 0 < i then some .gray else none⟩ :: clonedFrom (i + 1) glyphs := by
  simp only [clonedFrom, List.mapIdx_cons, Nat.add_zero]
  congr 2
  funext j glyph
  rw [Nat.add_right_comm, Nat.add_assoc]

theorem clonedFrom_zero (glyphs : List MaterialPointer) :
    clonedFrom 0 glyphs = glyphs.mapIdx fun i glyph => ⟨glyph, if 0 < i then some .gray else none⟩ := by
  simp only [clonedFrom, Nat.zero_add]

theorem cloneGlyphs_copies (glyphs : List MaterialPointer) (i : ℕ) {materials : List MaterialObject}
    (unchanged : cached <+: materials) (owned : ∀ pointer, some pointer ∈ glyphs → pointer < cached.length) :
    (none ∈ glyphs ∧ GlyphRoom.cloneGlyphs materials i glyphs = .error .nullMaterial) ∨
    ∃ own, GlyphRoom.cloneGlyphs materials i glyphs =
        .ok (materials ++ own, List.range' materials.length glyphs.length) ∧
      List.Forall₂ (Copies cached (materials ++ own)) (List.range' materials.length glyphs.length)
        (clonedFrom i glyphs) := by
  induction glyphs generalizing i materials with
  | nil =>
    refine .inr ⟨[], ?_, .nil⟩
    rw [List.append_nil]
    rfl
  | cons glyph glyphs inductionHypothesis =>
    have ownedFront : ∀ index, glyph = some index → index < cached.length :=
      fun index same => owned index (same ▸ List.mem_cons_self)
    simp only [GlyphRoom.cloneGlyphs, dereference_prefix unchanged ownedFront]
    cases dereference_owned ownedFront with
    | inl fails =>
      obtain ⟨rfl, null⟩ := fails
      rw [null]
      exact .inl ⟨List.mem_cons_self, rfl⟩
    | inr loads =>
      obtain ⟨object, found⟩ := loads
      rw [found]
      simp only
      generalize cloned : (if 0 < i then { object with diffColor := Color.gray } else object) = clone
      cases inductionHypothesis (i + 1) (unchanged.trans (List.prefix_append materials [clone]))
          (fun pointer member => owned pointer (List.mem_cons_of_mem _ member)) with
      | inl fails =>
        rw [fails.2]
        exact .inl ⟨List.mem_cons_of_mem _ fails.1, rfl⟩
      | inr clones =>
        obtain ⟨own, made, copies⟩ := clones
        rw [made]
        refine .inr ⟨clone :: own, ?_, ?_⟩
        · simp [Except.map, List.range'_succ]
        · rw [List.append_assoc, List.length_append] at copies
          rw [clonedFrom_cons, List.length_cons, List.range'_succ]
          refine .cons ⟨object, found, ?_⟩ copies
          simp only [List.getElem?_append_right (Nat.le_refl _), Nat.sub_self, List.getElem?_cons_zero, ← cloned]
          split <;> rfl

/-- The clones of a row are new objects, one for each node. -/
theorem HoldsRow.cloned {materials own : List MaterialObject} (unchanged : cached <+: materials) {count : ℕ}
    {glyphs : List (DisplayGlyph MaterialPointer)}
    (copies : List.Forall₂ (Copies cached (materials ++ own)) (List.range' materials.length count) glyphs) :
    HoldsRow cached (materials ++ own) (List.range' materials.length count) glyphs := by
  constructor
  · exact copies
  · exact List.nodup_range'
  · intro pointer member
    exact unchanged.length_le.trans (List.mem_range'_1.mp member).1
  · exact unchanged.trans (List.prefix_append materials own)

end Clones

/-! ## The refinement -/

section Refinement

variable {cached : List MaterialObject} {created : List MaterialPointer}

/-- The objects stand for a puzzle room of pointers whose posters were created with `created`. -/
structure Refines (cached : List MaterialObject) (created : List MaterialPointer) (objects : GlyphRoom Time)
    (room : PuzzleRoom MaterialPointer Time) : Prop where
  posters : objects.posters = room.posters
  swapTimer : objects.swapTimer = room.wright.swapTimer
  sequences : objects.sequences = room.wright.sequences.map GlyphSequence.glyphs
  displays : HoldsRow cached objects.materials objects.displayGlyphs room.wright.displayGlyphs
  owned : ∀ pointer, some pointer ∈ created → pointer < cached.length
  permuted : room.posters.Perm created
  shown : room.Shown

/-- A handler leaves objects that stand for the next room, or it followed the NULL material of a
    poster. -/
inductive Simulates (cached : List MaterialObject) (created : List MaterialPointer)
    (room : PuzzleRoom MaterialPointer Time) : Except Fault (GlyphRoom Time) → Prop where
  | done {objects : GlyphRoom Time} (refines : Refines cached created objects room) :
      Simulates cached created room (.ok objects)
  | null (loadless : none ∈ created) : Simulates cached created room (.error .nullMaterial)

theorem Refines.remaining_created {objects : GlyphRoom Time} {room : PuzzleRoom MaterialPointer Time}
    (refines : Refines cached created objects room) {pointer : MaterialPointer}
    (remains : pointer ∈ room.wright.remaining) : pointer ∈ created :=
  refines.permuted.mem_iff.mp (refines.shown remains)

theorem Refines.updateDisplayGlyphs {objects : GlyphRoom Time} {room : PuzzleRoom MaterialPointer Time}
    (refines : Refines cached created objects room) :
    Simulates cached created { room with wright := room.wright.updateDisplayGlyphs }
      objects.updateDisplayGlyphs := by
  obtain ⟨posters, ⟨swapTimer, sequences, displayGlyphs⟩⟩ := room
  have same := refines.sequences
  cases sequences with
  | nil =>
    change objects.sequences = [] at same
    simp only [GlyphRoom.updateDisplayGlyphs, same]
    exact .done ⟨refines.posters, refines.swapTimer, rfl, .nil refines.displays.unchanged, refines.owned,
      refines.permuted, refines.shown⟩
  | cons current later =>
    change objects.sequences = current.glyphs :: later.map GlyphSequence.glyphs at same
    have size : objects.displayGlyphs.length = displayGlyphs.length := refines.displays.copies.length_eq
    have remaining : ∀ pointer ∈ current.glyphs, pointer ∈ created :=
      fun pointer member => refines.remaining_created (List.mem_append_left _ member)
    simp only [GlyphRoom.updateDisplayGlyphs, same, MrWright.updateDisplayGlyphs, size]
    split
    · cases cloneGlyphs_copies current.glyphs 0 refines.displays.unchanged
          (fun pointer member => refines.owned pointer (remaining _ member)) with
      | inl fails =>
        rw [fails.2]
        exact .null (remaining none fails.1)
      | inr clones =>
        obtain ⟨own, made, copies⟩ := clones
        rw [made]
        rw [clonedFrom_zero] at copies
        exact .done ⟨refines.posters, refines.swapTimer, rfl, .cloned refines.displays.unchanged copies,
          refines.owned, refines.permuted, refines.shown⟩
    · exact .done refines

theorem HoldsRow.painted (objects : GlyphRoom Time) {glyphs : List (DisplayGlyph MaterialPointer)}
    (displays : HoldsRow cached objects.materials objects.displayGlyphs glyphs) {index : ℕ}
    (inside : index < glyphs.length) (color : Color) :
    ∃ materials, objects.paint index color = .ok { objects with materials := materials } ∧
      HoldsRow cached materials objects.displayGlyphs
        (glyphs.modify index ({ · with diffColor := some color })) := by
  have within : index < objects.displayGlyphs.length := by rwa [displays.copies.length_eq]
  have nodeAt := List.getElem?_eq_getElem within
  refine ⟨objects.materials.modify objects.displayGlyphs[index] ({ · with diffColor := color }), ?_, ?_⟩
  · have nonneg : ¬ (index : ℤ) < 0 := by omega
    simp only [GlyphRoom.paint, if_neg nonneg, Int.toNat_natCast, nodeAt]
  · exact displays.paint nodeAt color

/-- The guarded assignment paints the next node, if there is one. -/
theorem HoldsRow.paintedNext (objects : GlyphRoom Time) {glyphs : List (DisplayGlyph MaterialPointer)}
    (displays : HoldsRow cached objects.materials objects.displayGlyphs glyphs) (index : ℕ) (color : Color) :
    ∃ materials, (if (index : ℤ) + 1 < objects.displayGlyphs.length then objects.paint (index + 1) color
        else .ok objects) = .ok { objects with materials := materials } ∧
      HoldsRow cached materials objects.displayGlyphs
        (glyphs.modify (index + 1) ({ · with diffColor := some color })) := by
  have size := displays.copies.length_eq
  by_cases inside : index + 1 < glyphs.length
  · have guarded : (index : ℤ) + 1 < objects.displayGlyphs.length := by omega
    rw [if_pos guarded]
    exact HoldsRow.painted objects displays inside color
  · have guarded : ¬ (index : ℤ) + 1 < objects.displayGlyphs.length := by omega
    rw [if_neg guarded, List.modify_eq_self (by omega)]
    exact ⟨objects.materials, rfl, displays⟩

theorem Refines.matchFront {objects : GlyphRoom Time} {room : PuzzleRoom MaterialPointer Time}
    (refines : Refines cached created objects room) {current : GlyphSequence MaterialPointer}
    {later : List (GlyphSequence MaterialPointer)} (shape : room.wright.sequences = current :: later)
    (fits : current.glyphs.length ≤ room.wright.displayGlyphs.length) :
    Simulates cached created { room with wright := room.wright.matchFront current later }
      (objects.matchFront current.glyphs (later.map GlyphSequence.glyphs)) := by
  have size := refines.displays.copies.length_eq
  have some_left : 0 < current.glyphs.length := by simp [GlyphSequence.glyphs]
  obtain ⟨index, index_eq⟩ : ∃ index, room.wright.displayGlyphs.length - current.glyphs.length = index := ⟨_, rfl⟩
  have inside : index < room.wright.displayGlyphs.length := by omega
  have position : (objects.displayGlyphs.length : ℤ) - current.glyphs.length = index := by omega
  obtain ⟨first, paintedFirst, displaysFirst⟩ := HoldsRow.painted objects refines.displays inside .green
  obtain ⟨second, paintedSecond, displaysSecond⟩ :=
    HoldsRow.paintedNext { objects with materials := first } displaysFirst index .white
  have shown : (current.eraseFront later).flatMap GlyphSequence.glyphs ⊆ room.posters := by
    intro pointer member
    apply refines.shown
    rw [MrWright.remaining, shape]
    rw [MrWright.flatMap_eraseFront] at member
    exact List.mem_cons_of_mem _ member
  -- What remains of the sequences and the row with two nodes painted.
  have matched : Refines cached created
      { objects with
        materials := second
        sequences := (current.eraseFront later).map GlyphSequence.glyphs }
      { room with
        wright := { room.wright with
          sequences := current.eraseFront later
          displayGlyphs := (room.wright.displayGlyphs.modify index ({ · with diffColor := some .green })).modify
            (index + 1) ({ · with diffColor := some .white }) } } :=
    ⟨refines.posters, refines.swapTimer, rfl, displaysSecond, refines.owned, refines.permuted, shown⟩
  simp only [GlyphRoom.matchFront, position, paintedFirst, Except.bind, paintedSecond, MrWright.matchFront,
    index_eq]
  obtain ⟨front, rest⟩ := current
  cases rest with
  | nil => exact matched.updateDisplayGlyphs
  | cons next rest => exact .done matched

theorem Refines.handleNodeCollision {objects : GlyphRoom Time} {room : PuzzleRoom MaterialPointer Time}
    (refines : Refines cached created objects room) (displayed : room.wright.Displayed) (cache : SoundCache)
    (otherIsPerson : Bool) {posterMaterial : MaterialPointer} (shows : posterMaterial ∈ room.posters) :
    Simulates cached created
      { room with wright := (room.wright.handleNodeCollision cache otherIsPerson posterMaterial).1 }
      (objects.handleNodeCollision otherIsPerson posterMaterial) := by
  have onPoster : posterMaterial ∈ created := refines.permuted.mem_iff.mp shows
  have owned : ∀ index, posterMaterial = some index → index < cached.length :=
    fun index same => refines.owned index (same ▸ onPoster)
  have same := refines.sequences
  simp only [GlyphRoom.handleNodeCollision, MrWright.handleNodeCollision, same]
  cases shape : room.wright.sequences with
  | nil => exact .done refines
  | cons current later =>
    cases otherIsPerson with
    | false => exact .done refines
    | true =>
      simp only [List.map_cons, Bool.not_true, Bool.false_eq_true, if_false,
        dereference_prefix refines.displays.unchanged owned]
      cases dereference_owned owned with
      | inl fails =>
        obtain ⟨rfl, null⟩ := fails
        rw [null]
        exact .null onPoster
      | inr loads =>
        obtain ⟨object, found⟩ := loads
        rw [found]
        simp only [Except.bind, GlyphSequence.glyphs]
        by_cases wrong : posterMaterial ≠ current.front
        · rw [if_pos wrong, if_pos wrong]
          exact .done refines
        · rw [if_neg wrong, if_neg wrong]
          exact refines.matchFront shape (displayed current later shape)

section Handlers

variable [Add Time] [LT Time] [DecidableLT Time] [OfNat Time 0] [OfNat Time 10]

theorem Refines.update {objects : GlyphRoom Time} {room : PuzzleRoom MaterialPointer Time}
    (refines : Refines cached created objects room) (cache : SoundCache) (timeStep : Time) (random : Random) :
    Refines cached created (objects.update timeStep random) (room.step cache (.update timeStep random)).1 := by
  simp only [GlyphRoom.update, PuzzleRoom.step, MrWright.update, refines.swapTimer, refines.posters]
  split
  · exact ⟨rfl, rfl, refines.sequences, refines.displays, refines.owned, refines.permuted, refines.shown⟩
  · have permuted := shuffle_perm random room.posters
    exact ⟨rfl, rfl, refines.sequences, refines.displays, refines.owned, permuted.trans refines.permuted,
      fun glyph remains => permuted.mem_iff.mpr (refines.shown remains)⟩

theorem Refines.step {objects : GlyphRoom Time} {room : PuzzleRoom MaterialPointer Time}
    (refines : Refines cached created objects room) (displayed : room.wright.Displayed) (cache : SoundCache)
    (event : PuzzleEvent Time) :
    Simulates cached created (room.step cache event).1 (objects.step event) := by
  cases event with
  | update timeStep random => exact .done (refines.update cache timeStep random)
  | touch poster otherIsPerson =>
    simp only [GlyphRoom.step, PuzzleRoom.step, refines.posters]
    cases shows : room.posters[poster]? with
    | none => exact .done refines
    | some posterMaterial =>
      exact refines.handleNodeCollision displayed cache otherIsPerson (List.mem_of_getElem? shows)

/-- The handlers do to the objects what they do to the puzzle room, and its row stays right. -/
theorem Simulates.runAll {drawn : List (GlyphSequence MaterialPointer)} (growing : PuzzleRoom.Growing drawn)
    {room : PuzzleRoom MaterialPointer Time} {outcome : Except Fault (GlyphRoom Time)}
    (simulates : Simulates cached created room outcome) (shows : PuzzleRoom.RowShows drawn room)
    (cache : SoundCache) (events : List (PuzzleEvent Time)) :
    let reached := run (fun room event => (PuzzleRoom.step cache room event).1) room events
    Simulates cached created reached (GlyphRoom.runAll outcome events) ∧ PuzzleRoom.RowShows drawn reached := by
  apply run_relates (fun outcome room => Simulates cached created room outcome ∧ PuzzleRoom.RowShows drawn room)
  · intro outcome room event both
    obtain ⟨simulates, shows⟩ := both
    refine ⟨?_, shows.step growing cache event⟩
    cases simulates with
    | done refines => exact refines.step shows.displayed cache event
    | null loadless => exact .null loadless
  · exact ⟨simulates, shows⟩

/-- The only fault of the handlers is a poster without a material. -/
theorem Simulates.fault {drawn : List (GlyphSequence MaterialPointer)} (growing : PuzzleRoom.Growing drawn)
    {room : PuzzleRoom MaterialPointer Time} {outcome : Except Fault (GlyphRoom Time)}
    (simulates : Simulates cached created room outcome) (shows : PuzzleRoom.RowShows drawn room)
    {events : List (PuzzleEvent Time)} {fault : Fault} (failed : GlyphRoom.runAll outcome events = .error fault) :
    fault = .nullMaterial ∧ none ∈ created := by
  obtain ⟨simulated, -⟩ := simulates.runAll growing shows (fun _ => none) events
  rw [failed] at simulated
  cases simulated with
  | null loadless => exact ⟨rfl, loadless⟩

end Handlers

/-! ### The start -/

theorem drawSequences_of_drawn (random : Random) (glyphs : List MaterialPointer) {sequenceCount : ℕ} :
    ∀ {glyphCount drawn : ℕ} {sequences : List (GlyphSequence MaterialPointer)},
      MrWright.drawSequences random glyphs sequenceCount glyphCount drawn = some sequences →
      GlyphRoom.drawSequences random glyphs sequenceCount glyphCount drawn =
        .ok (sequences.map GlyphSequence.glyphs) := by
  induction sequenceCount with
  | zero =>
    rintro glyphCount drawn sequences ⟨⟩
    rfl
  | succ sequenceCount inductionHypothesis =>
    intro glyphCount drawn sequences drew
    simp only [MrWright.drawSequences] at drew
    split at drew
    · rename_i front rest sequenceDrawn
      obtain ⟨later, laterDrawn, rfl⟩ := Option.map_eq_some_iff.mp drew
      simp only [GlyphRoom.drawSequences, sequenceDrawn, inductionHypothesis laterDrawn]
      rfl
    · cases drew

/-- With six posters the sequences are drawn, and the row shows the first of them. -/
theorem delayedStart_simulates {posters : List MaterialPointer}
    (owned : ∀ pointer, some pointer ∈ posters → pointer < cached.length) (enough : 6 ≤ posters.length)
    (random : Random) (swapTimer : Time) :
    ∃ drawn room, PuzzleRoom.Growing drawn ∧
      GlyphRoom.drawSequences random posters 3 2 0 = .ok (drawn.map GlyphSequence.glyphs) ∧
      PuzzleRoom.start random swapTimer posters = some room ∧ room.wright.sequences = drawn ∧
      PuzzleRoom.RowShows drawn room ∧
      Simulates cached posters room (GlyphRoom.delayedStart cached posters random swapTimer) := by
  obtain ⟨drawn, drew, sizes, shown⟩ :=
    MrWright.drawSequences_returns random posters 3 2 0 (by omega) (by omega)
  have drewLists := drawSequences_of_drawn random posters drew
  refine ⟨drawn, ⟨posters, MrWright.updateDisplayGlyphs ⟨swapTimer, drawn, []⟩⟩, ?_, drewLists, ?_, ?_, ?_, ?_⟩
  · rw [PuzzleRoom.Growing, sizes]
    decide
  · rw [PuzzleRoom.start, MrWright.delayedStart, drew]
    rfl
  · exact MrWright.updateDisplayGlyphs_sequences _
  · apply PuzzleRoom.RowShows.updateDisplayGlyphs
    · exact List.suffix_refl drawn
    · intro current later _
      simp [GlyphSequence.glyphs]
  · have started : Refines cached posters
        ⟨cached, posters, swapTimer, drawn.map GlyphSequence.glyphs, []⟩ ⟨posters, swapTimer, drawn, []⟩ :=
      ⟨rfl, rfl, rfl, .nil (List.prefix_refl cached), owned, List.Perm.refl posters, shown⟩
    rw [GlyphRoom.delayedStart, drewLists]
    exact started.updateDisplayGlyphs

end Refinement

end SneakySneaky
