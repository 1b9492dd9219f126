import Mathlib.Tactic.NormNum
import SneakySneaky.AudioManager

/-! # The contents of a room

For each floor tile with an XML file `LoadLevel` runs three loops over the children of
the file's root: `object`, `guard` and `audiozone`.  The loops step a sibling cursor by
hand.  A room loads completely exactly when every guard element has a waypoint: the guard
loop does not step its cursor past an element without one.

Nodes, lights and collision shapes that do not depend on the XML are left out. -/

namespace SneakySneaky

open SneakySneaky.Foundation

/-! ## What the loops create -/

/-- `SetScale` has an overload for a vector and one for a number. -/
inductive NodeScale where
  | vector (scale : Vector3)
  | uniform (scale : ℚ)
  deriving DecidableEq

structure ObjectNode where
  position : Vector3
  angles : Vector3
  scale : Option NodeScale
  model : String
  material : String
  hasRigidBody : Bool
  /-- The component to create and the element that its `LoadFromXML` reads. -/
  interaction : Option (String × XMLElement)
  navigable : Bool

structure GuardNode where
  worldPosition : Vector3
  waypoints : List Vector3
  path : List Vector3
  standsAtFirst : waypoints.head? = some worldPosition

/-- `Guard::SetWaypoints` on a new node at the first of some waypoints. -/
def GuardNode.create (first : Vector3) (rest : List Vector3) : GuardNode where
  worldPosition := first
  waypoints := first :: rest
  path := first :: rest
  standsAtFirst := rfl

structure AudioZoneNode where
  position : Vector3
  rotation : ℚ
  boxSize : Vector3
  zone : AudioZone
  deriving DecidableEq

structure RoomContents where
  objects : List ObjectNode
  guards : List GuardNode
  zones : List AudioZoneNode

/-! ## The loops -/

namespace LoadLevel

variable (conversions : Conversions) (cache : SoundCache) (roomPosition : Vector3)

def loadObject (child : XMLElement) : ObjectNode where
  position := conversions.toVector3 (child.getAttribute "position")
  angles := conversions.toVector3 (child.getAttribute "angles")
  scale :=
    if child.hasAttribute "scale" then
      -- A text that is no vector reads as zero and is then read as a number.
      let strScale := child.getAttribute "scale"
      let vecScale := conversions.toVector3 strScale
      if vecScale ≠ Vector3.zero then some (.vector vecScale)
      else some (.uniform (conversions.toFloat strScale))
    else none
  model := "Models/" ++ child.getAttribute "model" ++ ".mdl"
  material := "Materials/" ++ child.getAttribute "material" ++ ".xml"
  hasRigidBody :=
    child.hasAttribute "interaction" || !conversions.toBool (child.getAttribute "nonsolid")
  interaction :=
    if child.hasAttribute "interaction" then some (child.getAttribute "interaction", child) else none
  navigable :=
    !child.hasAttribute "interaction" && !conversions.toBool (child.getAttribute "nonsolid")

def loadObjects (root : XMLElement) (fuel : ℕ) : Option (List ObjectNode) :=
  sweep (XMLElement.isNamed "object")
    (fun _ child objects => some (objects ++ [loadObject conversions child]))
    fuel (root.getChild "object") []

/-- The waypoints of an element in world space. -/
def waypointsOf (child : XMLElement) : List Vector3 :=
  (child.childrenNamed "waypoint").map fun waypoint =>
    roomPosition + conversions.toVector3 (waypoint.getAttribute "position")

def loadWaypoints (fuel : ℕ) (child : XMLElement) : Option (List Vector3) :=
  sweep (XMLElement.isNamed "waypoint")
    (fun _ waypoint waypoints =>
      some (waypoints ++ [roomPosition + conversions.toVector3 (waypoint.getAttribute "position")]))
    fuel (child.getChild "waypoint") []

def guardBody (fuel : ℕ) (state : XMLCursor × List GuardNode) : Option (XMLCursor × List GuardNode) :=
  match state.1 with
  | [] => none
  | child :: _ =>
    (loadWaypoints conversions roomPosition fuel child).map fun waypoints =>
      match waypoints with
      | [] => state -- `continue`, which leaves `child` where it is
      | first :: rest => (getNext state.1 "guard", state.2 ++ [GuardNode.create first rest])

def guardLoop (fuel : ℕ) (state : XMLCursor × List GuardNode) : Option (XMLCursor × List GuardNode) :=
  whileLoop (fun state => !state.1.isEmpty) (guardBody conversions roomPosition) fuel state

def loadGuards (root : XMLElement) (fuel : ℕ) : Option (List GuardNode) :=
  (guardLoop conversions roomPosition fuel (root.getChild "guard", [])).map Prod.snd

def loadClip (audioChild : XMLElement) : Option Sound × ℚ :=
  (cache ("Audio/" ++ audioChild.value), conversions.toFloat (audioChild.getAttribute "delay"))

def loadClips (fuel : ℕ) (child : XMLElement) : Option AudioZone :=
  sweep (XMLElement.isNamed "audioclip")
    (fun _ audioChild zone =>
      let (sound, delay) := loadClip conversions cache audioChild
      some (zone.enqueueAudioClip sound delay))
    fuel (child.getChild "audioclip") .empty

def zoneNode (child : XMLElement) (zone : AudioZone) : AudioZoneNode :=
  let position := conversions.toVector2 (child.getAttribute "position")
  let size := conversions.toVector2 (child.getAttribute "size")
  { position := ⟨position.x, 0, position.y⟩
    rotation := conversions.toFloat (child.getAttribute "rotation")
    boxSize := ⟨size.x, 3, size.y⟩
    zone := zone }

def loadZones (root : XMLElement) (fuel : ℕ) : Option (List AudioZoneNode) :=
  sweep (XMLElement.isNamed "audiozone")
    (fun fuel child zones =>
      (loadClips conversions cache fuel child).map fun zone => zones ++ [zoneNode conversions child zone])
    fuel (root.getChild "audiozone") []

/-- The three loops of a room file; `none` when they need more fuel. -/
def loadRoom (root : XMLElement) (fuel : ℕ) : Option RoomContents :=
  (loadObjects conversions root fuel).bind fun objects =>
    (loadGuards conversions roomPosition root fuel).bind fun guards =>
      (loadZones conversions cache root fuel).map fun zones => ⟨objects, guards, zones⟩

/-! ## The loops that step their cursor -/

theorem loadObjects_computes (root : XMLElement) :
    Computes (loadObjects conversions root) ((root.childrenNamed "object").map (loadObject conversions)) :=
  sweep_collects (fun _ _ => computes_some _) root.children

theorem loadObjects_returned {root : XMLElement} {fuel : ℕ} {objects : List ObjectNode}
    (returned : loadObjects conversions root fuel = some objects) :
    objects = (root.childrenNamed "object").map (loadObject conversions) := by
  rw [sweep_returned (fun _ _ _ _ pushed => (Option.some.inj pushed).symm) returned,
    List.foldl_append_eq_append, List.nil_append, ← List.flatMap_def, ← List.map_eq_flatMap]
  rfl

theorem loadWaypoints_computes (child : XMLElement) :
    Computes (fun fuel => loadWaypoints conversions roomPosition fuel child)
      (waypointsOf conversions roomPosition child) :=
  sweep_collects (fun _ _ => computes_some _) child.children

theorem loadWaypoints_returned {fuel : ℕ} {child : XMLElement} {waypoints : List Vector3}
    (returned : loadWaypoints conversions roomPosition fuel child = some waypoints) :
    waypoints = waypointsOf conversions roomPosition child := by
  rw [sweep_returned (fun _ _ _ _ pushed => (Option.some.inj pushed).symm) returned,
    List.foldl_append_eq_append, List.nil_append, ← List.flatMap_def, ← List.map_eq_flatMap]
  rfl

/-- The zone of an audiozone element: its clips in document order, resolved by the cache. -/
def zoneOf (child : XMLElement) : AudioZone :=
  AudioZone.collect ((child.childrenNamed "audioclip").map (loadClip conversions cache))

theorem loadClips_computes (child : XMLElement) :
    Computes (fun fuel => loadClips conversions cache fuel child) (zoneOf conversions cache child) := by
  rw [zoneOf, AudioZone.collect, List.foldl_map]
  exact sweep_computes (fun _ _ => computes_some _) child.children AudioZone.empty

theorem loadZones_computes (root : XMLElement) :
    Computes (loadZones conversions cache root)
      ((root.childrenNamed "audiozone").map fun child =>
        zoneNode conversions child (zoneOf conversions cache child)) :=
  sweep_collects (fun child _ => (loadClips_computes conversions cache child).map _) root.children

/-! ## The guard loop -/

theorem guardBody_advances {child : XMLElement} {first : Vector3} {rest : List Vector3}
    (waypoints : waypointsOf conversions roomPosition child = first :: rest) (later : XMLCursor)
    (guards : List GuardNode) :
    Computes (fun fuel => guardBody conversions roomPosition fuel (child :: later, guards))
      (getNext (child :: later) "guard", guards ++ [GuardNode.create first rest]) := by
  have loaded := loadWaypoints_computes conversions roomPosition child
  rw [waypoints] at loaded
  exact loaded.map _

theorem guardBody_advanced {child : XMLElement} {first : Vector3} {rest : List Vector3}
    (waypoints : waypointsOf conversions roomPosition child = first :: rest) {later : XMLCursor}
    {guards : List GuardNode} {fuel : ℕ} {next : XMLCursor × List GuardNode}
    (returned : guardBody conversions roomPosition fuel (child :: later, guards) = some next) :
    next = (getNext (child :: later) "guard", guards ++ [GuardNode.create first rest]) := by
  simp only [guardBody, Option.map_eq_some_iff] at returned
  obtain ⟨loaded, loadReturned, rfl⟩ := returned
  rw [loadWaypoints_returned conversions roomPosition loadReturned, waypoints]

theorem guardBody_continues {child : XMLElement} (waypoints : waypointsOf conversions roomPosition child = [])
    {later : XMLCursor} {guards : List GuardNode} {fuel : ℕ} {next : XMLCursor × List GuardNode}
    (returned : guardBody conversions roomPosition fuel (child :: later, guards) = some next) :
    next = (child :: later, guards) := by
  simp only [guardBody, Option.map_eq_some_iff] at returned
  obtain ⟨loaded, loadReturned, rfl⟩ := returned
  rw [loadWaypoints_returned conversions roomPosition loadReturned, waypoints]

theorem guardLoop_computes (elements : List XMLElement)
    (patrolling : ∀ child ∈ elements.filter (XMLElement.isNamed "guard"),
      waypointsOf conversions roomPosition child ≠ []) (guards : List GuardNode) :
    ∃ created : List GuardNode,
      created.map GuardNode.waypoints =
        (elements.filter (XMLElement.isNamed "guard")).map (waypointsOf conversions roomPosition) ∧
      Computes (fun fuel => guardLoop conversions roomPosition fuel
        (seek (XMLElement.isNamed "guard") elements, guards)) ([], guards ++ created) := by
  induction elements generalizing guards with
  | nil =>
    refine ⟨[], rfl, ?_⟩
    rw [List.append_nil]
    exact whileLoop_exit rfl
  | cons child elements inductionHypothesis =>
    cases decision : child.isNamed "guard" with
    | false =>
      -- The cursor passes over elements of other names.
      rw [List.filter_cons_of_neg (by simp [decision])] at patrolling ⊢
      rw [seek_cons_skipped elements decision]
      exact inductionHypothesis patrolling guards
    | true =>
      rw [List.filter_cons_of_pos decision] at patrolling ⊢
      rw [seek_cons_wanted elements decision]
      obtain ⟨first, rest, waypoints⟩ := List.exists_cons_of_ne_nil (patrolling child List.mem_cons_self)
      obtain ⟨created, createdWaypoints, looped⟩ := inductionHypothesis
        (fun later member => patrolling later (List.mem_cons_of_mem _ member))
        (guards ++ [GuardNode.create first rest])
      refine ⟨GuardNode.create first rest :: created, ?_, ?_⟩
      · rw [List.map_cons, List.map_cons, createdWaypoints, waypoints]
        rfl
      · rw [List.append_cons]
        exact whileLoop_iterate rfl (guardBody_advances conversions roomPosition waypoints elements guards) looped

theorem guardLoop_diverges (elements : List XMLElement)
    (stuck : ∃ child ∈ elements.filter (XMLElement.isNamed "guard"),
      waypointsOf conversions roomPosition child = []) (guards : List GuardNode) :
    Diverges (fun fuel => guardLoop conversions roomPosition fuel
      (seek (XMLElement.isNamed "guard") elements, guards)) := by
  induction elements generalizing guards with
  | nil =>
    obtain ⟨child, member, -⟩ := stuck
    cases member
  | cons child elements inductionHypothesis =>
    cases decision : child.isNamed "guard" with
    | false =>
      rw [List.filter_cons_of_neg (by simp [decision])] at stuck
      rw [seek_cons_skipped elements decision]
      exact inductionHypothesis stuck guards
    | true =>
      rw [List.filter_cons_of_pos decision] at stuck
      rw [seek_cons_wanted elements decision]
      -- Either the loop is stuck at this element, or it gets past it and is stuck later.
      cases waypoints : waypointsOf conversions roomPosition child with
      | nil =>
        exact whileLoop_stuck rfl fun fuel next returned =>
          guardBody_continues conversions roomPosition waypoints returned
      | cons first rest =>
        have stuckLater : ∃ later ∈ elements.filter (XMLElement.isNamed "guard"),
            waypointsOf conversions roomPosition later = [] := by
          obtain ⟨later, member, empty⟩ := stuck
          rcases List.mem_cons.mp member with rfl | member
          · rw [waypoints] at empty; cases empty
          · exact ⟨later, member, empty⟩
        exact whileLoop_diverges_of_next rfl
          (fun fuel reached returned => guardBody_advanced conversions roomPosition waypoints returned)
          (inductionHypothesis stuckLater _)

/-! ## Room files -/

/-- What loading a room file should come to: the loops end, and each has lost or repeated no
    element. -/
structure RoomLoads (root : XMLElement) (contents : RoomContents) : Prop where
  ends : Computes (loadRoom conversions cache roomPosition root) contents
  objects : contents.objects = (root.childrenNamed "object").map (loadObject conversions)
  guards : contents.guards.map GuardNode.waypoints =
    ((root.childrenNamed "guard").map (waypointsOf conversions roomPosition)).filter (!·.isEmpty)
  zones : contents.zones = (root.childrenNamed "audiozone").map fun child =>
    zoneNode conversions child (zoneOf conversions cache child)

theorem loadRoom_diverges {root : XMLElement}
    (stuck : ∃ child ∈ root.childrenNamed "guard", waypointsOf conversions roomPosition child = []) :
    Diverges (loadRoom conversions cache roomPosition root) := by
  have looped : Diverges (loadGuards conversions roomPosition root) :=
    (guardLoop_diverges conversions roomPosition root.children stuck []).map Prod.snd
  intro fuel
  simp only [loadRoom]
  cases loadObjects conversions root fuel with
  | none => rfl
  | some objects => rw [looped fuel]; rfl

/-- The loops of a room file end, with everything loaded, exactly when every guard element has a
    waypoint. -/
theorem room_loads_iff (root : XMLElement) :
    (∃ contents, RoomLoads conversions cache roomPosition root contents) ↔
      ∀ child ∈ root.childrenNamed "guard", child.childrenNamed "waypoint" ≠ [] := by
  have empty : ∀ child, waypointsOf conversions roomPosition child = [] ↔ child.childrenNamed "waypoint" = [] :=
    fun child => List.map_eq_nil_iff
  constructor
  · rintro ⟨contents, loads⟩ child member waypoints
    exact loads.ends.not_diverges
      (loadRoom_diverges conversions cache roomPosition ⟨child, member, (empty child).mpr waypoints⟩)
  · intro patrolling
    have patrols : ∀ child ∈ root.childrenNamed "guard", waypointsOf conversions roomPosition child ≠ [] :=
      fun child member none => patrolling child member ((empty child).mp none)
    obtain ⟨guards, waypoints, looped⟩ := guardLoop_computes conversions roomPosition root.children patrols []
    refine ⟨⟨_, guards, _⟩, ?_, rfl, ?_, rfl⟩
    · exact (loadObjects_computes conversions root).bind
        ((looped.map Prod.snd).bind ((loadZones_computes conversions cache root).map _))
    -- No element is without waypoints, so the filter of the statement keeps them all.
    · have kept : ∀ waypoints ∈ (root.childrenNamed "guard").map (waypointsOf conversions roomPosition),
          (!waypoints.isEmpty) = true := by
        intro waypoints member
        obtain ⟨child, created, rfl⟩ := List.mem_map.mp member
        simpa using patrols child created
      rw [List.filter_eq_self.mpr kept]
      exact waypoints

/-- A guard without waypoints before one with a waypoint. -/
def idleGuardRoom : XMLElement :=
  .mk "room" [] "" [.mk "guard" [] "" [], .mk "guard" [] "" [.mk "waypoint" [("position", "1 0 1")] "" []]]

/-- That file never loads, so its second guard is never created. -/
theorem idleGuardRoom_never_loads :
    let conversions : Conversions := ⟨fun _ => false, fun _ => 0, fun _ => ⟨0, 0⟩, fun _ => ⟨1, 0, 1⟩⟩
    Diverges (loadRoom conversions (fun _ => none) Vector3.zero idleGuardRoom) ∧
      ¬ ∃ contents, RoomLoads conversions (fun _ => none) Vector3.zero idleGuardRoom contents := by
  intro conversions
  have diverges : Diverges (loadRoom conversions (fun _ => none) Vector3.zero idleGuardRoom) :=
    loadRoom_diverges conversions _ _ ⟨.mk "guard" [] "" [], List.mem_cons_self, rfl⟩
  exact ⟨diverges, fun ⟨_, loads⟩ => loads.ends.not_diverges diverges⟩

end LoadLevel

end SneakySneaky
