import Mathlib.Data.Rat.Floor
import Mathlib.Tactic.Linarith
import SneakySneaky.Foundation.Decimal
import SneakySneaky.Foundation.Loops

/-! # What the game takes from the engine

The value types of the engine that the game computes with (vectors, colours, XML
elements), in exact arithmetic, and the engine's services as data: the resource cache
is a function from a resource name to the resource or NULL. -/

namespace SneakySneaky

open SneakySneaky.Foundation

/-! ## Vectors and colours -/

structure IntVector2 where
  x : ℤ
  y : ℤ
  deriving DecidableEq

structure Vector2 where
  x : ℚ
  y : ℚ
  deriving DecidableEq

@[ext] structure Vector3 where
  x : ℚ
  y : ℚ
  z : ℚ
  deriving DecidableEq

namespace Vector3

def zero : Vector3 := ⟨0, 0, 0⟩

instance : Add Vector3 := ⟨fun left right => ⟨left.x + right.x, left.y + right.y, left.z + right.z⟩⟩
instance : Sub Vector3 := ⟨fun left right => ⟨left.x - right.x, left.y - right.y, left.z - right.z⟩⟩

@[simp] theorem add_x (left right : Vector3) : (left + right).x = left.x + right.x := rfl
@[simp] theorem add_y (left right : Vector3) : (left + right).y = left.y + right.y := rfl
@[simp] theorem add_z (left right : Vector3) : (left + right).z = left.z + right.z := rfl
@[simp] theorem sub_x (left right : Vector3) : (left - right).x = left.x - right.x := rfl
@[simp] theorem sub_y (left right : Vector3) : (left - right).y = left.y - right.y := rfl
@[simp] theorem sub_z (left right : Vector3) : (left - right).z = left.z - right.z := rfl

def lengthSquared (v : Vector3) : ℚ := v.x * v.x + v.y * v.y + v.z * v.z

instance : HMul Vector3 ℚ Vector3 := ⟨fun v factor => ⟨v.x * factor, v.y * factor, v.z * factor⟩⟩

@[simp] theorem mul_x (v : Vector3) (factor : ℚ) : (v * factor).x = v.x * factor := rfl
@[simp] theorem mul_y (v : Vector3) (factor : ℚ) : (v * factor).y = v.y * factor := rfl
@[simp] theorem mul_z (v : Vector3) (factor : ℚ) : (v * factor).z = v.z * factor := rfl

/-- The vector with its height set to 0. -/
def horizontal (v : Vector3) : Vector3 := { v with y := 0 }

theorem scaled_one (v : Vector3) : v * (1 : ℚ) = v := by
  ext <;> simp

theorem scaled_eq_zero {v : Vector3} {factor : ℚ} (positive : 0 < factor) : v * factor = zero ↔ v = zero := by
  have nonzero : factor ≠ 0 := ne_of_gt positive
  simp only [Vector3.ext_iff, mul_x, mul_y, mul_z, zero, mul_eq_zero, nonzero, or_false]

theorem horizontal_sub_eq_zero {left right : Vector3} :
    (left - right).horizontal = zero ↔ left.x = right.x ∧ left.z = right.z := by
  simp [Vector3.ext_iff, horizontal, zero, sub_eq_zero]

end Vector3

/-- `Vector3::Normalize`, of which only this is used: the direction stays. -/
structure Normalization where
  apply : Vector3 → Vector3
  scales : ∀ v, ∃ factor : ℚ, 0 < factor ∧ apply v = v * factor

/-- A normalization that is exact for vectors along an axis, as tests need it. -/
def Normalization.alongAxes : Normalization where
  apply v := if v = .zero then v else v * (1 / (|v.x| + |v.y| + |v.z|))
  scales v := by
    split
    · exact ⟨1, one_pos, (Vector3.scaled_one v).symm⟩
    · rename_i nonzero
      refine ⟨_, one_div_pos.mpr ?_, rfl⟩
      by_contra small
      have x := abs_nonneg v.x
      have y := abs_nonneg v.y
      have z := abs_nonneg v.z
      exact nonzero (Vector3.ext (abs_eq_zero.mp (by linarith)) (abs_eq_zero.mp (by linarith))
        (abs_eq_zero.mp (by linarith)))

structure Color where
  r : ℚ
  g : ℚ
  b : ℚ
  a : ℚ
  deriving DecidableEq

namespace Color

def black : Color := ⟨0, 0, 0, 1⟩
def white : Color := ⟨1, 1, 1, 1⟩
def red : Color := ⟨1, 0, 0, 1⟩
def green : Color := ⟨0, 1, 0, 1⟩
def blue : Color := ⟨0, 0, 1, 1⟩
def gray : Color := ⟨1 / 2, 1 / 2, 1 / 2, 1⟩

end Color

/-! ## Resources -/

structure Sound where
  name : String
  deriving DecidableEq

/-- `ResourceCache::GetResource<Sound>`: `none` is the NULL pointer it returns for a sound
    it cannot load. -/
abbrev SoundCache := String → Option Sound

/-! ## XML -/

/-- An XML element; the child elements are in document order. -/
inductive XMLElement where
  | mk (name : String) (attributes : List (String × String)) (value : String)
      (children : List XMLElement)

namespace XMLElement

def name : XMLElement → String
  | .mk name _ _ _ => name

def attributes : XMLElement → List (String × String)
  | .mk _ attributes _ _ => attributes

/-- `GetValue`: the text content. -/
def value : XMLElement → String
  | .mk _ _ value _ => value

def children : XMLElement → List XMLElement
  | .mk _ _ _ children => children

def hasAttribute (element : XMLElement) (key : String) : Bool :=
  (element.attributes.lookup key).isSome

/-- `GetAttribute`: the empty string for an attribute that is not there. -/
def getAttribute (element : XMLElement) (key : String) : String :=
  (element.attributes.lookup key).getD ""

def isNamed (name : String) (element : XMLElement) : Bool := element.name = name

def childrenNamed (element : XMLElement) (name : String) : List XMLElement :=
  element.children.filter (isNamed name)

end XMLElement

/-- An element handle as the loaders step it: the element it stands on followed by its later
    siblings; the empty list is the null element that ends a loop. -/
abbrev XMLCursor := List XMLElement

def XMLElement.getChild (element : XMLElement) (name : String) : XMLCursor :=
  seek (isNamed name) element.children

def getNext (cursor : XMLCursor) (name : String) : XMLCursor :=
  advance (XMLElement.isNamed name) cursor

/-- The engine's parsers of attribute texts. -/
structure Conversions where
  toBool : String → Bool
  toFloat : String → ℚ
  toVector2 : String → Vector2
  toVector3 : String → Vector3

end SneakySneaky
