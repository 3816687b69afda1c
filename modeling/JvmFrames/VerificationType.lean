import JvmFrames.Descriptor.Reader
import JvmFrames.Marker

/-!
Verification types: what is known about the value in a local slot or on the stack.
-/

namespace JvmFrames

inductive VerificationType where
  | top
  | integer
  | float
  | double
  | long
  | null
  | uninitializedThis (marker : Marker)
  | object (name : BinaryName)
  | uninitialized (offset : UInt16) (marker : Marker)
  deriving DecidableEq, Repr

namespace VerificationType

def isWide : VerificationType → Bool
  | .double | .long => true
  | _ => false

def width (type : VerificationType) : Nat :=
  if type.isWide then 2 else 1

def isReference : VerificationType → Bool
  | .null | .uninitializedThis _ | .object _ | .uninitialized _ _ => true
  | _ => false

def marker? : VerificationType → Option Marker
  | .uninitializedThis marker | .uninitialized _ marker => some marker
  | _ => none

def forgetCopy : VerificationType → VerificationType
  | .uninitializedThis marker => .uninitializedThis marker.forgetCopy
  | .uninitialized offset marker => .uninitialized offset marker.forgetCopy
  | type => type

/-- Types are the same when they agree on everything but the copy numbers of their markers. -/
def same (left right : VerificationType) : Bool :=
  left.forgetCopy = right.forgetCopy

theorem same_iff {left right : VerificationType} :
    left.same right = true ↔ left.forgetCopy = right.forgetCopy := by
  simp [same]

theorem same_refl (type : VerificationType) : type.same type = true :=
  same_iff.mpr rfl

theorem same_symm {left right : VerificationType} (agree : left.same right = true) :
    right.same left = true :=
  same_iff.mpr (same_iff.mp agree).symm

theorem same_trans {left middle right : VerificationType} (first : left.same middle = true)
    (second : middle.same right = true) : left.same right = true :=
  same_iff.mpr ((same_iff.mp first).trans (same_iff.mp second))

theorem width_of_same {left right : VerificationType} (agree : left.same right = true) :
    left.width = right.width := by
  have agree := same_iff.mp agree
  cases left <;> cases right <;> simp_all [forgetCopy, width, isWide]

def sameCopy (left right : VerificationType) : Bool :=
  left.marker?.isSome && left.marker? = right.marker?

def ofField : FieldType → VerificationType
  | .base .float => .float
  | .base .double => .double
  | .base .long => .long
  | .base _ => .integer
  | .reference name => .object name

def element? : VerificationType → Option VerificationType
  | .null => some .null
  | .object name => name.elementType?.map ofField
  | _ => none

def copy : VerificationType → StateM Copying VerificationType
  | .uninitializedThis marker => do
    let copied ← Copying.marker marker
    pure (.uninitializedThis copied)
  | .uninitialized offset marker => do
    let copied ← Copying.marker marker
    pure (.uninitialized offset copied)
  | type => pure type

def render : VerificationType → String
  | .top => "top"
  | .integer => "I"
  | .float => "F"
  | .double => "D"
  | .long => "J"
  | .null => "null"
  | .uninitializedThis _ => "this"
  | .object name => (FieldType.reference name).render
  | .uninitialized offset _ => s!"new@{offset.toNat}"

end VerificationType

end JvmFrames
