import JvmFrames.Name

/-!
Descriptors: the types of fields and the signatures of methods, with the text they are written as
and the number of slots a value takes.
-/

namespace JvmFrames

inductive BaseType where
  | byte
  | char
  | double
  | float
  | int
  | long
  | short
  | boolean
  deriving DecidableEq, Repr

namespace BaseType

def letter : BaseType → Char
  | .byte => 'B'
  | .char => 'C'
  | .double => 'D'
  | .float => 'F'
  | .int => 'I'
  | .long => 'J'
  | .short => 'S'
  | .boolean => 'Z'

def ofLetter? : Char → Option BaseType
  | 'B' => some .byte
  | 'C' => some .char
  | 'D' => some .double
  | 'F' => some .float
  | 'I' => some .int
  | 'J' => some .long
  | 'S' => some .short
  | 'Z' => some .boolean
  | _ => none

def width : BaseType → Nat
  | .double | .long => 2
  | _ => 1

theorem letter_of_ofLetter? {found : Char} {base : BaseType} (known : ofLetter? found = some base) :
    base.letter = found := by
  unfold ofLetter? at known
  split at known <;> first | contradiction | (cases known; rfl)

end BaseType

/-- A type of a field, a parameter or a local. An array is a reference to the array's own name. -/
inductive FieldType where
  | base (type : BaseType)
  | reference (name : BinaryName)
  deriving DecidableEq, Repr

namespace FieldType

def width : FieldType → Nat
  | .base type => type.width
  | .reference _ => 1

def render : FieldType → String
  | .base type => String.singleton type.letter
  | .reference name => if name.isArray then name.text else "L" ++ name.text ++ ";"

def array (element : FieldType) : FieldType :=
  .reference ⟨"[" ++ element.render⟩

end FieldType

structure MethodDescriptor where
  parameters : List FieldType
  result : Option FieldType
  deriving DecidableEq, Repr

namespace MethodDescriptor

def renderResult : Option FieldType → String
  | none => "V"
  | some type => type.render

def render (method : MethodDescriptor) : String :=
  "(" ++ String.join (method.parameters.map FieldType.render) ++ ")" ++ renderResult method.result

end MethodDescriptor

end JvmFrames
