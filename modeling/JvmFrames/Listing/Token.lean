import JvmFrames.Text.Numeral
import JvmFrames.VerificationType

/-!
The words of a listing. A word is a type, with no markers yet, or the sign for an unused slot. Types
of one marker are written alike: all receivers of a constructor, and all objects made at one offset.
-/

namespace JvmFrames

inductive LineFault where
  | fieldCount
  | notEntry (found : String)
  | secondEntry
  | badPc (found : String)
  | badOffset (word : String)
  | badType (word : String) (cause : SyntaxError)
  | filledHole (slot : Nat)
  | missingHole
  | unusedOnStack
  | noEntry
  deriving DecidableEq, Repr

def LineFault.message : LineFault → String
  | .fieldCount => "Expected `PC | LOCALS | STACK`"
  | .notEntry found => s!"Expected `entry` frame, but got '{found}'"
  | .secondEntry => "Only the first frame is `entry`"
  | .badPc found => s!"Invalid offset '{found}'"
  | .badOffset word => s!"Invalid offset in '{word}'"
  | .badType word cause => s!"Invalid type '{word}': {cause.message}"
  | .filledHole slot => s!"Expected `-` in slot {slot} after a wide value"
  | .missingHole => "Missing `-` after a wide value"
  | .unusedOnStack => "Unused slots (`-`) cannot be on the stack"
  | .noEntry => "Listing has no entry frame"

inductive TypeToken where
  | unused
  | top
  | null
  | this
  | created (offset : UInt16)
  | field (type : FieldType)
  deriving DecidableEq, Repr

def TypeToken.read (word : List Char) : Except LineFault TypeToken :=
  match word with
  | ['-'] => .ok .unused
  | ['t', 'o', 'p'] => .ok .top
  | ['n', 'u', 'l', 'l'] => .ok .null
  | ['t', 'h', 'i', 's'] => .ok .this
  | 'n' :: 'e' :: 'w' :: '@' :: digits =>
    match Text.readWord digits with
    | some offset => .ok (.created offset)
    | none => .error (.badOffset (String.ofList word))
  | _ =>
    match (FieldType.read word).whole with
    | .ok type => .ok (.field type)
    | .error cause => .error (.badType (String.ofList word) cause)

structure MarkerBook where
  supply : MarkerSupply
  receiver : Option Marker := none
  created : List (UInt16 × Marker) := []

namespace MarkerBook

def receiverMarker : StateM MarkerBook Marker := fun book =>
  match book.receiver with
  | some marker => (marker, book)
  | none =>
    let (marker, supply) := MarkerSupply.fresh.run book.supply
    (marker, { book with supply, receiver := some marker })

def createdMarker (offset : UInt16) : StateM MarkerBook Marker := fun book =>
  match book.created.lookup offset with
  | some marker => (marker, book)
  | none =>
    let (marker, supply) := MarkerSupply.fresh.run book.supply
    (marker, { book with supply, created := (offset, marker) :: book.created })

end MarkerBook

def TypeToken.toType : TypeToken → StateM MarkerBook (Option VerificationType)
  | .unused => pure none
  | .top => pure (some .top)
  | .null => pure (some .null)
  | .this => do
    let marker ← MarkerBook.receiverMarker
    pure (some (.uninitializedThis marker))
  | .created offset => do
    let marker ← MarkerBook.createdMarker offset
    pure (some (.uninitialized offset marker))
  | .field type => pure (some (VerificationType.ofField type))

end JvmFrames
