import JvmFrames.Bytes
import JvmFrames.CompressedFrame

/-!
The bytes of compressed frames and of whole stack map tables. A chop or an append form with a wrong
count is refused before its tag is written.
-/

namespace JvmFrames

inductive TypeEntry where
  | top
  | integer
  | float
  | double
  | long
  | null
  | uninitializedThis
  | object (classIndex : UInt16)
  | uninitialized (offset : UInt16)
  deriving DecidableEq, Repr

def TypeEntry.bytes : TypeEntry → List UInt8
  | .top => [0]
  | .integer => [1]
  | .float => [2]
  | .double => [3]
  | .long => [4]
  | .null => [5]
  | .uninitializedThis => [6]
  | .object classIndex => 7 :: wordBytes classIndex
  | .uninitialized offset => 8 :: wordBytes offset

namespace CompressedFrame

def writeEntry (entry : TypeEntry) : Written :=
  ⟨entry.bytes, none⟩

def write (frame : CompressedFrame TypeEntry) : Written :=
  match frame with
  | .same delta =>
    ⟨frame.tag :: (if frame.tag = 251 then wordBytes delta else []), none⟩
  | .oneStackItem delta item =>
    ⟨frame.tag :: (if frame.tag = 247 then wordBytes delta else []) ++ item.bytes, none⟩
  | .chop delta count =>
    if 1 ≤ count ∧ count ≤ 3 then
      ⟨frame.tag :: wordBytes delta, none⟩
    else
      .fail .chopCount
  | .append delta locals =>
    if 1 ≤ locals.length ∧ locals.length ≤ 3 then
      ⟨frame.tag :: wordBytes delta ++ locals.flatMap TypeEntry.bytes, none⟩
    else
      .fail .appendCount
  | .full delta locals stack =>
    Written.andThen ⟨frame.tag :: wordBytes delta, none⟩
      ((Written.counted writeEntry locals).andThen (Written.counted writeEntry stack))

def writeTable (frames : List (CompressedFrame TypeEntry)) : Written :=
  Written.counted write frames

end CompressedFrame

end JvmFrames
