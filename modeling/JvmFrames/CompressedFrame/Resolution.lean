import JvmFrames.CompressedFrame.Encoding
import JvmFrames.ConstantPool
import JvmFrames.VerificationType

/-!
Resolution of class names against a constant pool, which turns verification types into the entries
of a class file.
-/

namespace JvmFrames

def VerificationType.resolve : VerificationType → PoolM TypeEntry
  | .top => pure .top
  | .integer => pure .integer
  | .float => pure .float
  | .double => pure .double
  | .long => pure .long
  | .null => pure .null
  | .uninitializedThis _ => pure .uninitializedThis
  | .object name => do
    let classIndex ← ConstantPool.classOf name
    pure (.object classIndex)
  | .uninitialized offset _ => pure (.uninitialized offset)

namespace CompressedFrame

def resolve (frame : CompressedFrame VerificationType) : PoolM (CompressedFrame TypeEntry) :=
  frame.traverse VerificationType.resolve

def resolveAll (frames : List (CompressedFrame VerificationType)) :
    PoolM (List (CompressedFrame TypeEntry)) :=
  frames.mapM resolve

end CompressedFrame

end JvmFrames
