import JvmFrames.VerificationType

/-!
What can go wrong with a frame.
-/

namespace JvmFrames

inductive FrameFault where
  | absentStackItem
  | topOnStack
  | missingHole (slot : Nat)
  | emptyStack
  | notArray (type : VerificationType)
  | depthMismatch (left right : Nat)
  | incompatible (left right : VerificationType)
  deriving DecidableEq, Repr

structure FaultAt where
  pc : Int
  cause : FrameFault
  deriving DecidableEq, Repr

end JvmFrames
