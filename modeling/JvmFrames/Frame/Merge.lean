import JvmFrames.Frame

/-!
Merging of frames where control flow edges meet: stacks merge item by item, and two classes merge
into a class that is known to be above both.
-/

namespace JvmFrames

/-- What is known about the classes above two others; no answer stands for the root. -/
abbrev SuperTypes := BinaryName → BinaryName → Option BinaryName

namespace VerificationType

def merge (superTypes : SuperTypes) (left right : VerificationType) :
    Except FrameFault VerificationType :=
  if left.same right then
    .ok left
  else
    match left, right with
    | .object _, .null => .ok left
    | .null, .object _ => .ok right
    | .object leftName, .object rightName =>
      .ok (.object ((superTypes leftName rightName).getD .object))
    | _, _ => .error (.incompatible left right)

theorem merge_of_same (superTypes : SuperTypes) {left right : VerificationType}
    (agree : left.same right = true) : merge superTypes left right = .ok left := by
  unfold merge
  rw [if_pos agree]

def mergeAll (superTypes : SuperTypes) :
    List VerificationType → List VerificationType → Except FrameFault (List VerificationType)
  | left :: lefts, right :: rights => do
    let merged ← merge superTypes left right
    let rest ← mergeAll superTypes lefts rights
    pure (merged :: rest)
  | lefts, _ => pure lefts

end VerificationType

def Frame.merge (superTypes : SuperTypes) (frame other : Frame) : Except FrameFault Frame :=
  if other.isPlaceholder then
    .ok frame
  else if frame.isPlaceholder then
    .ok other
  else if frame.stack.length ≠ other.stack.length then
    .error (.depthMismatch frame.stack.length other.stack.length)
  else
    (VerificationType.mergeAll superTypes frame.stack other.stack).map fun stack =>
      { frame with stack }

def FrameM.merge (superTypes : SuperTypes) (other : Frame) : FrameM FrameFault Unit := do
  let frame ← get
  match frame.merge superTypes other with
  | .error fault => throw fault
  | .ok merged => set merged

end JvmFrames
