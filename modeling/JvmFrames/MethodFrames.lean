import JvmFrames.Frame.Compression
import JvmFrames.Frame.Merge

/-!
The frame on method entry, and the other frames of a method in the order of their offsets. Each edge
into an offset is recorded with the frame that flows along it, and frames that meet at an offset are
merged.
-/

namespace JvmFrames

structure MethodFrames where
  entry : Frame
  frames : List Frame := []
  deriving DecidableEq, Repr

abbrev MethodFramesM := ExceptT FaultAt (StateM MethodFrames)

namespace MethodFrames

def frameAt? (table : MethodFrames) (pc : Int) : Option Frame :=
  table.frames.find? fun frame => frame.pc = pc

/-- Inserts a frame at an offset that has none. The frame and the one behind it forget how their
locals changed, since each has another frame before it now. -/
def insertFrame (frame : Frame) : List Frame → List Frame
  | [] => [frame.forgetChange]
  | next :: rest =>
    if frame.pc < next.pc then
      frame.forgetChange :: next.forgetChange :: rest
    else
      next :: insertFrame frame rest

theorem insertFrame_pcs (frame : Frame) (frames : List Frame) :
    ((insertFrame frame frames).map (·.pc)).Perm (frame.pc :: frames.map (·.pc)) := by
  induction frames with
  | nil => simp [insertFrame, Frame.forgetChange]
  | cons next rest ih =>
    unfold insertFrame
    split
    · simp [Frame.forgetChange]
    · exact (ih.cons next.pc).trans (List.Perm.swap frame.pc next.pc _)

def replaceFrame (frame : Frame) (frames : List Frame) : List Frame :=
  frames.map fun existing => if existing.pc = frame.pc then frame else existing

end MethodFrames

def MethodFramesM.record (superTypes : SuperTypes) (frame : Frame) : MethodFramesM Unit :=
  if frame.isPlaceholder then
    pure ()
  else do
    let table ← get
    match table.frameAt? frame.pc with
    | none => set { table with frames := MethodFrames.insertFrame frame table.frames }
    | some existing =>
      match existing.merge superTypes frame with
      | .ok merged => set { table with frames := MethodFrames.replaceFrame merged table.frames }
      | .error cause => throw ⟨frame.pc, cause⟩

namespace MethodFrames

def record (superTypes : SuperTypes) (table : MethodFrames) (frame : Frame) :
    Except FaultAt MethodFrames :=
  (resultOf (MethodFramesM.record superTypes frame) table).map Prod.snd

def recordAll (superTypes : SuperTypes) (table : MethodFrames) :
    List Frame → Except FaultAt MethodFrames
  | [] => .ok table
  | frame :: rest =>
    match table.record superTypes frame with
    | .error fault => .error fault
    | .ok grown => grown.recordAll superTypes rest

def encode (table : MethodFrames) : Encoding :=
  Encoding.ofFrames table.entry table.frames

def afterEncode (table : MethodFrames) : MethodFrames :=
  { entry := table.encode.previous, frames := table.encode.frames }

end MethodFrames

end JvmFrames
