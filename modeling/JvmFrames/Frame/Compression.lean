import JvmFrames.CompressedFrame
import JvmFrames.Frame

/-!
Compression of frames: the comparison with the frame before, the form it allows, and the compressed
frame in that form. A comparison leaves both frames with what was found out remembered, and a
remembered change is the answer of every later comparison.
-/

namespace JvmFrames

inductive OrderFault where
  | deltaOverflow (pc delta : Int)
  | unordered (pc previousPc : Int)
  deriving DecidableEq, Repr

structure PlacedFrame where
  pc : Int
  frame : CompressedFrame VerificationType
  deriving DecidableEq, Repr

namespace Frame

def localsCount (frame : Frame) : Nat :=
  frame.knownCount.getD frame.locals.count

def rememberCount (frame : Frame) : Frame :=
  { frame with knownCount := some frame.localsCount }

def compareWith (frame previous : Frame) : LocalsChange :=
  Locals.changeFrom previous.locals previous.localsCount frame.locals frame.localsCount

def change (frame : Frame) (previous : Option Frame) : LocalsChange :=
  match frame.knownChange, previous with
  | some known, _ => known
  | none, none => .atEnd 0
  | none, some previous => frame.compareWith previous

def rememberChange (frame : Frame) (previous : Option Frame) : Frame :=
  match frame.knownChange, previous with
  | some _, _ => frame
  | none, none => { frame with knownChange := some (.atEnd 0) }
  | none, some previous =>
    { frame.rememberCount with knownChange := some (frame.compareWith previous) }

def rememberAsPrevious (previous frame : Frame) : Frame :=
  if frame.knownChange.isSome then previous else previous.rememberCount

def offsetDelta (frame : Frame) (previous : Option Frame) : Int :=
  match previous with
  | none => frame.pc
  | some previous => if previous.isPlaceholder then frame.pc else frame.pc - previous.pc - 1

def wordDelta (frame previous : Frame) : Except OrderFault UInt16 :=
  let delta := frame.offsetDelta (some previous)
  if 0 ≤ delta ∧ delta < 65536 then
    .ok (UInt16.ofNat delta.toNat)
  else
    .error (.deltaOverflow frame.pc delta)

def form (frame : Frame) (previous : Option Frame) : FrameForm :=
  FrameForm.select (frame.change previous) frame.stack.length (frame.offsetDelta previous)

def compressFull (frame : Frame) (delta : UInt16) : CompressedFrame VerificationType :=
  .full delta frame.locals.entries frame.stack

def compressAs (frame : Frame) (delta : UInt16) : FrameForm → CompressedFrame VerificationType
  | .same | .sameExtended => .same delta
  | .oneStackItem | .oneStackItemExtended =>
    match frame.stack with
    | item :: _ => .oneStackItem delta item
    | [] => frame.compressFull delta
  | .chop count => .chop delta count
  | .append count =>
    match frame.locals.slotFromEnd? count.toNat with
    | some slot => .append delta (Locals.entries (frame.locals.drop slot))
    | none => frame.compressFull delta
  | .full => frame.compressFull delta

end Frame

def FrameM.compress (previous : Frame) :
    FrameM OrderFault (CompressedFrame VerificationType) := do
  let frame ← get
  match frame.wordDelta previous with
  | .error fault => throw fault
  | .ok delta =>
    set (frame.rememberChange (some previous))
    pure (frame.compressAs delta (frame.form (some previous)))

def Frame.compress (frame previous : Frame) :
    Except OrderFault (CompressedFrame VerificationType) :=
  (resultOf (FrameM.compress previous) frame).map Prod.fst

namespace Frame

theorem run_compress (frame previous : Frame) :
    (FrameM.compress previous).run.run frame =
      match frame.wordDelta previous with
      | .error fault => (.error fault, frame)
      | .ok delta => (.ok (frame.compressAs delta (frame.form (some previous))),
          frame.rememberChange (some previous)) := by
  rw [FrameM.compress, run_get_bind]
  cases frame.wordDelta previous <;> rfl

theorem compress_eq (frame previous : Frame) :
    frame.compress previous =
      (frame.wordDelta previous).map fun delta =>
        frame.compressAs delta (frame.form (some previous)) := by
  rw [compress, resultOf, run_compress]
  cases frame.wordDelta previous <;> rfl

end Frame

/-- The outcome of compressing frames one after the other, and all the frames as it leaves them. -/
structure Encoding where
  outcome : Except OrderFault (List PlacedFrame)
  previous : Frame
  frames : List Frame
  deriving Repr

namespace Encoding

def stop (fault : OrderFault) (previous : Frame) (frames : List Frame) : Encoding :=
  ⟨.error fault, previous, frames⟩

def ofFrames (previous : Frame) : List Frame → Encoding
  | [] => ⟨.ok [], previous, []⟩
  | frame :: rest =>
    if !previous.isPlaceholder ∧ frame.pc ≤ previous.pc then
      stop (.unordered frame.pc previous.pc) previous (frame :: rest)
    else
      match frame.wordDelta previous with
      | .error fault => stop fault previous (frame :: rest)
      | .ok delta =>
        let compressed := frame.compressAs delta (frame.form (some previous))
        let following := ofFrames (frame.rememberChange (some previous)) rest
        { outcome := following.outcome.map (⟨frame.pc, compressed⟩ :: ·)
          previous := previous.rememberAsPrevious frame
          frames := following.previous :: following.frames }

end Encoding

end JvmFrames
