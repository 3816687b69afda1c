import JvmFrames.FrameForm

/-!
Stack map frames as they are written relative to the frame before. The types they list are a
parameter: verification types while frames are compared, type entries once class names have become
indices.
-/

namespace JvmFrames

/-- The short and the extended form of a frame are one case; the offset delta tells them apart. -/
inductive CompressedFrame (α : Type) where
  | same (delta : UInt16)
  | oneStackItem (delta : UInt16) (item : α)
  | chop (delta : UInt16) (count : UInt8)
  | append (delta : UInt16) (locals : List α)
  | full (delta : UInt16) (locals : List α) (stack : List α)
  deriving DecidableEq, Repr

namespace CompressedFrame

variable {α β : Type}

def delta : CompressedFrame α → UInt16
  | .same delta | .oneStackItem delta _ | .chop delta _ | .append delta _ | .full delta _ _ => delta

def isShort (frame : CompressedFrame α) : Bool :=
  frame.delta.toNat ≤ 63

def form (frame : CompressedFrame α) : FrameForm :=
  match frame with
  | .same _ => if frame.isShort then .same else .sameExtended
  | .oneStackItem _ _ => if frame.isShort then .oneStackItem else .oneStackItemExtended
  | .chop _ count => .chop count
  | .append _ locals => .append (UInt8.ofNat (min locals.length 255))
  | .full _ _ _ => .full

def tag (frame : CompressedFrame α) : UInt8 :=
  match frame.form with
  | .same => frame.delta.toUInt8
  | .oneStackItem => frame.delta.toUInt8 + 64
  | .oneStackItemExtended => 247
  | .chop count => 251 - count
  | .sameExtended => 251
  | .append count => 251 + count
  | .full => 255

def traverse {m : Type → Type} [Monad m] (change : α → m β) :
    CompressedFrame α → m (CompressedFrame β)
  | .same delta => pure (.same delta)
  | .oneStackItem delta item => do
    let item ← change item
    pure (.oneStackItem delta item)
  | .chop delta count => pure (.chop delta count)
  | .append delta locals => do
    let locals ← locals.mapM change
    pure (.append delta locals)
  | .full delta locals stack => do
    let locals ← locals.mapM change
    let stack ← stack.mapM change
    pure (.full delta locals stack)

end CompressedFrame

end JvmFrames
