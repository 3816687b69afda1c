import JvmFrames.Computation
import JvmFrames.Locals
import JvmFrames.Frame.Fault

/-!
Frames: what is known about the locals and the stack at one offset of a method. The stack is listed
from its deepest item on, and a duplicate takes it over only if the frame lets it.

A frame remembers the number of its locals and how they changed from the frame before. Storing into
a local forgets both. The remembered change does not say which frame it was compared with, because a
frame is meant to be compared with one frame only.
-/

namespace JvmFrames

structure Frame where
  pc : Int
  locals : Locals := []
  stack : List VerificationType := []
  adoptsStack : Bool := true
  knownCount : Option Nat := none
  knownChange : Option LocalsChange := none
  deriving DecidableEq, Repr

abbrev FrameM (fault : Type) := ExceptT fault (StateM Frame)

namespace FrameM

def push : Option VerificationType → FrameM FrameFault Unit
  | none => throw .absentStackItem
  | some .top => throw .topOnStack
  | some type => modify fun frame => { frame with stack := frame.stack ++ [type] }

def pop : FrameM FrameFault VerificationType := do
  let frame ← get
  match frame.stack.getLast? with
  | none => throw .emptyStack
  | some type =>
    set { frame with stack := frame.stack.dropLast }
    pure type

def loadElement : FrameM FrameFault Unit := do
  let frame ← get
  match frame.stack.getLast? with
  | none => throw .emptyStack
  | some type =>
    match type.element? with
    | none => throw (.notArray type)
    | some element => set { frame with stack := frame.stack.dropLast ++ [element] }

end FrameM

namespace Frame

def placeholderPc : Int := -1

def placeholder : Frame := { pc := placeholderPc }

def isPlaceholder (frame : Frame) : Bool :=
  frame.pc = placeholderPc

def same (left right : Frame) : Bool :=
  left.pc = right.pc
    && left.locals.map (Option.map VerificationType.forgetCopy) =
      right.locals.map (Option.map VerificationType.forgetCopy)
    && left.stack.map VerificationType.forgetCopy = right.stack.map VerificationType.forgetCopy

def forget (frame : Frame) : Frame :=
  { frame with knownCount := none, knownChange := none }

def forgetChange (frame : Frame) : Frame :=
  { frame with knownChange := none }

def local? (frame : Frame) (slot : Nat) : Option VerificationType :=
  (frame.locals[slot]?).join

def push (frame : Frame) (item : Option VerificationType) : Except FrameFault Frame :=
  (resultOf (FrameM.push item) frame).map Prod.snd

def pushAll (frame : Frame) : List VerificationType → Except FrameFault Frame
  | [] => .ok frame
  | type :: rest =>
    match frame.push (some type) with
    | .error fault => .error fault
    | .ok pushed => pushed.pushAll rest

def ofSnapshot (pc : Int) (locals : Locals) (stack : List VerificationType) :
    Except FrameFault Frame :=
  match locals.missingHole? 0 with
  | some slot => .error (.missingHole slot)
  | none => pushAll { pc, locals } stack

def pop (frame : Frame) : Except FrameFault (VerificationType × Frame) :=
  resultOf FrameM.pop frame

def put (frame : Frame) (slot : Nat) (type : VerificationType) : Frame :=
  { frame with locals := frame.locals.put slot type }.forget

def loadElement (frame : Frame) : Except FrameFault Frame :=
  (resultOf FrameM.loadElement frame).map Prod.snd

def markInitialized (frame : Frame) (uninitialized : VerificationType) (name : BinaryName) :
    Frame :=
  let initialized := fun (type : VerificationType) =>
    if type.same uninitialized then VerificationType.object name else type
  { frame with
    locals := frame.locals.map (Option.map initialized)
    stack := frame.stack.map initialized }.forget

def copyLocal : Option VerificationType → StateM Copying (Option VerificationType)
  | none => pure none
  | some type => do
    let copied ← type.copy
    pure (some copied)

def copy (frame : Frame) : StateM Copying Frame := do
  let locals ← frame.locals.mapM copyLocal
  let stack ← (if frame.adoptsStack then frame.stack else []).mapM VerificationType.copy
  pure { pc := frame.pc, locals, stack, adoptsStack := frame.adoptsStack }

def duplicate (frame : Frame) : StateM MarkerSupply Frame := fun supply =>
  let (copied, copying) := frame.copy.run { supply }
  (copied, copying.supply)

def receiver (owner : BinaryName) (isStatic isConstructor : Bool) :
    StateM MarkerSupply (List VerificationType) :=
  if isConstructor then do
    let marker ← MarkerSupply.fresh
    pure [.uninitializedThis marker]
  else
    pure (if isStatic then [] else [.object owner])

def methodEntry (owner : BinaryName) (method : MethodDescriptor) (isStatic isConstructor : Bool) :
    StateM MarkerSupply Frame := do
  let received ← receiver owner isStatic isConstructor
  let parameters := method.parameters.map VerificationType.ofField
  pure { placeholder with locals := Locals.putAll [] 0 (received ++ parameters) }

end Frame

end JvmFrames
