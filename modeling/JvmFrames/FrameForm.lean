import JvmFrames.Locals.Change

/-!
The forms in which a stack map frame can be written, and the choice among them: the compact forms
say how the locals changed at their end, and all but the full form allow at most one stack item.
-/

namespace JvmFrames

inductive FrameForm where
  | same
  | sameExtended
  | oneStackItem
  | oneStackItemExtended
  | chop (count : UInt8)
  | append (count : UInt8)
  | full
  deriving DecidableEq, Repr

namespace FrameForm

def maxShortDelta : Int := 63

def maxDifference : Int := 3

def select (change : LocalsChange) (depth : Nat) (delta : Int) : FrameForm :=
  match change, depth with
  | .atEnd difference, 0 =>
    if difference = 0 then
      if delta ≤ maxShortDelta then .same else .sameExtended
    else if 0 < difference ∧ difference ≤ maxDifference then
      .append (UInt8.ofNat difference.toNat)
    else if difference < 0 ∧ -maxDifference ≤ difference then
      .chop (UInt8.ofNat (-difference).toNat)
    else
      .full
  | .atEnd difference, 1 =>
    if difference = 0 then
      if delta ≤ maxShortDelta then .oneStackItem else .oneStackItemExtended
    else
      .full
  | _, _ => .full

def name : FrameForm → String
  | .same => "same_frame"
  | .sameExtended => "same_frame_extended"
  | .oneStackItem => "same_locals_1_stack_item_frame"
  | .oneStackItemExtended => "same_locals_1_stack_item_frame_extended"
  | .chop _ => "chop_frame"
  | .append _ => "append_frame"
  | .full => "full_frame"

end FrameForm

end JvmFrames
