import JvmFrames.Frame.Compression
import JvmFrames.Text.Numeral

/-!
Compressed frames as lines of text: the offset, the form with its tag, the delta, and the types that
the frame lists.
-/

namespace JvmFrames

def renderTypes (types : List VerificationType) : String :=
  " ".intercalate (types.map VerificationType.render)

def CompressedFrame.renderPayload : CompressedFrame VerificationType → String
  | .same _ => ""
  | .oneStackItem _ item => " stack=[" ++ item.render ++ "]"
  | .chop _ count => " chop=" ++ toString count.toNat
  | .append _ locals => " append=[" ++ renderTypes locals ++ "]"
  | .full _ locals stack =>
    " locals=[" ++ renderTypes locals ++ "] stack=[" ++ renderTypes stack ++ "]"

def PlacedFrame.render (placed : PlacedFrame) : String :=
  Text.alignRight 5 (toString placed.pc) ++ "  " ++ placed.frame.form.name ++ " ("
    ++ toString placed.frame.tag.toNat ++ ") delta=" ++ toString placed.frame.delta.toNat
    ++ placed.frame.renderPayload

end JvmFrames
