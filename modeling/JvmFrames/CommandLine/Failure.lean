import JvmFrames.CompressedFrame.Encoding
import JvmFrames.ConstantPool
import JvmFrames.Frame.Compression
import JvmFrames.Listing
import JvmFrames.Text.Quoted

/-!
Everything that can make the command fail, and the one line that reports it.
-/

namespace JvmFrames

inductive ArgumentFault where
  | invalidName (name : String)
  | noSuperclass (declaration : String)
  | declaredTwice (name : BinaryName)
  | unknownSuperclass (name superclass : BinaryName)
  | interfaceSuperclass (name superclass : BinaryName)
  | missingListing
  deriving DecidableEq, Repr

def ArgumentFault.message : ArgumentFault → String
  | .invalidName name => s!"Invalid class name '{name}'"
  | .noSuperclass declaration => s!"Expected `NAME=SUPER`, but got '{declaration}'"
  | .declaredTwice name => s!"Class {name.text} is declared twice"
  | .unknownSuperclass name superclass =>
    s!"Superclass {superclass.text} of {name.text} must be declared first"
  | .interfaceSuperclass name superclass =>
    s!"Superclass {superclass.text} of {name.text} is an interface"
  | .missingListing => "Missing input listing"

inductive Failure where
  | argument (fault : ArgumentFault)
  | noSuchFile
  | listing (fault : ListingFault)
  | frame (fault : FaultAt)
  | order (fault : OrderFault)
  | poolFull (full : PoolFull)
  | encoding (fault : EncodeFault)
  deriving DecidableEq, Repr

def renderRecord (name : String) (fields : List (String × String)) : String :=
  name ++ " \x7b " ++ ", ".intercalate (fields.map fun field => field.1 ++ ": " ++ field.2) ++ " \x7d"

def renderTuple (name : String) (items : List String) : String :=
  name ++ "(" ++ ", ".intercalate items ++ ")"

def VerificationType.report : VerificationType → String
  | .top => "Top"
  | .integer => "Integer"
  | .float => "Float"
  | .double => "Double"
  | .long => "Long"
  | .null => "Null"
  | .uninitializedThis marker => renderTuple "UninitializedThis" [marker.render]
  | .object name => renderTuple "Object" [name.text]
  | .uninitialized offset marker =>
    renderRecord "Uninitialized" [("offset", toString offset.toNat), ("marker", marker.render)]

def FrameFault.report : FrameFault → String
  | .absentStackItem => "AbsentStackItem"
  | .topOnStack => "TopOnStack"
  | .missingHole slot => renderTuple "MissingWideHole" [toString slot]
  | .emptyStack => "EmptyStack"
  | .notArray type => renderTuple "NotArrayType" [type.report]
  | .depthMismatch left right => renderTuple "StackDepthMismatch" [toString left, toString right]
  | .incompatible left right => renderTuple "IncompatibleTypes" [left.report, right.report]

def FaultAt.report (fault : FaultAt) : String :=
  renderRecord "VerifierError" [("pc", toString fault.pc), ("kind", fault.cause.report)]

def ListingFault.report : ListingFault → String
  | .badLine number cause => renderTuple "BadInput" [toString number, Text.quote cause.message]
  | .unbuildable fault => fault.report

def OrderFault.report : OrderFault → String
  | .deltaOverflow pc delta =>
    renderRecord "OffsetDeltaOverflow" [("pc", toString pc), ("offset_delta", toString delta)]
  | .unordered pc previousPc =>
    renderRecord "UnorderedFrame" [("pc", toString pc), ("previous_pc", toString previousPc)]

def Constant.report : Constant → String
  | .utf8 text => renderTuple "Utf8" [Text.quote text]
  | .classRef nameIndex =>
    renderTuple "Class"
      [renderTuple "Utf8ConstantIndex" [renderTuple "ConstantIndex" [toString nameIndex.toNat]]]

def PoolFull.report (full : PoolFull) : String :=
  renderTuple "ConstantPoolOverflow"
    [renderRecord "ConstantPoolOverflow" [("constant", full.constant.report)]]

def EncodeFault.report (fault : EncodeFault) : String :=
  renderTuple "IoError"
    [renderRecord "Custom" [("kind", "InvalidData"), ("error", Text.quote fault.message)]]

def Failure.report : Failure → String
  | .argument fault => renderTuple "BadArgument" [Text.quote fault.message]
  | .noSuchFile =>
    renderTuple "IoError"
      [renderRecord "Os"
        [("code", "2"), ("kind", "NotFound"), ("message", Text.quote "No such file or directory")]]
  | .listing fault => fault.report
  | .frame fault => fault.report
  | .order fault => fault.report
  | .poolFull full => full.report
  | .encoding fault => fault.report

end JvmFrames
