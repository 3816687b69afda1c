import JvmFrames.CommandLine.Failure
import JvmFrames.CompressedFrame.Line
import JvmFrames.CompressedFrame.Resolution
import JvmFrames.Hierarchy.Library
import JvmFrames.MethodFrames
import JvmFrames.Text.Hex

/-!
The command: it declares interfaces and classes, reads a listing, merges the frames that meet, and
prints the compressed frames, on request with their bytes and the constant pool.
-/

namespace JvmFrames

structure Options where
  interfaces : List String := []
  classes : List String := []
  hex : Bool := false
  inputs : List String := []
  deriving DecidableEq, Repr

namespace Options

def valueOf? (option : String) (argument : String) : Option String :=
  let start := option.toList ++ ['=']
  if start.isPrefixOf argument.toList then
    some (String.ofList (argument.toList.drop start.length))
  else
    none

def withArgument (options : Options) (argument : String) : Options :=
  match valueOf? "--class" argument, valueOf? "--interface" argument with
  | some declaration, _ => { options with classes := declaration :: options.classes }
  | none, some name => { options with interfaces := name :: options.interfaces }
  | none, none =>
    if argument = "--hex" then { options with hex := true }
    else { options with inputs := argument :: options.inputs }

def ofArguments : List String → Options
  | [] => {}
  | [argument] => withArgument {} argument
  | argument :: value :: rest =>
    if argument = "--class" then
      let options := ofArguments rest
      { options with classes := value :: options.classes }
    else if argument = "--interface" then
      let options := ofArguments rest
      { options with interfaces := value :: options.interfaces }
    else
      (ofArguments (value :: rest)).withArgument argument

end Options

namespace Hierarchy

def declaredName (name : String) : Except ArgumentFault BinaryName :=
  match BinaryName.ofString name with
  | .ok name => .ok name
  | .error _ => .error (.invalidName name)

def declareInterface (hierarchy : Hierarchy) (declaration : String) :
    Except ArgumentFault Hierarchy := do
  let name ← declaredName declaration
  if (hierarchy.lookup name).isSome then
    throw (.declaredTwice name)
  else
    pure (hierarchy.declare name .object .ofInterface)

def splitDeclaration (declaration : String) : Except ArgumentFault (String × String) :=
  match declaration.toList.dropWhile (· != '=') with
  | [] => .error (.noSuperclass declaration)
  | _ :: superclass =>
    .ok (String.ofList (declaration.toList.takeWhile (· != '=')), String.ofList superclass)

def declareClass (hierarchy : Hierarchy) (declaration : String) :
    Except ArgumentFault Hierarchy := do
  let (nameText, superclassText) ← splitDeclaration declaration
  let name ← declaredName nameText
  let superclassName ← declaredName superclassText
  if (hierarchy.lookup name).isSome then
    throw (.declaredTwice name)
  else
    match hierarchy.lookup superclassName with
    | none => throw (.unknownSuperclass name superclassName)
    | some superclass =>
      if superclass.isInterface then
        throw (.interfaceSuperclass name superclassName)
      else
        pure (hierarchy.insert (ClassEntry.make name (some superclass) .ofClass))

def ofDeclarations (interfaces classes : List String) : Except ArgumentFault Hierarchy := do
  let withInterfaces ← interfaces.foldlM declareInterface library
  classes.foldlM declareClass withInterfaces

end Hierarchy

structure Outcome where
  exitCode : UInt8
  output : String
  errors : String
  deriving DecidableEq, Repr

namespace CommandLine

def succeed (output : String) : Outcome :=
  ⟨0, output, ""⟩

def fail (output : String) (failure : Failure) : Outcome :=
  ⟨1, output, "Error: " ++ failure.report ++ "\n"⟩

def compress (hierarchy : Hierarchy) (source : String) : Except Failure (List PlacedFrame) := do
  let listing ← ((Listing.read source).run.run {}).1.mapError Failure.listing
  let table ← (MethodFrames.recordAll hierarchy.commonSuperclass? { entry := listing.entry }
    listing.frames).mapError Failure.frame
  table.encode.outcome.mapError Failure.order

def printBytes (printed : String) (records : List PlacedFrame) : Outcome :=
  match (CompressedFrame.resolveAll (records.map (·.frame))).run.run .empty with
  | (.error full, _) => fail printed (.poolFull full)
  | (.ok frames, pool) =>
    match (CompressedFrame.writeTable frames).result with
    | .error fault => fail printed (.encoding fault)
    | .ok tableBytes =>
      let printed := printed ++ "StackMapTable: " ++ Text.hex " " tableBytes ++ "\n"
      match pool.write.result with
      | .error fault => fail printed (.encoding fault)
      | .ok poolBytes => succeed (printed ++ "constant_pool: " ++ Text.hex " " poolBytes ++ "\n")

def run (options : Options) (source : Option String) : Outcome :=
  match Hierarchy.ofDeclarations options.interfaces options.classes with
  | .error fault => fail "" (.argument fault)
  | .ok hierarchy =>
    match source with
    | none => fail "" .noSuchFile
    | some source =>
      match compress hierarchy source with
      | .error failure => fail "" failure
      | .ok records =>
        let printed := String.join (records.map fun record => record.render ++ "\n")
        if options.hex then printBytes printed records else succeed printed

end CommandLine

end JvmFrames
