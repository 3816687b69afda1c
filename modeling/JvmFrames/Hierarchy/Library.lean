import JvmFrames.Hierarchy

/-!
The library types that frames mention most often, in the order in which they enter a hierarchy.
-/

namespace JvmFrames.Hierarchy

def declare (hierarchy : Hierarchy) (name : BinaryName) (superclass : BinaryName)
    (flags : AccessFlags) : Hierarchy :=
  hierarchy.insert (ClassEntry.make name (hierarchy.lookup superclass) flags)

def declareAll (hierarchy : Hierarchy)
    (declarations : List (BinaryName × BinaryName × AccessFlags)) : Hierarchy :=
  declarations.foldl
    (fun grown declaration => grown.declare declaration.1 declaration.2.1 declaration.2.2) hierarchy

def finalClass : AccessFlags := { AccessFlags.ofClass with isFinal := true }

def abstractClass : AccessFlags := { AccessFlags.ofClass with isAbstract := true }

def libraryTypes : List (BinaryName × BinaryName × AccessFlags) :=
  [(.charSequence, .object, .ofInterface),
    (.comparable, .object, .ofInterface),
    (.cloneable, .object, .ofInterface),
    (.serializable, .object, .ofInterface),
    (.string, .object, finalClass),
    (.reflectedClass, .object, finalClass),
    (.number, .object, abstractClass),
    (.integer, .number, finalClass),
    (.float, .number, finalClass),
    (.long, .number, finalClass),
    (.double, .number, finalClass),
    (.throwable, .object, .ofClass),
    (.error, .throwable, .ofClass),
    (.exception, .throwable, .ofClass),
    (.runtimeException, .exception, .ofClass)]

def library : Hierarchy :=
  declareAll ⟨[ClassEntry.make .object none .ofClass]⟩ libraryTypes

end JvmFrames.Hierarchy
