/-!
Names of classes, interfaces and arrays in their internal form. A class name has its packages
separated by slashes; an array is named by its descriptor, which starts with a bracket.
-/

namespace JvmFrames

structure BinaryName where
  text : String
  deriving DecidableEq, Hashable, Repr

namespace BinaryName

def isArray (name : BinaryName) : Bool :=
  name.text.toList.head? = some '['

def object : BinaryName := ⟨"java/lang/Object"⟩
def charSequence : BinaryName := ⟨"java/lang/CharSequence"⟩
def comparable : BinaryName := ⟨"java/lang/Comparable"⟩
def cloneable : BinaryName := ⟨"java/lang/Cloneable"⟩
def serializable : BinaryName := ⟨"java/io/Serializable"⟩
def string : BinaryName := ⟨"java/lang/String"⟩
def reflectedClass : BinaryName := ⟨"java/lang/Class"⟩
def number : BinaryName := ⟨"java/lang/Number"⟩
def integer : BinaryName := ⟨"java/lang/Integer"⟩
def float : BinaryName := ⟨"java/lang/Float"⟩
def long : BinaryName := ⟨"java/lang/Long"⟩
def double : BinaryName := ⟨"java/lang/Double"⟩
def throwable : BinaryName := ⟨"java/lang/Throwable"⟩
def error : BinaryName := ⟨"java/lang/Error"⟩
def exception : BinaryName := ⟨"java/lang/Exception"⟩
def runtimeException : BinaryName := ⟨"java/lang/RuntimeException"⟩

end BinaryName

end JvmFrames
