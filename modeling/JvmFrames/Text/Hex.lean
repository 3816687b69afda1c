/-!
Bytes in hexadecimal: two lower-case digits each.
-/

namespace JvmFrames.Text

def hexByte (byte : UInt8) : String :=
  String.ofList [Nat.digitChar (byte.toNat / 16), Nat.digitChar (byte.toNat % 16)]

def hex (separator : String) (bytes : List UInt8) : String :=
  separator.intercalate (bytes.map hexByte)

end JvmFrames.Text
