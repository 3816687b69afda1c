/-!
The text encoding of class files. It differs from UTF-8 in two places: the null character takes two
bytes, and characters beyond U+FFFF are written as a surrogate pair of three bytes each.
-/

namespace JvmFrames.ModifiedUtf8

def twoBytes (code : Nat) : List UInt8 :=
  [UInt8.ofNat (0xC0 + code / 64), UInt8.ofNat (0x80 + code % 64)]

def threeBytes (code : Nat) : List UInt8 :=
  [UInt8.ofNat (0xE0 + code / 4096), UInt8.ofNat (0x80 + code / 64 % 64),
    UInt8.ofNat (0x80 + code % 64)]

def encodeChar (character : Char) : List UInt8 :=
  let code := character.toNat
  if code = 0 then
    twoBytes 0
  else if code < 0x80 then
    [UInt8.ofNat code]
  else if code < 0x800 then
    twoBytes code
  else if code < 0x10000 then
    threeBytes code
  else
    threeBytes (0xD800 + (code - 0x10000) / 0x400) ++ threeBytes (0xDC00 + (code - 0x10000) % 0x400)

def encode (text : List Char) : List UInt8 :=
  text.flatMap encodeChar

theorem encode_append (first second : List Char) :
    encode (first ++ second) = encode first ++ encode second := by
  simp [encode]

end JvmFrames.ModifiedUtf8
