import JvmFrames.Text.Unseen

/-!
Texts in quotation marks, as failures show them. Quotation marks and backslashes are escaped, and so
are characters that would not be seen.
-/

namespace JvmFrames.Text

def escape (character : Char) : List Char :=
  match character with
  | '"' => ['\\', '"']
  | '\\' => ['\\', '\\']
  | '\n' => ['\\', 'n']
  | '\r' => ['\\', 'r']
  | '\t' => ['\\', 't']
  | '\x00' => ['\\', '0']
  | _ =>
    if isUnseen character then
      ['\\', 'u', '\x7b'] ++ Nat.toDigits 16 character.toNat ++ ['\x7d']
    else
      [character]

def quote (text : String) : String :=
  String.ofList ('"' :: text.toList.flatMap escape ++ ['"'])

end JvmFrames.Text
