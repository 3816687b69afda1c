/-!
Decimal numerals for 16-bit words, as offsets are written in a listing.
-/

namespace JvmFrames.Text

def readWord (text : List Char) : Option UInt16 :=
  let digits := match text with
    | '+' :: rest => rest
    | _ => text
  let value := Nat.ofDigitChars 10 digits 0
  if digits ≠ [] ∧ digits.all Char.isDigit ∧ value < 65536 then
    some (UInt16.ofNat value)
  else
    none

def decimal (number : Nat) : List Char :=
  Nat.toDigits 10 number

theorem readWord_decimal (word : UInt16) : readWord (decimal word.toNat) = some word := by
  unfold readWord decimal
  have digits : ∀ character ∈ Nat.toDigits 10 word.toNat, character.isDigit = true := by
    intro character member
    exact Nat.isDigit_of_mem_toDigits (by omega) (by omega) member
  have value : Nat.ofDigitChars 10 (Nat.toDigits 10 word.toNat) 0 = word.toNat :=
    Nat.ofDigitChars_toDigits (by omega) (by omega)
  have bound := word.toNat_lt
  cases text : Nat.toDigits 10 word.toNat with
  | nil => exact absurd text Nat.toDigits_ne_nil
  | cons first rest =>
    rw [text] at digits value
    have unsigned : first ≠ '+' := by
      intro same
      have isDigit := digits first List.mem_cons_self
      rw [same] at isDigit
      contradiction
    split
    · rename_i tail same
      exact absurd (List.cons.inj same).1 unsigned
    · simp only [value]
      rw [if_pos ⟨List.cons_ne_nil _ _, List.all_eq_true.mpr digits, bound⟩]
      simp

def alignRight (width : Nat) (text : String) : String :=
  String.ofList (text.toList.leftpad width ' ')

end JvmFrames.Text
