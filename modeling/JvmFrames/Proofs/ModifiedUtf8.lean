import JvmFrames.ModifiedUtf8

/-!
A decoder for the text encoding of class files, by the forms and the ranges of the format alone.
Bytes are read as UTF-16 code units, and code units as characters. The main statement is that the
decoder gives back every text, from bytes of which none is zero or above 0xEF.
-/

namespace JvmFrames.ModifiedUtf8

def Continues (byte : UInt8) : Prop :=
  0x80 ≤ byte.toNat ∧ byte.toNat < 0xC0

instance : DecidablePred Continues := fun byte =>
  inferInstanceAs (Decidable (0x80 ≤ byte.toNat ∧ byte.toNat < 0xC0))

def unitOfTwo? (first second : UInt8) : Option Nat :=
  let unit := first.toNat % 0x20 * 0x40 + second.toNat % 0x40
  if 0xC0 ≤ first.toNat ∧ first.toNat < 0xE0 ∧ Continues second ∧ (unit = 0 ∨ 0x80 ≤ unit) then
    some unit
  else
    none

def unitOfThree? (first second third : UInt8) : Option Nat :=
  let unit := first.toNat % 0x10 * 0x1000 + second.toNat % 0x40 * 0x40 + third.toNat % 0x40
  if 0xE0 ≤ first.toNat ∧ first.toNat < 0xF0 ∧ Continues second ∧ Continues third ∧
      0x800 ≤ unit then
    some unit
  else
    none

def units : List UInt8 → Option (List Nat)
  | [] => some []
  | first :: rest =>
    if 0 < first.toNat ∧ first.toNat < 0x80 then
      (units rest).map (first.toNat :: ·)
    else
      match rest with
      | [] => none
      | second :: rest =>
        match unitOfTwo? first second with
        | some unit => (units rest).map (unit :: ·)
        | none =>
          match rest with
          | [] => none
          | third :: rest =>
            match unitOfThree? first second third with
            | some unit => (units rest).map (unit :: ·)
            | none => none

def ofUnits : List Nat → Option (List Char)
  | [] => some []
  | unit :: rest =>
    if unit.isValidChar then
      (ofUnits rest).map (Char.ofNat unit :: ·)
    else
      match rest with
      | [] => none
      | low :: rest =>
        if unit < 0xDC00 ∧ 0xDC00 ≤ low ∧ low < 0xE000 then
          (ofUnits rest).map (Char.ofNat (0x10000 + (unit - 0xD800) * 0x400 + (low - 0xDC00)) :: ·)
        else
          none

def decode (bytes : List UInt8) : Option (List Char) :=
  (units bytes).bind ofUnits

section Forms

variable {code : Nat}

theorem unitOfTwo?_twoBytes (bound : code < 0x800) (form : code = 0 ∨ 0x80 ≤ code) :
    unitOfTwo? (UInt8.ofNat (0xC0 + code / 64)) (UInt8.ofNat (0x80 + code % 64)) = some code := by
  have first : (UInt8.ofNat (0xC0 + code / 64)).toNat = 0xC0 + code / 64 :=
    UInt8.toNat_ofNat_of_lt (show _ < 256 by omega)
  have second : (UInt8.ofNat (0x80 + code % 64)).toNat = 0x80 + code % 64 :=
    UInt8.toNat_ofNat_of_lt (show _ < 256 by omega)
  have unit : (0xC0 + code / 64) % 0x20 * 0x40 + (0x80 + code % 64) % 0x40 = code := by omega
  simp only [unitOfTwo?, Continues, first, second, unit]
  exact if_pos (by omega)

theorem unitOfThree?_threeBytes (bound : code < 0x10000) (form : 0x800 ≤ code) :
    unitOfThree? (UInt8.ofNat (0xE0 + code / 4096)) (UInt8.ofNat (0x80 + code / 64 % 64))
      (UInt8.ofNat (0x80 + code % 64)) = some code := by
  have first : (UInt8.ofNat (0xE0 + code / 4096)).toNat = 0xE0 + code / 4096 :=
    UInt8.toNat_ofNat_of_lt (show _ < 256 by omega)
  have second : (UInt8.ofNat (0x80 + code / 64 % 64)).toNat = 0x80 + code / 64 % 64 :=
    UInt8.toNat_ofNat_of_lt (show _ < 256 by omega)
  have third : (UInt8.ofNat (0x80 + code % 64)).toNat = 0x80 + code % 64 :=
    UInt8.toNat_ofNat_of_lt (show _ < 256 by omega)
  have unit : (0xE0 + code / 4096) % 0x10 * 0x1000 + (0x80 + code / 64 % 64) % 0x40 * 0x40 +
      (0x80 + code % 64) % 0x40 = code := by omega
  simp only [unitOfThree?, Continues, first, second, third, unit]
  exact if_pos (by omega)

variable (rest : List UInt8)

theorem units_oneByte (nonzero : 0 < code) (bound : code < 0x80) :
    units (UInt8.ofNat code :: rest) = (units rest).map (code :: ·) := by
  have value : (UInt8.ofNat code).toNat = code := UInt8.toNat_ofNat_of_lt (show _ < 256 by omega)
  rw [units.eq_def]
  simp only [value, nonzero, bound, and_self, if_true]

theorem units_twoBytes (bound : code < 0x800) (form : code = 0 ∨ 0x80 ≤ code) :
    units (twoBytes code ++ rest) = (units rest).map (code :: ·) := by
  have long : ¬ (UInt8.ofNat (0xC0 + code / 64)).toNat < 0x80 := by
    rw [UInt8.toNat_ofNat']
    omega
  rw [twoBytes, List.cons_append, List.cons_append, List.nil_append, units.eq_def]
  simp only [long, and_false, if_false, unitOfTwo?_twoBytes bound form]

theorem units_threeBytes (bound : code < 0x10000) (form : 0x800 ≤ code) :
    units (threeBytes code ++ rest) = (units rest).map (code :: ·) := by
  have first : (UInt8.ofNat (0xE0 + code / 4096)).toNat = 0xE0 + code / 4096 :=
    UInt8.toNat_ofNat_of_lt (show _ < 256 by omega)
  have long : ¬ (UInt8.ofNat (0xE0 + code / 4096)).toNat < 0x80 := by omega
  have notTwo : unitOfTwo? (UInt8.ofNat (0xE0 + code / 4096))
      (UInt8.ofNat (0x80 + code / 64 % 64)) = none := if_neg (by omega)
  rw [threeBytes, List.cons_append, List.cons_append, List.cons_append, List.nil_append,
    units.eq_def]
  simp only [long, and_false, if_false, notTwo, unitOfThree?_threeBytes bound form]

end Forms

def charUnits (character : Char) : List Nat :=
  let code := character.toNat
  if code < 0x10000 then
    [code]
  else
    [0xD800 + (code - 0x10000) / 0x400, 0xDC00 + (code - 0x10000) % 0x400]

theorem code_lt (character : Char) : character.toNat < 0x110000 := by
  have valid : character.toNat.isValidChar := character.valid
  unfold Nat.isValidChar at valid
  omega

theorem units_encodeChar (character : Char) (rest : List UInt8) :
    units (encodeChar character ++ rest) = (units rest).map (charUnits character ++ ·) := by
  have bound := code_lt character
  unfold encodeChar charUnits
  generalize character.toNat = code at bound
  by_cases zero : code = 0
  · subst zero
    exact units_twoBytes rest (by omega) (.inl rfl)
  by_cases one : code < 0x80
  · have single : code < 0x10000 := by omega
    simp only [zero, one, single, if_true, if_false]
    exact units_oneByte rest (Nat.pos_of_ne_zero zero) one
  by_cases two : code < 0x800
  · have single : code < 0x10000 := by omega
    simp only [zero, one, two, single, if_true, if_false]
    exact units_twoBytes rest two (.inr (by omega))
  by_cases three : code < 0x10000
  · simp only [zero, one, two, three, if_true, if_false]
    exact units_threeBytes rest three (by omega)
  · simp only [zero, one, two, three, if_false, List.append_assoc]
    rw [units_threeBytes _ (by omega) (by omega), units_threeBytes _ (by omega) (by omega),
      Option.map_map]
    rfl

theorem units_encode (text : List Char) : units (encode text) = some (text.flatMap charUnits) := by
  induction text with
  | nil => rfl
  | cons character rest ih =>
      change units (encodeChar character ++ encode rest) = _
      rw [units_encodeChar, ih]
      rfl

theorem ofUnits_charUnits (character : Char) (rest : List Nat) :
    ofUnits (charUnits character ++ rest) = (ofUnits rest).map (character :: ·) := by
  have bound := code_lt character
  by_cases single : character.toNat < 0x10000
  · simp only [charUnits, single, if_true, List.cons_append, List.nil_append]
    rw [ofUnits.eq_def]
    have valid : character.toNat.isValidChar := character.valid
    simp only [valid, if_true, Char.ofNat_toNat]
  · have invalid : ¬ (0xD800 + (character.toNat - 0x10000) / 0x400).isValidChar := by
      unfold Nat.isValidChar
      omega
    have surrogates : 0xD800 + (character.toNat - 0x10000) / 0x400 < 0xDC00 ∧
        0xDC00 ≤ 0xDC00 + (character.toNat - 0x10000) % 0x400 ∧
        0xDC00 + (character.toNat - 0x10000) % 0x400 < 0xE000 := by omega
    have code : 0x10000 + (0xD800 + (character.toNat - 0x10000) / 0x400 - 0xD800) * 0x400 +
        (0xDC00 + (character.toNat - 0x10000) % 0x400 - 0xDC00) = character.toNat := by omega
    simp only [charUnits, single, if_false, List.cons_append, List.nil_append]
    rw [ofUnits.eq_def]
    simp only [invalid, surrogates, and_self, if_true, if_false, code, Char.ofNat_toNat]

theorem ofUnits_flatMap_charUnits (text : List Char) :
    ofUnits (text.flatMap charUnits) = some text := by
  induction text with
  | nil => rfl
  | cons character rest ih =>
      rw [List.flatMap_cons, ofUnits_charUnits, ih]
      rfl

theorem decode_encode (text : List Char) : decode (encode text) = some text := by
  rw [decode, units_encode, Option.bind_some, ofUnits_flatMap_charUnits]

def Plain (byte : UInt8) : Prop :=
  byte ≠ 0 ∧ byte < 0xF0

theorem plain_ofNat {number : Nat} (nonzero : 0 < number) (bound : number < 0xF0) :
    Plain (UInt8.ofNat number) := by
  have value : (UInt8.ofNat number).toNat = number :=
    UInt8.toNat_ofNat_of_lt (show number < 256 by omega)
  constructor
  · intro zero
    rw [zero] at value
    exact Nat.ne_of_lt nonzero value
  · rw [UInt8.lt_iff_toNat_lt, value]
    exact bound

theorem plain_twoBytes {code : Nat} (bound : code < 0x800) :
    ∀ byte ∈ twoBytes code, Plain byte := by
  simp only [twoBytes, List.forall_mem_cons, List.not_mem_nil, false_implies, implies_true,
    and_true]
  exact ⟨plain_ofNat (by omega) (by omega), plain_ofNat (by omega) (by omega)⟩

theorem plain_threeBytes {code : Nat} (bound : code < 0x10000) :
    ∀ byte ∈ threeBytes code, Plain byte := by
  simp only [threeBytes, List.forall_mem_cons, List.not_mem_nil, false_implies, implies_true,
    and_true]
  exact ⟨plain_ofNat (by omega) (by omega), plain_ofNat (by omega) (by omega),
    plain_ofNat (by omega) (by omega)⟩

theorem plain_encodeChar (character : Char) : ∀ byte ∈ encodeChar character, Plain byte := by
  have bound := code_lt character
  unfold encodeChar
  generalize character.toNat = code at bound
  dsimp only
  split
  · exact plain_twoBytes (by omega)
  · split
    · exact List.forall_mem_singleton.mpr (plain_ofNat (by omega) (by omega))
    · split
      · exact plain_twoBytes (by omega)
      · split
        · exact plain_threeBytes (by omega)
        · exact List.forall_mem_append.mpr
            ⟨plain_threeBytes (by omega), plain_threeBytes (by omega)⟩

/-- Every text is decoded to itself. No byte of it is zero or above 0xEF, and the parts of a text
may be encoded one by one. -/
theorem encode_lossless (text more : List Char) :
    decode (encode text) = some text ∧ (∀ byte ∈ encode text, byte ≠ 0 ∧ byte < 0xF0) ∧
      encode (text ++ more) = encode text ++ encode more := by
  refine ⟨decode_encode text, ?_, encode_append text more⟩
  intro byte member
  obtain ⟨character, _, written⟩ := List.mem_flatMap.mp member
  exact plain_encodeChar character byte written

/-- One character of each form: of one, two and three bytes, a pair, and the null character. -/
theorem encode_lossless_forms :
    encode ['a', 'é', '€', '😀', '\x00'] =
        [0x61, 0xC3, 0xA9, 0xE2, 0x82, 0xAC, 0xED, 0xA0, 0xBD, 0xED, 0xB8, 0x80, 0xC0, 0x80] ∧
      decode [0x61, 0xC3, 0xA9, 0xE2, 0x82, 0xAC, 0xED, 0xA0, 0xBD, 0xED, 0xB8, 0x80, 0xC0, 0x80] =
        some ['a', 'é', '€', '😀', '\x00'] ∧
      ((0xED : UInt8) ≠ 0 ∧ (0xED : UInt8) < 0xF0) := by
  have encoded : encode ['a', 'é', '€', '😀', '\x00'] =
      [0x61, 0xC3, 0xA9, 0xE2, 0x82, 0xAC, 0xED, 0xA0, 0xBD, 0xED, 0xB8, 0x80, 0xC0, 0x80] := by
    decide
  obtain ⟨decoded, plain, _⟩ := encode_lossless ['a', 'é', '€', '😀', '\x00'] []
  rw [encoded] at decoded plain
  exact ⟨encoded, decoded, plain 0xED (by decide)⟩

end JvmFrames.ModifiedUtf8
