import JvmFrames.Bytes

/-!
Readers of bytes, and what writers put out that did not stop early. A list that is written with its
number of items is read back if each of its items is.
-/

namespace JvmFrames

abbrev ByteReader (α : Type) := List UInt8 → Option (α × List UInt8)

namespace ByteReader

variable {α : Type}

def word : ByteReader UInt16
  | high :: low :: rest => some (UInt16.ofNat (high.toNat * 256 + low.toNat), rest)
  | _ => none

def many (read : ByteReader α) : Nat → ByteReader (List α)
  | 0, bytes => some ([], bytes)
  | number + 1, bytes => do
    let (item, rest) ← read bytes
    let (items, rest) ← many read number rest
    pure (item :: items, rest)

def counted (read : ByteReader α) : ByteReader (List α) := fun bytes => do
  let (number, rest) ← word bytes
  many read number.toNat rest

@[simp] theorem word_wordBytes (written : UInt16) (rest : List UInt8) :
    word (wordBytes written ++ rest) = some (written, rest) := by
  have bound := written.toNat_lt
  have value : (written >>> 8).toUInt8.toNat * 256 + written.toUInt8.toNat = written.toNat := by
    simp only [UInt16.toNat_toUInt8, UInt16.toNat_shiftRight, Nat.shiftRight_eq_div_pow]
    have shift : (8 : UInt16).toNat % 16 = 8 := rfl
    rw [shift]
    omega
  simp only [wordBytes, List.cons_append, List.nil_append, word, value, UInt16.ofNat_toNat]

theorem many_flatMap {read : ByteReader α} {bytes : α → List UInt8} {items : List α}
    (readsBack : ∀ item ∈ items, ∀ rest, read (bytes item ++ rest) = some (item, rest))
    (rest : List UInt8) :
    many read items.length (items.flatMap bytes ++ rest) = some (items, rest) := by
  induction items with
  | nil => rfl
  | cons item items ih =>
      have first := readsBack item List.mem_cons_self (items.flatMap bytes ++ rest)
      have others := ih fun other member => readsBack other (List.mem_cons_of_mem _ member)
      simp [many, first, others]

theorem counted_wordBytes {read : ByteReader α} {bytes : α → List UInt8} {items : List α}
    (short : items.length < 65536)
    (readsBack : ∀ item ∈ items, ∀ rest, read (bytes item ++ rest) = some (item, rest))
    (rest : List UInt8) :
    counted read (wordBytes (UInt16.ofNat items.length) ++ (items.flatMap bytes ++ rest)) =
      some (items, rest) := by
  have length : (UInt16.ofNat items.length).toNat = items.length := by
    rw [UInt16.toNat_ofNat']
    omega
  simp [counted, length, many_flatMap readsBack]

end ByteReader

namespace Written

variable {α : Type}

theorem andThen_fault {first second : Written} :
    (first.andThen second).fault = none ↔ first.fault = none ∧ second.fault = none := by
  unfold andThen
  cases stopped : first.fault <;> simp [stopped]

theorem andThen_bytes {first : Written} (second : Written) (whole : first.fault = none) :
    (first.andThen second).bytes = first.bytes ++ second.bytes := by
  simp [andThen, whole]

theorem sequence_fault {write : α → Written} {items : List α} :
    (sequence write items).fault = none ↔ ∀ item ∈ items, (write item).fault = none := by
  induction items with
  | nil => simp
  | cons item items ih => simp [andThen_fault, ih]

theorem sequence_bytes {write : α → Written} {items : List α}
    (whole : ∀ item ∈ items, (write item).fault = none) :
    (sequence write items).bytes = items.flatMap fun item => (write item).bytes := by
  induction items with
  | nil => rfl
  | cons item items ih =>
      rw [sequence_cons, andThen_bytes _ (whole item List.mem_cons_self),
        ih fun other member => whole other (List.mem_cons_of_mem _ member)]
      rfl

theorem counted_fault {write : α → Written} {items : List α} :
    (counted write items).fault = none ↔
      items.length < 65536 ∧ ∀ item ∈ items, (write item).fault = none := by
  unfold counted
  split
  · rename_i short
    simp [short, sequence_fault]
  · rename_i long
    simp [long, fail]

theorem counted_bytes {write : α → Written} {items : List α}
    (whole : (counted write items).fault = none) :
    (counted write items).bytes =
      wordBytes (UInt16.ofNat items.length) ++ items.flatMap fun item => (write item).bytes := by
  obtain ⟨short, each⟩ := counted_fault.mp whole
  rw [counted, if_pos short, andThen_of_bytes, sequence_bytes each]

theorem result_eq_ok {written : Written} {bytes : List UInt8} :
    written.result = .ok bytes ↔ written.fault = none ∧ written.bytes = bytes := by
  unfold result
  cases written.fault <;> simp

end Written

end JvmFrames
