import JvmFrames.Proofs.Bytes
import JvmFrames.Proofs.ConstantPool.Requests
import JvmFrames.Proofs.ModifiedUtf8

/-!
A reader for the bytes of constant pools, by the tags of the class file format alone. It reads back
every pool that can be made and written, and nothing but the length of a text keeps such a pool from
being written.
-/

namespace JvmFrames

namespace ByteReader

def byte : ByteReader UInt8
  | [] => none
  | first :: rest => some (first, rest)

def constant : ByteReader Constant
  | 1 :: rest => do
    let (bytes, rest) ← counted byte rest
    let text ← ModifiedUtf8.decode bytes
    pure (.utf8 (String.ofList text), rest)
  | 7 :: rest => do
    let (nameIndex, rest) ← word rest
    pure (.classRef nameIndex, rest)
  | _ => none

def constantPool : ByteReader (List Constant) := fun bytes => do
  let (count, rest) ← word bytes
  if count = 0 then none else many constant (count.toNat - 1) rest

theorem counted_byte {bytes : List UInt8} (short : bytes.length ≤ 65535) (rest : List UInt8) :
    counted byte (wordBytes (UInt16.ofNat bytes.length) ++ (bytes ++ rest)) =
      some (bytes, rest) := by
  have readsBack : ∀ item ∈ bytes, ∀ rest, byte ([item] ++ rest) = some (item, rest) :=
    fun _ _ _ => rfl
  have back := counted_wordBytes (Nat.lt_succ_of_le short) readsBack rest
  rwa [List.flatMap_singleton'] at back

end ByteReader

namespace ConstantPool

def Encodable : Constant → Prop
  | .utf8 text => (ModifiedUtf8.encode text.toList).length ≤ 65535
  | .classRef _ => True

theorem writeConstant_fault (constant : Constant) :
    (writeConstant constant).fault = none ↔ Encodable constant := by
  cases constant with
  | utf8 text => simp [writeConstant, Encodable, Written.counted_fault, Nat.lt_succ_iff]
  | classRef nameIndex => simp [writeConstant, Encodable]

theorem bytes_utf8 {text : String} (encodable : Encodable (.utf8 text)) :
    (writeConstant (.utf8 text)).bytes =
      1 :: (wordBytes (UInt16.ofNat (ModifiedUtf8.encode text.toList).length) ++
        ModifiedUtf8.encode text.toList) := by
  have whole := (Written.andThen_fault.mp ((writeConstant_fault _).mpr encodable)).2
  rw [writeConstant, Written.andThen_of_bytes, Written.counted_bytes whole,
    List.flatMap_singleton']
  rfl

theorem constant_writeConstant {constant : Constant} (encodable : Encodable constant)
    (rest : List UInt8) :
    ByteReader.constant ((writeConstant constant).bytes ++ rest) = some (constant, rest) := by
  cases constant with
  | utf8 text =>
      rw [bytes_utf8 encodable, List.cons_append, List.append_assoc, ByteReader.constant,
        ByteReader.counted_byte encodable]
      simp [ModifiedUtf8.decode_encode]
  | classRef nameIndex => simp [writeConstant, ByteReader.constant]

theorem write_fault (pool : ConstantPool) :
    pool.write.fault = none ↔ ∀ constant ∈ pool.toList, Encodable constant := by
  simp only [write, Written.andThen_of_bytes, Written.sequence_fault, writeConstant_fault]

theorem Numbered.toNat_count {pool : ConstantPool} (numbered : pool.Numbered) :
    (UInt16.ofNat (pool.size + 1)).toNat = pool.size + 1 := by
  have bounded := numbered.bounded
  rw [UInt16.toNat_ofNat']
  omega

theorem Numbered.constantPool_write {pool : ConstantPool} (numbered : pool.Numbered)
    (whole : pool.write.fault = none) :
    ByteReader.constantPool pool.write.bytes = some (pool.toList, []) := by
  have each := (write_fault pool).mp whole
  have count := numbered.toNat_count
  have positive : UInt16.ofNat (pool.size + 1) ≠ 0 := by
    intro zero
    rw [zero] at count
    contradiction
  have back := ByteReader.many_flatMap
    (fun constant member => constant_writeConstant (each constant member)) []
  have entries := Written.sequence_bytes fun constant member =>
    (writeConstant_fault constant).mpr (each constant member)
  rw [List.append_nil, length_toList] at back
  simp only [write, Written.andThen_of_bytes, entries, ByteReader.constantPool,
    ByteReader.word_wordBytes, Option.bind_eq_bind, Option.bind_some, positive, if_false, count,
    Nat.add_sub_cancel]
  exact back

/-- A pool that can be made can be written unless one of its texts takes too many bytes. Its bytes
begin with the count, which is the true one, and the constants are read back from them in the order
of their numbers. -/
theorem write_reads_back {pool : ConstantPool} (reachable : pool.Reachable) :
    ((∃ bytes, pool.write.result = .ok bytes) ↔
        ∀ text, .utf8 text ∈ pool.toList → (ModifiedUtf8.encode text.toList).length ≤ 65535) ∧
      ∀ bytes, pool.write.result = .ok bytes →
        ∃ count, wordBytes count <+: bytes ∧ count.toNat = pool.size + 1 ∧
          ByteReader.constantPool bytes = some (pool.toList, []) := by
  have numbered := reachable.numbered
  constructor
  · simp only [Written.result_eq_ok, exists_and_left, exists_eq', and_true, write_fault]
    constructor
    · intro each text member
      exact each _ member
    · intro texts constant member
      cases constant with
      | utf8 text => exact texts text member
      | classRef nameIndex => trivial
  · intro bytes written
    obtain ⟨whole, rfl⟩ := Written.result_eq_ok.mp written
    exact ⟨_, List.prefix_append _ _, numbered.toNat_count, numbered.constantPool_write whole⟩

/-- A class whose name takes two bytes for one character. -/
theorem write_reads_back_class :
    ∃ pool : ConstantPool, pool.Reachable ∧ pool.toList = [.utf8 "é", .classRef 1] ∧
      pool.write.result = .ok [0, 3, 1, 0, 2, 0xC3, 0xA9, 7, 0, 1] ∧
      ByteReader.constantPool [0, 3, 1, 0, 2, 0xC3, 0xA9, 7, 0, 1] =
        some ([.utf8 "é", .classRef 1], []) := by
  obtain ⟨named, textRun, text⟩ :=
    @run_number_absent empty (.utf8 "é") rfl (by decide)
  have size : named.size = 1 := congrArg List.length text
  obtain ⟨pool, classRun, constants⟩ :=
    @run_number_absent named (.classRef 1) (by rw [text]; decide) (by omega)
  rw [text] at constants
  have run : (classOf ⟨"é"⟩).run.run empty = (.ok 2, pool) := by
    rw [size] at classRun
    rw [run_classOf, utf8, textRun]
    exact classRun
  have reachable : pool.Reachable := by
    have made := Reachable.classOf ⟨"é"⟩ .empty
    rwa [run] at made
  have written : pool.write.result = .ok [0, 3, 1, 0, 2, 0xC3, 0xA9, 7, 0, 1] := by
    rw [write, ← length_toList, constants]
    decide
  obtain ⟨_, _, _, back⟩ := (write_reads_back reachable).2 _ written
  rw [constants] at back
  exact ⟨pool, reachable, constants, written, back⟩

end ConstantPool

end JvmFrames
