import JvmFrames.Proofs.CompressedFrame.ByteReader
import JvmFrames.Proofs.CompressedFrame.Resolution

/-!
The number of bytes of a compressed frame. It depends on the types the frame lists but not on the
numbers that their classes have in the constant pool.
-/

namespace JvmFrames

namespace VerificationType

def size : VerificationType → Nat
  | .object _ | .uninitialized _ _ => 3
  | .top | .integer | .float | .double | .long | .null | .uninitializedThis _ => 1

def totalSize : List VerificationType → Nat
  | [] => 0
  | type :: rest => type.size + totalSize rest

theorem totalSize_append (first second : List VerificationType) :
    totalSize (first ++ second) = totalSize first + totalSize second := by
  induction first with
  | nil => exact (Nat.zero_add _).symm
  | cons type first ih =>
      rw [List.cons_append, totalSize, totalSize, ih]
      omega

theorem length_bytes_entry (number : BinaryName → UInt16) (type : VerificationType) :
    (type.entry number).bytes.length = type.size := by
  cases type <;> rfl

theorem length_flatMap_bytes (number : BinaryName → UInt16) (types : List VerificationType) :
    ((types.map (entry number)).flatMap TypeEntry.bytes).length = totalSize types := by
  induction types with
  | nil => rfl
  | cons type types ih =>
      rw [List.map_cons, List.flatMap_cons, List.length_append, length_bytes_entry, ih]
      rfl

end VerificationType

namespace CompressedFrame

open VerificationType

def size (frame : CompressedFrame VerificationType) : Nat :=
  match frame with
  | .same _ => if frame.isShort then 1 else 3
  | .oneStackItem _ item => (if frame.isShort then 1 else 3) + item.size
  | .chop _ _ => 3
  | .append _ locals => 3 + totalSize locals
  | .full _ locals stack => 7 + totalSize locals + totalSize stack

theorem length_write_same (delta : UInt16) :
    (same delta : CompressedFrame TypeEntry).write.bytes.length =
      (same delta : CompressedFrame VerificationType).size := by
  by_cases short : delta.toNat ≤ 63
  · have unlike : delta.toUInt8 ≠ 251 := by
      intro equal
      have value := congrArg UInt8.toNat equal
      rw [UInt16.toNat_toUInt8] at value
      have tag : (251 : UInt8).toNat = 251 := rfl
      omega
    simp [write, size, isShort, CompressedFrame.delta, short, (tag_of_short short .top).1, unlike]
  · simp [write, size, isShort, CompressedFrame.delta, short, (tag_of_long short .top).1, wordBytes]

theorem length_write_oneStackItem (number : BinaryName → UInt16) (delta : UInt16)
    (item : VerificationType) :
    (oneStackItem delta (item.entry number)).write.bytes.length =
      (oneStackItem delta item).size := by
  have length := length_bytes_entry number item
  by_cases short : delta.toNat ≤ 63
  · have unlike : delta.toUInt8 + 64 ≠ 247 := by
      intro equal
      have value := congrArg UInt8.toNat equal
      rw [UInt8.toNat_add, UInt16.toNat_toUInt8] at value
      have tag : (247 : UInt8).toNat = 247 := rfl
      have shift : (64 : UInt8).toNat = 64 := rfl
      omega
    simp only [write, (tag_of_short short (item.entry number)).2, unlike, if_false, size, isShort,
      CompressedFrame.delta, short, decide_true, if_true, List.length_cons, List.length_append,
      List.length_nil, length]
  · simp only [write, (tag_of_long short (item.entry number)).2, if_true, size, isShort,
      CompressedFrame.delta, short, decide_false, Bool.false_eq_true, if_false, List.length_cons,
      List.length_append, wordBytes, List.length_nil, length]

theorem length_write {frame : CompressedFrame VerificationType} {number : BinaryName → UInt16}
    (encodable : (frame.map (entry number)).Encodable) :
    (frame.map (entry number)).write.bytes.length = frame.size := by
  cases frame with
  | same delta => exact length_write_same delta
  | oneStackItem delta item => exact length_write_oneStackItem number delta item
  | chop delta count =>
      unfold CompressedFrame.map Encodable at encodable
      simp only [CompressedFrame.map, write, encodable, and_self, if_true]
      rfl
  | append delta locals =>
      unfold CompressedFrame.map Encodable at encodable
      simp only [CompressedFrame.map, write, encodable, and_self, if_true, size, List.cons_append,
        List.length_cons, List.length_append, length_flatMap_bytes, wordBytes, List.length_nil]
      omega
  | full delta locals stack =>
      have localsWhole := (counted_writeEntry_fault _).mpr encodable.1
      have stackWhole := (counted_writeEntry_fault _).mpr encodable.2
      have entries (types : List VerificationType) :
          ((types.map (entry number)).flatMap fun item => (writeEntry item).bytes).length =
            totalSize types := length_flatMap_bytes number types
      simp only [CompressedFrame.map, write, Written.andThen_of_bytes,
        Written.andThen_bytes _ localsWhole, Written.counted_bytes localsWhole,
        Written.counted_bytes stackWhole, size, List.cons_append, List.length_cons,
        List.length_append, entries, wordBytes, List.length_nil]
      omega

def Serializes (frame : CompressedFrame VerificationType) (bytes : List UInt8) : Prop :=
  ∃ pool after resolved, pool.Reachable ∧ frame.resolve.run.run pool = (.ok resolved, after) ∧
    resolved.write.result = .ok bytes

theorem Serializes.length {frame : CompressedFrame VerificationType} {bytes : List UInt8}
    (serializes : frame.Serializes bytes) : bytes.length = frame.size := by
  obtain ⟨pool, after, resolved, reachable, run, written⟩ := serializes
  obtain ⟨number, rfl⟩ := exists_map_of_resolve reachable run
  obtain ⟨whole, rfl⟩ := Written.result_eq_ok.mp written
  exact length_write ((write_fault _).mp whole)

end CompressedFrame

end JvmFrames
