import JvmFrames.CompressedFrame.Encoding
import JvmFrames.Proofs.Bytes

/-!
A reader for the bytes of stack map tables, by the tags of the class file format alone. The main
statement is that it reads back every table that can be written, and that exactly the tables within
the limits of the format can.
-/

namespace JvmFrames

namespace ByteReader

def typeEntry : ByteReader TypeEntry
  | 0 :: rest => some (.top, rest)
  | 1 :: rest => some (.integer, rest)
  | 2 :: rest => some (.float, rest)
  | 3 :: rest => some (.double, rest)
  | 4 :: rest => some (.long, rest)
  | 5 :: rest => some (.null, rest)
  | 6 :: rest => some (.uninitializedThis, rest)
  | 7 :: rest => (word rest).map fun (classIndex, rest) => (.object classIndex, rest)
  | 8 :: rest => (word rest).map fun (offset, rest) => (.uninitialized offset, rest)
  | _ => none

def frameBody (tag : UInt8) : ByteReader (CompressedFrame TypeEntry) := fun bytes =>
  if tag ≤ 63 then
    some (.same tag.toUInt16, bytes)
  else if tag ≤ 127 then do
    let (item, rest) ← typeEntry bytes
    pure (.oneStackItem (tag - 64).toUInt16 item, rest)
  else if tag ≤ 246 then
    none
  else do
    let (delta, rest) ← word bytes
    if tag = 247 then
      let (item, rest) ← typeEntry rest
      pure (.oneStackItem delta item, rest)
    else if tag ≤ 250 then
      pure (.chop delta (251 - tag), rest)
    else if tag = 251 then
      pure (.same delta, rest)
    else if tag ≤ 254 then
      let (locals, rest) ← many typeEntry (tag - 251).toNat rest
      pure (.append delta locals, rest)
    else
      let (locals, rest) ← counted typeEntry rest
      let (stack, rest) ← counted typeEntry rest
      pure (.full delta locals stack, rest)

def frame : ByteReader (CompressedFrame TypeEntry)
  | [] => none
  | tag :: rest => frameBody tag rest

def table : ByteReader (List (CompressedFrame TypeEntry)) :=
  counted frame

@[simp] theorem typeEntry_bytes (entry : TypeEntry) (rest : List UInt8) :
    typeEntry (entry.bytes ++ rest) = some (entry, rest) := by
  cases entry with
  | object classIndex => simp [TypeEntry.bytes, typeEntry]
  | uninitialized offset => simp [TypeEntry.bytes, typeEntry]
  | _ => rfl

theorem many_typeEntry (entries : List TypeEntry) (rest : List UInt8) :
    many typeEntry entries.length (entries.flatMap TypeEntry.bytes ++ rest) =
      some (entries, rest) :=
  many_flatMap (fun entry _ => typeEntry_bytes entry) rest

theorem frameBody_oneStackItem (delta : UInt16) (item : TypeEntry) (rest : List UInt8) :
    frameBody 247 (wordBytes delta ++ (item.bytes ++ rest)) =
      some (.oneStackItem delta item, rest) := by
  simp only [frameBody, word_wordBytes]
  change (typeEntry (item.bytes ++ rest)).bind _ = _
  rw [typeEntry_bytes]
  rfl

theorem frameBody_chop {count : UInt8} (delta : UInt16) (inside : 1 ≤ count ∧ count ≤ 3)
    (rest : List UInt8) :
    frameBody (251 - count) (wordBytes delta ++ rest) = some (.chop delta count, rest) := by
  have range : count = 1 ∨ count = 2 ∨ count = 3 := by
    simp only [UInt8.le_iff_toNat_le, ← UInt8.toNat_inj] at inside ⊢
    exact (by omega : ∀ number, 1 ≤ number ∧ number ≤ 3 → number = 1 ∨ number = 2 ∨ number = 3)
      count.toNat inside
  simp only [frameBody, word_wordBytes]
  rcases range with rfl | rfl | rfl <;> rfl

theorem frameBody_append {locals : List TypeEntry} (delta : UInt16)
    (inside : 1 ≤ locals.length ∧ locals.length ≤ 3) (rest : List UInt8) :
    frameBody (251 + UInt8.ofNat locals.length)
        (wordBytes delta ++ (locals.flatMap TypeEntry.bytes ++ rest)) =
      some (.append delta locals, rest) := by
  have range : locals.length = 1 ∨ locals.length = 2 ∨ locals.length = 3 := by omega
  have number : (251 + UInt8.ofNat locals.length - 251).toNat = locals.length := by
    rcases range with length | length | length <;> rw [length] <;> rfl
  have opened : frameBody (251 + UInt8.ofNat locals.length)
      (wordBytes delta ++ (locals.flatMap TypeEntry.bytes ++ rest)) =
        (many typeEntry (251 + UInt8.ofNat locals.length - 251).toNat
          (locals.flatMap TypeEntry.bytes ++ rest)).bind
            fun read => some (.append delta read.1, read.2) := by
    simp only [frameBody, word_wordBytes]
    rcases range with length | length | length <;> rw [length] <;> rfl
  rw [opened, number, many_typeEntry]
  rfl

theorem frameBody_full {locals stack : List TypeEntry} (delta : UInt16)
    (localsShort : locals.length < 65536) (stackShort : stack.length < 65536)
    (rest : List UInt8) :
    frameBody 255 (wordBytes delta ++ (wordBytes (UInt16.ofNat locals.length) ++
        (locals.flatMap TypeEntry.bytes ++ (wordBytes (UInt16.ofNat stack.length) ++
          (stack.flatMap TypeEntry.bytes ++ rest))))) =
      some (.full delta locals stack, rest) := by
  simp only [frameBody, word_wordBytes]
  change (counted typeEntry _).bind _ = _
  rw [counted_wordBytes localsShort fun entry _ => typeEntry_bytes entry]
  change (counted typeEntry _).bind _ = _
  rw [counted_wordBytes stackShort fun entry _ => typeEntry_bytes entry]
  rfl

end ByteReader

namespace CompressedFrame

def Encodable : CompressedFrame TypeEntry → Prop
  | .same _ | .oneStackItem _ _ => True
  | .chop _ count => 1 ≤ count ∧ count ≤ 3
  | .append _ locals => 1 ≤ locals.length ∧ locals.length ≤ 3
  | .full _ locals stack => locals.length ≤ 65535 ∧ stack.length ≤ 65535

theorem counted_writeEntry_fault (entries : List TypeEntry) :
    (Written.counted writeEntry entries).fault = none ↔ entries.length ≤ 65535 := by
  rw [Written.counted_fault]
  constructor
  · intro both
    exact Nat.le_of_lt_succ both.1
  · intro short
    exact ⟨Nat.lt_succ_of_le short, fun _ _ => rfl⟩

theorem write_fault (frame : CompressedFrame TypeEntry) :
    frame.write.fault = none ↔ frame.Encodable := by
  cases frame with
  | same delta => simp [write, Encodable]
  | oneStackItem delta item => simp [write, Encodable]
  | chop delta count =>
      by_cases inside : 1 ≤ count ∧ count ≤ 3
      · simp only [write, inside, Encodable, and_self, if_true]
      · simp only [write, inside, Encodable, Written.fail, if_false, reduceCtorEq]
  | append delta locals =>
      by_cases inside : 1 ≤ locals.length ∧ locals.length ≤ 3
      · simp only [write, inside, Encodable, and_self, if_true]
      · simp only [write, inside, Encodable, Written.fail, if_false, reduceCtorEq]
  | full delta locals stack =>
      simp only [write, Encodable, Written.andThen_fault, counted_writeEntry_fault, true_and]

theorem tag_of_short {delta : UInt16} (short : delta.toNat ≤ 63) (item : TypeEntry) :
    (same delta : CompressedFrame TypeEntry).tag = delta.toUInt8 ∧
      (oneStackItem delta item).tag = delta.toUInt8 + 64 := by
  simp [tag, form, isShort, CompressedFrame.delta, short]

theorem tag_of_long {delta : UInt16} (long : ¬ delta.toNat ≤ 63) (item : TypeEntry) :
    (same delta : CompressedFrame TypeEntry).tag = 251 ∧ (oneStackItem delta item).tag = 247 := by
  simp [tag, form, isShort, CompressedFrame.delta, long]

theorem frame_write_same (delta : UInt16) (rest : List UInt8) :
    ByteReader.frame ((same delta).write.bytes ++ rest) = some (same delta, rest) := by
  by_cases short : delta.toNat ≤ 63
  · have value : delta.toUInt8.toNat = delta.toNat := by
      rw [UInt16.toNat_toUInt8]
      omega
    have below : delta.toUInt8 ≤ 63 := UInt8.le_iff_toNat_le.mpr (by rw [value]; exact short)
    have unlike : delta.toUInt8 ≠ 251 := by
      intro equal
      rw [equal] at value
      have : (251 : UInt8).toNat = 251 := rfl
      omega
    have back : delta.toUInt8.toUInt16 = delta := by
      apply UInt16.toNat_inj.mp
      rw [UInt8.toNat_toUInt16, value]
    simp only [write, (tag_of_short short .top).1, unlike, if_false, List.cons_append,
      List.nil_append, ByteReader.frame, ByteReader.frameBody, below, if_true, back]
  · simp only [write, (tag_of_long short .top).1, if_true, List.cons_append, ByteReader.frame,
      ByteReader.frameBody, ByteReader.word_wordBytes]
    rfl

theorem frame_write_oneStackItem (delta : UInt16) (item : TypeEntry) (rest : List UInt8) :
    ByteReader.frame ((oneStackItem delta item).write.bytes ++ rest) =
      some (oneStackItem delta item, rest) := by
  by_cases short : delta.toNat ≤ 63
  · have value : (delta.toUInt8 + 64).toNat = delta.toNat + 64 := by
      rw [UInt8.toNat_add, UInt16.toNat_toUInt8]
      have : (64 : UInt8).toNat = 64 := rfl
      omega
    have above : ¬ delta.toUInt8 + 64 ≤ 63 := by
      rw [UInt8.le_iff_toNat_le, value]
      have : (63 : UInt8).toNat = 63 := rfl
      omega
    have below : delta.toUInt8 + 64 ≤ 127 := by
      rw [UInt8.le_iff_toNat_le, value]
      have : (127 : UInt8).toNat = 127 := rfl
      omega
    have unlike : delta.toUInt8 + 64 ≠ 247 := by
      intro equal
      rw [equal] at value
      have : (247 : UInt8).toNat = 247 := rfl
      omega
    have back : (delta.toUInt8 + 64 - 64).toUInt16 = delta := by
      apply UInt16.toNat_inj.mp
      rw [UInt8.add_sub_cancel, UInt8.toNat_toUInt16, UInt16.toNat_toUInt8]
      omega
    simp only [write, (tag_of_short short item).2, unlike, if_false, List.cons_append,
      List.nil_append, ByteReader.frame, ByteReader.frameBody, above, below, if_true,
      ByteReader.typeEntry_bytes, back]
    rfl
  · simp only [write, (tag_of_long short item).2, if_true, List.cons_append, List.append_assoc,
      ByteReader.frame]
    exact ByteReader.frameBody_oneStackItem delta item rest

theorem frame_write_chop {count : UInt8} (delta : UInt16) (inside : 1 ≤ count ∧ count ≤ 3)
    (rest : List UInt8) :
    ByteReader.frame ((chop delta count).write.bytes ++ rest) = some (chop delta count, rest) := by
  simp only [write, inside, and_self, if_true, List.cons_append, ByteReader.frame]
  exact ByteReader.frameBody_chop delta inside rest

theorem frame_write_append {locals : List TypeEntry} (delta : UInt16)
    (inside : 1 ≤ locals.length ∧ locals.length ≤ 3) (rest : List UInt8) :
    ByteReader.frame ((append delta locals).write.bytes ++ rest) =
      some (append delta locals, rest) := by
  have clamped : min locals.length 255 = locals.length := by omega
  simp only [write, inside, and_self, if_true, tag, form, clamped, List.cons_append,
    List.append_assoc, ByteReader.frame]
  exact ByteReader.frameBody_append delta inside rest

theorem frame_write_full {locals stack : List TypeEntry} (delta : UInt16)
    (localsShort : locals.length ≤ 65535) (stackShort : stack.length ≤ 65535)
    (rest : List UInt8) :
    ByteReader.frame ((full delta locals stack).write.bytes ++ rest) =
      some (full delta locals stack, rest) := by
  have localsWhole := (counted_writeEntry_fault locals).mpr localsShort
  have stackWhole := (counted_writeEntry_fault stack).mpr stackShort
  simp only [write, Written.andThen_of_bytes, Written.andThen_bytes _ localsWhole,
    Written.counted_bytes localsWhole, Written.counted_bytes stackWhole, List.cons_append,
    List.append_assoc, ByteReader.frame]
  exact ByteReader.frameBody_full delta (by omega) (by omega) rest

/-- A frame within the limits of its form is read back from its bytes, whatever follows them. -/
theorem frame_write {frame : CompressedFrame TypeEntry} (encodable : frame.Encodable)
    (rest : List UInt8) : ByteReader.frame (frame.write.bytes ++ rest) = some (frame, rest) := by
  cases frame with
  | same delta => exact frame_write_same delta rest
  | oneStackItem delta item => exact frame_write_oneStackItem delta item rest
  | chop delta count => exact frame_write_chop delta encodable rest
  | append delta locals => exact frame_write_append delta encodable rest
  | full delta locals stack => exact frame_write_full delta encodable.1 encodable.2 rest

theorem head?_write {frame : CompressedFrame TypeEntry} (encodable : frame.Encodable) :
    frame.write.bytes.head? = some frame.tag := by
  cases frame with
  | same delta => rfl
  | oneStackItem delta item => rfl
  | chop delta count =>
      unfold Encodable at encodable
      rw [write, if_pos encodable]
      rfl
  | append delta locals =>
      unfold Encodable at encodable
      rw [write, if_pos encodable]
      rfl
  | full delta locals stack => rfl

theorem writeTable_fault (frames : List (CompressedFrame TypeEntry)) :
    (writeTable frames).fault = none ↔
      frames.length ≤ 65535 ∧ ∀ frame ∈ frames, frame.Encodable := by
  simp only [writeTable, Written.counted_fault, write_fault, Nat.lt_succ_iff]

/-- Exactly the tables within the limits of the format can be written, and reading the bytes of a
table gives the table back and leaves what follows them. -/
theorem table_writeTable (frames : List (CompressedFrame TypeEntry)) :
    ((∃ bytes, (writeTable frames).result = .ok bytes) ↔
        frames.length ≤ 65535 ∧ ∀ frame ∈ frames, frame.Encodable) ∧
      (∀ bytes further, (writeTable frames).result = .ok bytes →
        ByteReader.table (bytes ++ further) = some (frames, further)) ∧
      (∀ frame : CompressedFrame TypeEntry, frame.Encodable →
        frame.write.fault = none ∧ frame.write.bytes.head? = some frame.tag) ∧
      (∀ delta count, ¬ (chop delta count).Encodable →
        (chop delta count).write = ⟨[], some .chopCount⟩) ∧
      (∀ delta locals, ¬ (append delta locals).Encodable →
        (append delta locals).write = ⟨[], some .appendCount⟩) := by
  refine ⟨?_, ?_, ?_, ?_, ?_⟩
  · simp only [Written.result_eq_ok, exists_and_left, exists_eq', and_true, writeTable_fault]
  · intro bytes further written
    obtain ⟨whole, rfl⟩ := Written.result_eq_ok.mp written
    obtain ⟨short, encodable⟩ := (writeTable_fault frames).mp whole
    rw [writeTable, Written.counted_bytes whole, List.append_assoc]
    exact ByteReader.counted_wordBytes (Nat.lt_succ_of_le short)
      (fun frame member => frame_write (encodable frame member)) further
  · intro frame encodable
    exact ⟨(write_fault frame).mpr encodable, head?_write encodable⟩
  · intro delta count outside
    unfold Encodable at outside
    rw [write, if_neg outside]
    rfl
  · intro delta locals outside
    unfold Encodable at outside
    rw [write, if_neg outside]
    rfl

/-- An append form and the first delta that has no short form, with a reserved tag behind the table.
-/
theorem table_writeTable_append :
    (writeTable [.append 5 [.integer, .object 9], .same 64]).result =
        .ok [0, 2, 253, 0, 5, 1, 7, 0, 9, 251, 0, 64] ∧
      ByteReader.table ([0, 2, 253, 0, 5, 1, 7, 0, 9, 251, 0, 64] ++ [247]) =
        some ([.append 5 [.integer, .object 9], .same 64], [247]) :=
  ⟨rfl, (table_writeTable [.append 5 [.integer, .object 9], .same 64]).2.1 _ _ rfl⟩

end CompressedFrame

end JvmFrames
