import JvmFrames.Listing
import JvmFrames.Proofs.Descriptor.Rendering
import JvmFrames.Proofs.Text.Words

/-!
Listings as text. A frame is written on one line, and every piece of that line is found again: the
three fields, the words in them, and what each word stands for.
-/

namespace JvmFrames

def WordCharacter (character : Char) : Prop :=
  Text.isBlank character = false ∧ character ≠ '|'

instance : DecidablePred WordCharacter := fun character =>
  inferInstanceAs (Decidable (Text.isBlank character = false ∧ character ≠ '|'))

theorem wordCharacters_of_all {text : List Char} (all : text.all (WordCharacter ·) = true) :
    ∀ character ∈ text, WordCharacter character := by
  simpa using all

def BinaryName.Listable (name : BinaryName) : Prop :=
  BinaryName.ofString name.text = .ok name ∧
    ∀ character ∈ name.text.toList, WordCharacter character

def VerificationType.Listable : VerificationType → Prop
  | .object name => name.Listable
  | _ => True

instance (name : BinaryName) : Decidable name.Listable :=
  decidable_of_iff
    (BinaryName.ofString name.text = .ok name ∧ name.text.toList.all (WordCharacter ·) = true)
    (by simp [BinaryName.Listable])

instance : DecidablePred VerificationType.Listable
  | .object name => inferInstanceAs (Decidable name.Listable)
  | .top | .integer | .float | .double | .long | .null | .uninitializedThis _
  | .uninitialized _ _ => inferInstanceAs (Decidable True)

namespace Frame

def slots (frame : Frame) : List (Option VerificationType) :=
  frame.locals ++ frame.stack.map some

structure Listable (frame : Frame) : Prop where
  wellFormed : frame.locals.WellFormed
  noTop : .top ∉ frame.stack
  slots : ∀ slot ∈ frame.slots, ∀ type ∈ slot, type.Listable

theorem Listable.locals {frame : Frame} (listable : frame.Listable) :
    ∀ slot ∈ frame.locals, ∀ type ∈ slot, type.Listable :=
  (List.forall_mem_append.mp listable.slots).1

theorem Listable.stack {frame : Frame} (listable : frame.Listable) :
    ∀ slot ∈ frame.stack.map some, ∀ type ∈ slot, type.Listable :=
  (List.forall_mem_append.mp listable.slots).2

end Frame

namespace Listing

def slotText : Option VerificationType → String
  | none => "-"
  | some type => type.render

def writeFrame (head : String) (frame : Frame) : String :=
  head ++ " | " ++ " ".intercalate (frame.locals.map slotText) ++ " | " ++
    " ".intercalate (frame.stack.map VerificationType.render)

def lines (listing : Listing) : List String :=
  writeFrame "entry" listing.entry ::
    listing.frames.map fun frame => writeFrame (toString frame.pc) frame

def write (listing : Listing) : String :=
  "\n".intercalate listing.lines

end Listing

namespace TypeToken

def ofSlot : Option VerificationType → TypeToken
  | none => .unused
  | some .top => .top
  | some .integer => .field (.base .int)
  | some .float => .field (.base .float)
  | some .double => .field (.base .double)
  | some .long => .field (.base .long)
  | some .null => .null
  | some (.uninitializedThis _) => .this
  | some (.object name) => .field (.reference name)
  | some (.uninitialized offset _) => .created offset

theorem read_field {type : FieldType} (valid : type.Valid) :
    read type.render.toList = .ok (.field type) := by
  have whole : (FieldType.read type.render.toList).whole = .ok type :=
    FieldType.whole_readWith_iff.mpr valid.grammar
  have grammar := valid.grammar
  generalize type.render.toList = text at grammar whole
  cases grammar with
  | base type => cases type <;> rfl
  | name inside checked => simp [read, whole]
  | array grammar => simp [read, whole]

theorem read_created (offset : UInt16) :
    read ('n' :: 'e' :: 'w' :: '@' :: Text.decimal offset.toNat) = .ok (.created offset) := by
  simp [read, Text.readWord_decimal]

theorem toList_render_uninitialized (offset : UInt16) (marker : Marker) :
    (VerificationType.uninitialized offset marker).render.toList =
      ['n', 'e', 'w', '@'] ++ Text.decimal offset.toNat := by
  have mark : (toString "new@").toList = ['n', 'e', 'w', '@'] := by decide
  simp [VerificationType.render, Text.decimal, Nat.toString_eq_repr, Nat.repr_eq_ofList_toDigits,
    mark]

theorem read_slotText {slot : Option VerificationType} (listable : ∀ type ∈ slot, type.Listable) :
    read (Listing.slotText slot).toList = .ok (ofSlot slot) := by
  cases slot with
  | none => rfl
  | some type =>
      cases type with
      | top | integer | float | double | long | null => decide
      | uninitializedThis marker =>
          change read "this".toList = .ok .this
          decide
      | object name =>
          have valid : FieldType.Valid (.reference name) := (listable _ rfl).1
          exact read_field valid
      | uninitialized offset marker =>
          rw [Listing.slotText, toList_render_uninitialized]
          exact read_created offset

end TypeToken

namespace Listing

theorem wordCharacter_of_isDigit {character : Char} (isDigit : character.isDigit = true) :
    WordCharacter character := by
  simp only [Char.isDigit, Bool.and_eq_true, decide_eq_true_eq, UInt32.le_iff_toNat_le] at isDigit
  have lower : 48 ≤ character.toNat := isDigit.1
  have upper : character.toNat ≤ 57 := isDigit.2
  constructor
  · simp only [Text.isBlank, Bool.or_eq_false_iff, Bool.and_eq_false_iff, decide_eq_false_iff_not]
    omega
  · rintro rfl
    exact absurd upper (by decide)

theorem isDigit_decimal {number : Nat} {character : Char}
    (member : character ∈ Text.decimal number) : character.isDigit = true :=
  Nat.isDigit_of_mem_toDigits (by omega) (by omega) member

theorem wordCharacter_slotText {slot : Option VerificationType}
    (listable : ∀ type ∈ slot, type.Listable) :
    ∀ character ∈ (slotText slot).toList, WordCharacter character := by
  cases slot with
  | none => exact wordCharacters_of_all (by decide)
  | some type =>
      cases type with
      | top | integer | float | double | long | null => exact wordCharacters_of_all (by decide)
      | uninitializedThis marker =>
          change ∀ character ∈ "this".toList, WordCharacter character
          exact wordCharacters_of_all (by decide)
      | object name =>
          have inName := (listable _ rfl).2
          rw [slotText, VerificationType.render]
          by_cases array : name.isArray = true
          · rw [BinaryName.render_of_isArray array]
            exact inName
          · rw [BinaryName.render_of_not_isArray (Bool.not_eq_true _ ▸ array),
              String.toList_append, String.toList_append, List.forall_mem_append,
              List.forall_mem_append]
            exact ⟨⟨wordCharacters_of_all (by decide), inName⟩, wordCharacters_of_all (by decide)⟩
      | uninitialized offset marker =>
          rw [slotText, TypeToken.toList_render_uninitialized, List.forall_mem_append]
          exact ⟨wordCharacters_of_all (by decide),
            fun _ member => wordCharacter_of_isDigit (isDigit_decimal member)⟩

theorem slotText_ne_nil {slot : Option VerificationType} (listable : ∀ type ∈ slot, type.Listable) :
    (slotText slot).toList ≠ [] := by
  intro empty
  have token := TypeToken.read_slotText listable
  rw [empty] at token
  contradiction

theorem isWord_slotText {slot : Option VerificationType} (listable : ∀ type ∈ slot, type.Listable) :
    Text.IsWord (slotText slot).toList :=
  ⟨slotText_ne_nil listable,
    fun character member => (wordCharacter_slotText listable character member).1⟩

structure IsField (text : List Char) : Prop where
  tight : Text.Tight text
  inside : '|' ∉ text

def slotWords (slots : List (Option VerificationType)) : List (List Char) :=
  slots.map fun slot => (slotText slot).toList

section Slots

variable {slots : List (Option VerificationType)}

theorem isWord_slotWords (listable : ∀ slot ∈ slots, ∀ type ∈ slot, type.Listable) :
    ∀ word ∈ slotWords slots, Text.IsWord word := by
  intro word member
  obtain ⟨slot, slotMember, rfl⟩ := List.mem_map.mp member
  exact isWord_slotText (listable slot slotMember)

theorem character_slotWords (listable : ∀ slot ∈ slots, ∀ type ∈ slot, type.Listable) :
    ∀ character ∈ Text.unwords (slotWords slots), character = ' ' ∨ WordCharacter character := by
  intro character member
  rcases Text.mem_unwords member with isSpace | ⟨word, wordMember, inWord⟩
  · exact .inl isSpace
  · obtain ⟨slot, slotMember, rfl⟩ := List.mem_map.mp wordMember
    exact .inr (wordCharacter_slotText (listable slot slotMember) character inWord)

theorem isField_slotWords (listable : ∀ slot ∈ slots, ∀ type ∈ slot, type.Listable) :
    IsField (Text.unwords (slotWords slots)) := by
  refine ⟨Text.tight_unwords (isWord_slotWords listable), ?_⟩
  intro member
  rcases character_slotWords listable _ member with isSpace | inWord
  · contradiction
  · exact inWord.2 rfl

end Slots

section Fields

variable {head locals stack : List Char}

theorem blank_space : ∀ character ∈ [' '], Text.isBlank character = true :=
  List.forall_mem_singleton.mpr (by decide)

theorem splitLine_fields (headInside : '|' ∉ head) (localsInside : '|' ∉ locals)
    (stackInside : '|' ∉ stack) :
    splitLine (head ++ '|' :: (locals ++ '|' :: stack)) =
      .ok (Text.trim head, Text.trim locals, Text.trim stack) := by
  have apart {field : List Char} (inside : '|' ∉ field) :
      ∀ character ∈ field, (character == '|') = false := by
    intro character member
    exact beq_eq_false_iff_ne.mpr fun same => inside (same ▸ member)
  have fields : (head ++ '|' :: (locals ++ '|' :: stack)).splitOn '|' = [head, locals, stack] := by
    rw [List.splitOn, List.splitOnP_append_cons_of_forall_mem (apart headInside) '|' (by decide),
      List.splitOnP_append_cons_of_forall_mem (apart localsInside) '|' (by decide),
      List.splitOnP_eq_singleton (apart stackInside)]
  simp [splitLine, fields]

def joinFields (head locals stack : List Char) : List Char :=
  head ++ " | ".toList ++ locals ++ " | ".toList ++ stack

/-- Trimming a line takes at most the space before an empty stack. -/
theorem trim_joinFields (headIs : IsField head) (present : head ≠ []) (stackIs : IsField stack) :
    ∃ tail, Text.trim (joinFields head locals stack) =
        head ++ " | ".toList ++ locals ++ " |".toList ++ tail ∧
      Text.trim tail = stack ∧ '|' ∉ tail := by
  by_cases empty : stack = []
  · refine ⟨[], ?_, empty.symm, by simp⟩
    have isBar : Text.IsWord ['|'] := ⟨by simp, List.forall_mem_singleton.mpr (by decide)⟩
    have tight : Text.Tight (head ++ (" | ".toList ++ locals ++ [' ']) ++ ['|']) :=
      Text.tight_around _ headIs.tight present isBar.tight isBar.nonempty
    have trimmed := Text.trim_around [] [' '] (by simp) tight blank_space
    simpa [joinFields, empty] using trimmed
  · refine ⟨' ' :: stack, ?_, ?_, by simpa using stackIs.inside⟩
    · have tight : Text.Tight (head ++ (" | ".toList ++ locals ++ " | ".toList) ++ stack) :=
        Text.tight_around _ headIs.tight present stackIs.tight empty
      simpa [joinFields] using Text.trim_eq_self tight
    · have trimmed := Text.trim_around [' '] [] blank_space stackIs.tight
        (by simp)
      simpa using trimmed

theorem splitLine_joinFields (headIs : IsField head) (present : head ≠ [])
    (localsAre : IsField locals) (stackIs : IsField stack) :
    splitLine (Text.trim (joinFields head locals stack)) = .ok (head, locals, stack) := by
  obtain ⟨tail, trimmed, trimTail, tailInside⟩ := trim_joinFields headIs present stackIs
  have line : head ++ " | ".toList ++ locals ++ " |".toList ++ tail =
      (head ++ [' ']) ++ '|' :: ((' ' :: (locals ++ [' '])) ++ '|' :: tail) := by
    simp
  have trimHead := Text.trim_around [] [' '] (by simp) headIs.tight blank_space
  have trimLocals := Text.trim_around [' '] [' '] blank_space localsAre.tight
    blank_space
  rw [trimmed, line, splitLine_fields (by simpa using headIs.inside)
    (by simpa using localsAre.inside) tailInside, trimTail]
  simpa using ⟨trimHead, trimLocals⟩

end Fields

structure IsHead (isEntry : Bool) (pc : Int) (head : List Char) : Prop where
  present : head ≠ []
  characters : ∀ character ∈ head, WordCharacter character
  noComment : '#' ∉ head
  read : readPc isEntry head = .ok pc

theorem isHead_entry : IsHead true Frame.placeholderPc "entry".toList where
  present := by decide
  characters := wordCharacters_of_all (by decide)
  noComment := by decide
  read := by decide

theorem isHead_decimal (word : UInt16) : IsHead false word.toNat (Text.decimal word.toNat) where
  present := Nat.toDigits_ne_nil
  characters _ member := wordCharacter_of_isDigit (isDigit_decimal member)
  noComment member := absurd (isDigit_decimal member) (by decide)
  read := by
    have notEntry : String.ofList (Text.decimal word.toNat) ≠ "entry" := by
      intro same
      have member : 'e' ∈ Text.decimal word.toNat := by
        rw [← @String.toList_ofList (Text.decimal word.toNat), same]
        decide
      exact absurd (isDigit_decimal member) (by decide)
    simp [readPc, notEntry, Text.readWord_decimal]

theorem isHead_offset {pc : Int} (lower : 0 ≤ pc) (upper : pc < 65536) :
    IsHead false pc (toString pc).toList := by
  obtain ⟨number, rfl⟩ := Int.eq_ofNat_of_zero_le lower
  have word : (UInt16.ofNat number).toNat = number := by
    rw [UInt16.toNat_ofNat', Nat.mod_eq_of_lt (by omega)]
  have text : (toString (number : Int)).toList = Text.decimal number := by
    change (Nat.repr number).toList = _
    rw [Nat.repr_eq_ofList_toDigits, String.toList_ofList]
    rfl
  have isHead := isHead_decimal (UInt16.ofNat number)
  rw [word] at isHead
  rw [text]
  exact isHead

theorem IsHead.isField {isEntry : Bool} {pc : Int} {head : List Char}
    (isHead : IsHead isEntry pc head) : IsField head where
  tight := Text.IsWord.tight
    ⟨isHead.present, fun character member => (isHead.characters character member).1⟩
  inside member := (isHead.characters '|' member).2 rfl

theorem toList_writeFrame (head : String) (frame : Frame) :
    (writeFrame head frame).toList =
      joinFields head.toList (Text.unwords (slotWords frame.locals))
        (Text.unwords (slotWords (frame.stack.map some))) := by
  simp [writeFrame, joinFields, Text.unwords, slotWords, slotText, Function.comp_def,
    String.toList_intercalate]

section Lines

variable {isEntry : Bool} {pc : Int} {head : String} {frame : Frame}

theorem splitLine_writeFrame (isHead : IsHead isEntry pc head.toList) (listable : frame.Listable) :
    splitLine (Text.trim (writeFrame head frame).toList) =
      .ok (head.toList, Text.unwords (slotWords frame.locals),
        Text.unwords (slotWords (frame.stack.map some))) := by
  rw [toList_writeFrame]
  exact splitLine_joinFields isHead.isField isHead.present (isField_slotWords listable.locals)
    (isField_slotWords listable.stack)

theorem isSilent_writeFrame (isHead : IsHead isEntry pc head.toList)
    (listable : frame.Listable) :
    isSilent (Text.trim (writeFrame head frame).toList) = false := by
  obtain ⟨tail, trimmed, _⟩ := trim_joinFields isHead.isField isHead.present
    (isField_slotWords listable.stack)
  rw [toList_writeFrame, trimmed]
  cases whole : head.toList with
  | nil => exact absurd whole isHead.present
  | cons first rest =>
      have noComment := isHead.noComment
      rw [whole, List.mem_cons, not_or] at noComment
      simp [isSilent, Ne.symm noComment.1]

theorem newline_writeFrame (isHead : IsHead isEntry pc head.toList)
    (listable : frame.Listable) :
    '\n' ∉ (writeFrame head frame).toList := by
  have inWords {slots : List (Option VerificationType)}
      (listable : ∀ slot ∈ slots, ∀ type ∈ slot, type.Listable) :
      '\n' ∉ Text.unwords (slotWords slots) := by
    intro member
    exact absurd (character_slotWords listable _ member) (by decide)
  have inHead : '\n' ∉ head.toList := fun member =>
    absurd (isHead.characters _ member) (by decide)
  rw [toList_writeFrame]
  simp [joinFields, inHead, inWords listable.locals, inWords listable.stack]

end Lines

structure Listable (listing : Listing) : Prop where
  entryPc : listing.entry.pc = Frame.placeholderPc
  offsets : ∀ frame ∈ listing.frames, 0 ≤ frame.pc ∧ frame.pc < 65536
  frames : ∀ frame ∈ listing.entry :: listing.frames, frame.Listable

theorem Listable.isHead {listing : Listing} (listable : listing.Listable) :
    IsHead true listing.entry.pc "entry".toList := by
  rw [listable.entryPc]
  exact isHead_entry

theorem splitOn_write {listing : Listing} (listable : listing.Listable) :
    listing.write.toList.splitOn '\n' = listing.lines.map String.toList := by
  obtain ⟨entryListable, framesListable⟩ := List.forall_mem_cons.mp listable.frames
  rw [write, String.toList_intercalate]
  refine List.splitOn_intercalate '\n' ?_ (by simp [lines])
  simp only [lines, List.map_cons, List.map_map, List.forall_mem_cons, List.forall_mem_map]
  refine ⟨newline_writeFrame listable.isHead entryListable, ?_⟩
  intro frame member
  obtain ⟨lower, upper⟩ := listable.offsets frame member
  exact newline_writeFrame (isHead_offset lower upper) (framesListable frame member)

end Listing

end JvmFrames
