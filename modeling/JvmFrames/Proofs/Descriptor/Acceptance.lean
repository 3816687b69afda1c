import JvmFrames.Proofs.Descriptor.Readable

/-!
Which texts the readers of names and types accept, against the grammar of the class file format. The
name between `L` and `;` is checked like any name, and an array of base values passes as one, so one
shape of text is accepted that the format does not have. The main statement is that there is no
other, and that every other type is written as it was read.
-/

namespace JvmFrames

open BinaryName

def baseLetters : List Char := ['B', 'C', 'D', 'F', 'I', 'J', 'S', 'Z']

def Bracketed (element : List Char → Prop) (text : List Char) : Prop :=
  ∃ dimensions rest, element rest ∧ text = List.replicate dimensions '[' ++ rest

inductive IsElement : List Char → Prop
  | base {letter : Char} : letter ∈ baseLetters → IsElement [letter]
  | object {name : List Char} : IsClassName name → IsElement ('L' :: (name ++ [';']))

def IsFieldDescriptor : List Char → Prop :=
  Bracketed IsElement

def IsBaseArray (text : List Char) : Prop :=
  text.head? = some '[' ∧ Bracketed (fun element => ∃ letter ∈ baseLetters, element = [letter]) text

def WrapsArray : List Char → Prop :=
  Bracketed fun element => ∃ array, IsBaseArray array ∧ element = 'L' :: (array ++ [';'])

/-- The readers keep to the format on this text: they take it for a type or a name exactly if it is
one, and a type that is read from it is written as it was. -/
structure KeepsFormat (source : String) : Prop where
  type : (∃ type, FieldType.ofString source = .ok type) ↔ IsFieldDescriptor source.toList
  name : (∃ name, BinaryName.ofString source = .ok name) ↔
    IsClassName source.toList ∨ source.toList.head? = some '[' ∧ IsFieldDescriptor source.toList
  text : ∀ type, FieldType.ofString source = .ok type → type.render = source

theorem mem_baseLetters_iff {letter : Char} :
    letter ∈ baseLetters ↔ ∃ type : BaseType, type.letter = letter := by
  constructor
  · intro member
    simp only [baseLetters, List.mem_cons, List.not_mem_nil, or_false] at member
    rcases member with rfl | rfl | rfl | rfl | rfl | rfl | rfl | rfl
    · exact ⟨.byte, rfl⟩
    · exact ⟨.char, rfl⟩
    · exact ⟨.double, rfl⟩
    · exact ⟨.float, rfl⟩
    · exact ⟨.int, rfl⟩
    · exact ⟨.long, rfl⟩
    · exact ⟨.short, rfl⟩
    · exact ⟨.boolean, rfl⟩
  · rintro ⟨type, rfl⟩
    cases type <;> decide

section Bracketed

variable {element other : List Char → Prop} {text : List Char}

theorem bracketed_of_element (isElement : element text) : Bracketed element text :=
  ⟨0, text, isElement, rfl⟩

theorem Bracketed.cons (bracketed : Bracketed element text) : Bracketed element ('[' :: text) := by
  obtain ⟨dimensions, rest, isElement, rfl⟩ := bracketed
  exact ⟨dimensions + 1, rest, isElement, rfl⟩

theorem Bracketed.mono (bracketed : Bracketed element text)
    (stronger : ∀ rest, element rest → other rest) : Bracketed other text := by
  obtain ⟨dimensions, rest, isElement, same⟩ := bracketed
  exact ⟨dimensions, rest, stronger rest isElement, same⟩

theorem bracketed_or_iff :
    Bracketed (fun rest => element rest ∨ other rest) text ↔
      Bracketed element text ∨ Bracketed other text := by
  constructor
  · rintro ⟨dimensions, rest, isElement | isOther, same⟩
    · exact .inl ⟨dimensions, rest, isElement, same⟩
    · exact .inr ⟨dimensions, rest, isOther, same⟩
  · rintro (bracketed | bracketed)
    · exact bracketed.mono fun _ => .inl
    · exact bracketed.mono fun _ => .inr

/-- Where elements start with no bracket, a text has one element only. -/
theorem Bracketed.exists_common (noBracket : ∀ rest, element rest → rest.head? ≠ some '[')
    (otherNoBracket : ∀ rest, other rest → rest.head? ≠ some '[')
    (bracketed : Bracketed element text) (otherBracketed : Bracketed other text) :
    ∃ rest, element rest ∧ other rest := by
  have behind {rest : List Char} (dimensions : Nat) (stops : rest.head? ≠ some '[') :
      (List.replicate dimensions '[' ++ rest).dropWhile (· == '[') = rest := by
    rw [List.dropWhile_append_of_pos (by simp)]
    exact List.dropWhile_beq_eq_self_of_head?_ne stops
  obtain ⟨dimensions, rest, isElement, same⟩ := bracketed
  obtain ⟨otherDimensions, otherRest, isOther, rfl⟩ := otherBracketed
  have equal := congrArg (List.dropWhile (· == '[')) same
  rw [behind _ (noBracket rest isElement), behind _ (otherNoBracket otherRest isOther)] at equal
  exact ⟨rest, isElement, equal ▸ isOther⟩

end Bracketed

theorem exists_fieldText_iff {check : List Char → Except SyntaxError Unit} {text : List Char} :
    (∃ type, FieldText check text type) ↔
      Bracketed (fun element => ∃ letter ∈ baseLetters, element = [letter]) text ∨
        Bracketed (fun element => ∃ name, (';' ∉ name ∧ check name = .ok ()) ∧
          element = 'L' :: (name ++ [';'])) text := by
  constructor
  · rintro ⟨type, grammar⟩
    induction grammar with
    | base type =>
        exact .inl (bracketed_of_element ⟨_, mem_baseLetters_iff.mpr ⟨type, rfl⟩, rfl⟩)
    | name inside checked => exact .inr (bracketed_of_element ⟨_, ⟨inside, checked⟩, rfl⟩)
    | array _ ih => exact ih.imp Bracketed.cons Bracketed.cons
  · have array {rest : List Char} {type : FieldType} (dimensions : Nat)
        (grammar : FieldText check rest type) :
        ∃ type, FieldText check (List.replicate dimensions '[' ++ rest) type := by
      induction dimensions with
      | zero => exact ⟨type, grammar⟩
      | succ dimensions ih =>
          obtain ⟨inner, grammar⟩ := ih
          exact ⟨_, .array grammar⟩
    rintro (⟨dimensions, _, ⟨letter, member, rfl⟩, rfl⟩ |
      ⟨dimensions, _, ⟨name, ⟨inside, checked⟩, rfl⟩, rfl⟩)
    · obtain ⟨type, rfl⟩ := mem_baseLetters_iff.mp member
      exact array dimensions (.base type)
    · exact array dimensions (.name inside checked)

theorem checkInner_eq_ok_iff {name : List Char} :
    (';' ∉ name ∧ checkInner name = .ok ()) ↔ IsClassName name ∨ IsBaseArray name := by
  rw [checkInner, checkWith_eq_ok_iff, exists_fieldText_iff]
  constructor
  · rintro ⟨inside, isName | ⟨starts, base | ⟨dimensions, _, ⟨_, _, rfl⟩, rfl⟩⟩⟩
    · exact .inl isName
    · exact .inr ⟨starts, base⟩
    · simp at inside
  · rintro (isName | ⟨starts, base⟩)
    · exact ⟨fun member => isName.plain member (by decide), .inl isName⟩
    · refine ⟨?_, .inr ⟨starts, .inl base⟩⟩
      obtain ⟨dimensions, _, ⟨letter, member, rfl⟩, rfl⟩ := base
      simp only [List.mem_append, List.mem_replicate, List.mem_singleton, not_or]
      refine ⟨by simp, ?_⟩
      rintro rfl
      exact absurd member (by decide)

theorem isFieldDescriptor_or_wrapsArray_iff {text : List Char} :
    (∃ type, FieldText checkInner text type) ↔ IsFieldDescriptor text ∨ WrapsArray text := by
  have elements (element : List Char) : IsElement element ↔
      (∃ letter ∈ baseLetters, element = [letter]) ∨
        ∃ name, IsClassName name ∧ element = 'L' :: (name ++ [';']) := by
    constructor
    · rintro (⟨member⟩ | ⟨isName⟩)
      · exact .inl ⟨_, member, rfl⟩
      · exact .inr ⟨_, isName, rfl⟩
    · rintro (⟨_, member, rfl⟩ | ⟨_, isName, rfl⟩)
      · exact .base member
      · exact .object isName
  simp only [exists_fieldText_iff, checkInner_eq_ok_iff, IsFieldDescriptor, WrapsArray,
    or_and_right, exists_or, bracketed_or_iff, or_assoc,
    funext fun element => propext (elements element)]

theorem not_isFieldDescriptor_of_wrapsArray {text : List Char} (wraps : WrapsArray text) :
    ¬ IsFieldDescriptor text := by
  intro isDescriptor
  have elementStarts : ∀ rest, IsElement rest → rest.head? ≠ some '[' := by
    rintro _ (⟨member⟩ | _)
    · rintro ⟨⟩
      exact absurd member (by decide)
    · simp
  obtain ⟨_, isElement, array, isArray, rfl⟩ :=
    isDescriptor.exists_common elementStarts (by rintro _ ⟨_, _, rfl⟩; simp) wraps
  generalize whole : 'L' :: (array ++ [';']) = text at isElement
  cases isElement with
  | base _ => simp at whole
  | object isName =>
      obtain rfl : array = _ := by simpa using whole
      exact isName.head?_ne isArray.1

theorem FieldType.ofString_eq_ok_iff {source : String} {type : FieldType} :
    ofString source = .ok type ↔ FieldText checkInner source.toList type :=
  whole_readWith_iff

theorem render_of_grammar {source : String} {type : FieldType}
    (grammar : FieldText checkInner source.toList type) :
    type.render = source ∨
      ∃ array, IsBaseArray array ∧ source.toList = 'L' :: (array ++ [';']) ∧
        type.render.toList = array := by
  cases type with
  | base type =>
      have letter : source.toList = [type.letter] := by
        generalize source.toList = text at grammar
        cases grammar
        rfl
      exact .inl (String.toList_inj.mp (by rw [letter, FieldType.render, String.toList_singleton]))
  | reference name =>
      rcases grammar_cases grammar with ⟨text, inside, checked⟩ | ⟨text, array⟩
      · cases array : name.isArray with
        | true =>
            refine .inr ⟨name.text.toList, ?_, text, by rw [render_of_isArray array]⟩
            rcases checkInner_eq_ok_iff.mp ⟨inside, checked⟩ with isName | isArray
            · exact absurd (of_decide_eq_true array) isName.head?_ne
            · exact isArray
        | false =>
            refine .inl (String.toList_inj.mp ?_)
            rw [render_of_not_isArray array, text]
            simp
      · refine .inl (String.toList_inj.mp ?_)
        rw [render_of_isArray array, text]

theorem ofString_accepts_iff {source : String} :
    (∃ type, FieldType.ofString source = .ok type) ↔
      IsFieldDescriptor source.toList ∨ WrapsArray source.toList := by
  simp only [FieldType.ofString_eq_ok_iff, isFieldDescriptor_or_wrapsArray_iff]

theorem ofString_accepts_name_iff {text : String} :
    (∃ name, BinaryName.ofString text = .ok name) ↔
      IsClassName text.toList ∨ text.toList.head? = some '[' ∧
        (IsFieldDescriptor text.toList ∨ WrapsArray text.toList) := by
  simp only [BinaryName.ofString_eq_ok_iff, exists_and_left, exists_eq, and_true]
  rw [BinaryName.check, checkWith_eq_ok_iff, isFieldDescriptor_or_wrapsArray_iff]

/-- The readers keep to the format on all texts but those that wrap an array. Such a text is taken
for a type; it is written as it was, or as the array if it is nothing but the wrapped array. -/
theorem keepsFormat_iff (source : String) :
    (KeepsFormat source ↔ ¬ WrapsArray source.toList) ∧
      (WrapsArray source.toList → ∃ type, FieldType.ofString source = .ok type ∧
        (type.render = source ∨
          ∃ array, IsBaseArray array ∧ source.toList = 'L' :: (array ++ [';']) ∧
            type.render.toList = array)) := by
  have written {type : FieldType} (success : FieldType.ofString source = .ok type) :=
    render_of_grammar (FieldType.ofString_eq_ok_iff.mp success)
  constructor
  · constructor
    · intro keeps wraps
      have isDescriptor := keeps.type.mp (ofString_accepts_iff.mpr (.inr wraps))
      exact not_isFieldDescriptor_of_wrapsArray wraps isDescriptor
    · intro bare
      refine ⟨?_, ?_, ?_⟩
      · rw [ofString_accepts_iff, or_iff_left bare]
      · rw [ofString_accepts_name_iff, or_iff_left bare]
      · intro type success
        rcases written success with same | ⟨array, isArray, whole, _⟩
        · exact same
        · exact absurd (bracketed_of_element ⟨array, isArray, whole⟩) bare
  · intro wraps
    obtain ⟨type, success⟩ := ofString_accepts_iff.mpr (.inr wraps)
    exact ⟨type, success, written success⟩

/-- An array of two dimensions whose elements are of a class in a package. -/
theorem keepsFormat_class_array :
    IsFieldDescriptor "[[Lp/A;".toList ∧ KeepsFormat "[[Lp/A;" := by
  have isSegment {letter : Char} (plain : letter ∉ ['/', '.', ';', '[']) : IsSegment [letter] :=
    ⟨List.cons_ne_nil _ _, by simpa using plain⟩
  have isName : IsClassName "p/A".toList := by
    refine ⟨[['p'], ['A']], List.cons_ne_nil _ _, ?_, rfl⟩
    rw [List.forall_mem_cons, List.forall_mem_singleton]
    exact ⟨isSegment (by decide), isSegment (by decide)⟩
  have isDescriptor : IsFieldDescriptor "[[Lp/A;".toList := ⟨2, _, .object isName, rfl⟩
  refine ⟨isDescriptor, (keepsFormat_iff "[[Lp/A;").1.mpr ?_⟩
  exact fun wraps => not_isFieldDescriptor_of_wrapsArray wraps isDescriptor

/-- The text of no type, which is read as an array of integers and is written as one. -/
theorem not_keepsFormat_wrapped_array :
    FieldType.ofString "L[I;" = .ok (.reference ⟨"[I"⟩) ∧
      (FieldType.reference ⟨"[I"⟩).render = "[I" ∧
      BinaryName.ofString "[L[I;" = .ok ⟨"[L[I;"⟩ ∧
      ¬ IsFieldDescriptor "L[I;".toList ∧ ¬ IsFieldDescriptor "[L[I;".toList ∧
      ¬ KeepsFormat "L[I;" ∧ ¬ KeepsFormat "[L[I;" := by
  have array : IsBaseArray "[I".toList := ⟨rfl, 1, _, ⟨'I', by decide, rfl⟩, rfl⟩
  have noType (dimensions : Nat) := not_isFieldDescriptor_of_wrapsArray
    (⟨dimensions, _, ⟨_, array, rfl⟩, rfl⟩ :
      WrapsArray (List.replicate dimensions '[' ++ 'L' :: ("[I".toList ++ [';'])))
  have read : FieldType.ofString "L[I;" = .ok (.reference ⟨"[I"⟩) := by decide
  have readNested : FieldType.ofString "[L[I;" = .ok (.reference ⟨"[L[I;"⟩) := by decide
  refine ⟨read, by decide, by decide, noType 0, noType 1, ?_, ?_⟩
  · exact fun keeps => noType 0 (keeps.type.mp ⟨_, read⟩)
  · exact fun keeps => noType 1 (keeps.type.mp ⟨_, readNested⟩)

end JvmFrames
