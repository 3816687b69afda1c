import JvmFrames.Descriptor.Reader

/-!
Names that are read from a text are no longer than the text. So the elements of an array have a
shorter name than the array, which is why walking down the elements of arrays ends.
-/

namespace JvmFrames

theorem BinaryName.readWith_text_length {check : List Char → Except SyntaxError Unit}
    {source : List Char} {name : BinaryName}
    (success : (BinaryName.readWith check source).answer = .ok name) :
    name.text.length + 1 ≤ source.length := by
  unfold BinaryName.readWith at success
  have parts := congrArg List.length
    (List.takeWhile_append_dropWhile (p := (· != ';')) (l := source))
  rw [List.length_append] at parts
  cases remaining : source.dropWhile (· != ';') with
  | nil => simp [remaining] at success
  | cons semicolon rest =>
    simp only [remaining] at success
    rw [remaining, List.length_cons] at parts
    cases checked : check (source.takeWhile (· != ';')) with
    | error cause => simp [checked, Except.map] at success
    | ok accepted =>
      simp only [checked, Except.map, Except.ok.injEq] at success
      subst success
      simp only [String.length_ofList]
      omega

theorem Reading.exists_of_map_eq_ok {α β : Type} {reading : Reading α} {change : α → β} {result : β}
    (success : (reading.map change).answer = .ok result) :
    ∃ value, reading.answer = .ok value ∧ change value = result := by
  cases found : reading.answer with
  | error cause => simp [Reading.map, found, Except.map] at success
  | ok value =>
    refine ⟨value, rfl, ?_⟩
    simpa [Reading.map, found, Except.map] using success

theorem FieldType.readWith_text_length {check : List Char → Except SyntaxError Unit}
    {source : List Char} {name : BinaryName}
    (success : (FieldType.readWith check source).answer = .ok (.reference name)) :
    name.text.length ≤ source.length := by
  unfold FieldType.readWith at success
  split at success
  · simp at success
  · rename_i rest
    obtain ⟨found, read, same⟩ := Reading.exists_of_map_eq_ok success
    cases same
    have bound := BinaryName.readWith_text_length read
    simp only [List.length_cons]
    omega
  · rename_i tail
    have parts := congrArg List.length
      (List.takeWhile_append_dropWhile (p := (· == '[')) (l := '[' :: tail))
    rw [List.length_append] at parts
    dsimp only at success
    split at success
    · rename_i rest remaining
      obtain ⟨found, read, same⟩ := Reading.exists_of_map_eq_ok success
      have bound := BinaryName.readWith_text_length read
      cases same
      rw [remaining, List.length_cons] at parts
      simp only [String.length_append, String.length_ofList]
      have letter : "L".length = 1 := rfl
      have semicolon : ";".length = 1 := rfl
      omega
    · obtain ⟨found, read, same⟩ := Reading.exists_of_map_eq_ok success
      cases same
      cases remaining : ('[' :: tail).dropWhile (· == '[') with
      | nil => simp [remaining, BaseType.read] at read
      | cons letter rest =>
        rw [remaining, List.length_cons] at parts
        simp only [String.length_append, String.length_ofList, String.length_singleton]
        omega
  · split at success <;> simp at success

/-- The elements of an array have a shorter name than the array. -/
theorem BinaryName.elementType?_text_length {array element : BinaryName}
    (isElement : array.elementType? = some (.reference element)) :
    element.text.length < array.text.length := by
  unfold BinaryName.elementType? at isElement
  split at isElement
  · rename_i tail text
    have length : array.text.length = tail.length + 1 := by
      rw [← String.length_toList, text, List.length_cons]
    have whole : (FieldType.read tail).answer = .ok (.reference element) := by
      cases answer : (FieldType.read tail).answer with
      | error cause => simp [Reading.whole, answer, Except.toOption] at isElement
      | ok type =>
        cases rest : (FieldType.read tail).rest with
        | nil => simpa [Reading.whole, answer, rest, Except.toOption] using isElement
        | cons found left => simp [Reading.whole, answer, rest, Except.toOption] at isElement
    have bound := FieldType.readWith_text_length whole
    omega
  · simp at isElement

end JvmFrames
