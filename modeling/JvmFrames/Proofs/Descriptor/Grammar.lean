import JvmFrames.Descriptor.Length
import Mathlib.Data.List.TakeWhile

/-!
The grammar of field types. A reader takes exactly one text of the grammar from its source and
leaves the rest, whatever follows.
-/

namespace JvmFrames

variable {check : List Char → Except SyntaxError Unit}

inductive FieldText (check : List Char → Except SyntaxError Unit) : List Char → FieldType → Prop
  | base (type : BaseType) : FieldText check [type.letter] (.base type)
  | name {name : List Char} : ';' ∉ name → check name = .ok () →
      FieldText check ('L' :: (name ++ [';'])) (.reference ⟨String.ofList name⟩)
  | array {text : List Char} {element : FieldType} : FieldText check text element →
      FieldText check ('[' :: text) (.reference ⟨String.ofList ('[' :: text)⟩)

theorem FieldText.eq_reference {text : List Char} {type : FieldType}
    (grammar : FieldText check ('[' :: text) type) :
    type = .reference ⟨String.ofList ('[' :: text)⟩ ∧ ∃ element, FieldText check text element := by
  generalize whole : '[' :: text = source at grammar
  cases grammar with
  | base type => cases type <;> simp [BaseType.letter] at whole
  | name _ _ => simp at whole
  | @array inner element grammar =>
      obtain rfl := (List.cons.inj whole).2
      exact ⟨rfl, element, grammar⟩

theorem ofList_bracket (text : List Char) :
    String.ofList ('[' :: text) = "[" ++ String.ofList text := by
  apply String.toList_inj.mp
  simp

theorem BinaryName.readWith_append (check : List Char → Except SyntaxError Unit)
    {name : List Char} (inside : ';' ∉ name) (rest : List Char) :
    BinaryName.readWith check (name ++ ';' :: rest) =
      ⟨(check name).map fun _ => ⟨String.ofList name⟩, rest⟩ := by
  have others : ∀ character ∈ name, (character != ';') = true := by
    intro character member
    have different : character ≠ ';' := fun same => inside (same ▸ member)
    simpa using different
  unfold BinaryName.readWith
  rw [List.takeWhile_append_of_pos others, List.dropWhile_append_of_pos others]
  simp

theorem BinaryName.readWith_ok {source : List Char} {found : BinaryName}
    (success : (BinaryName.readWith check source).answer = .ok found) :
    ∃ name, ';' ∉ name ∧ check name = .ok () ∧ found = ⟨String.ofList name⟩ ∧
      source = name ++ ';' :: (BinaryName.readWith check source).rest := by
  have whole := List.takeWhile_append_dropWhile (p := (· != ';')) (l := source)
  have inside : ';' ∉ source.takeWhile (· != ';') := by
    intro member
    simpa using List.mem_takeWhile_imp member
  unfold BinaryName.readWith at success ⊢
  cases remaining : source.dropWhile (· != ';') with
  | nil => simp [remaining] at success
  | cons semicolon rest =>
      have ends : semicolon = ';' := by
        have stopped := List.head_dropWhile_not (· != ';') (l := source) (by simp [remaining])
        simpa [remaining] using stopped
      subst ends
      simp only [remaining] at success ⊢
      cases checked : check (source.takeWhile (· != ';')) with
      | error cause => simp [checked, Except.map] at success
      | ok _ =>
          rw [checked] at success
          refine ⟨_, inside, checked, (Except.ok.inj success).symm, ?_⟩
          rw [← remaining, whole]

theorem BaseType.read_ok {source : List Char} {type : BaseType}
    (success : (BaseType.read source).answer = .ok type) :
    source = type.letter :: (BaseType.read source).rest := by
  cases source with
  | nil => simp [BaseType.read] at success
  | cons found rest =>
      cases known : BaseType.ofLetter? found with
      | none => simp [BaseType.read, known] at success
      | some other =>
          simp only [BaseType.read, known, Except.ok.injEq] at success ⊢
          rw [← success, BaseType.letter_of_ofLetter? known]

theorem Reading.map_map {α β γ : Type} (reading : Reading α) (first : α → β) (second : β → γ) :
    (reading.map first).map second = reading.map fun value => second (first value) := by
  obtain ⟨answer, rest⟩ := reading
  cases answer <;> rfl

namespace FieldType

theorem readWith_array_of_name {source rest : List Char}
    (remaining : source.dropWhile (· == '[') = 'L' :: rest) :
    FieldType.readWith check ('[' :: source) =
      (BinaryName.readWith check rest).map fun name =>
        .reference
          ⟨String.ofList ('[' :: source.takeWhile (· == '[')) ++ "L" ++ name.text ++ ";"⟩ := by
  have left : ('[' :: source).dropWhile (· == '[') = 'L' :: rest := by simpa using remaining
  have taken : ('[' :: source).takeWhile (· == '[') = '[' :: source.takeWhile (· == '[') := by simp
  simp only [FieldType.readWith, left, taken]

theorem readWith_array_of_base {source element : List Char}
    (remaining : source.dropWhile (· == '[') = element) (noName : element.head? ≠ some 'L') :
    FieldType.readWith check ('[' :: source) =
      (BaseType.read element).map fun type =>
        .reference ⟨String.ofList ('[' :: source.takeWhile (· == '[')) ++
          String.singleton type.letter⟩ := by
  have left : ('[' :: source).dropWhile (· == '[') = element := by simpa using remaining
  have taken : ('[' :: source).takeWhile (· == '[') = '[' :: source.takeWhile (· == '[') := by simp
  simp only [FieldType.readWith, left, taken]
  split
  · simp at noName
  · rfl

theorem readWith_of_letter {first : Char} {source : List Char} (noBracket : first ≠ '[')
    (noName : first ≠ 'L') :
    FieldType.readWith check (first :: source) =
      match BaseType.ofLetter? first with
      | some type => ⟨.ok (.base type), source⟩
      | none => ⟨.error (.invalidFieldType first), first :: source⟩ := by
  unfold FieldType.readWith
  split
  · contradiction
  · simp_all
  · simp_all
  · rename_i same
    cases same
    rfl

theorem readWith_bracket (source : List Char) :
    FieldType.readWith check ('[' :: '[' :: source) =
      (FieldType.readWith check ('[' :: source)).map fun
        | .reference name => .reference ⟨"[" ++ name.text⟩
        | type => type := by
  have taken : ('[' :: source).takeWhile (· == '[') = '[' :: source.takeWhile (· == '[') := by simp
  have left : ('[' :: source).dropWhile (· == '[') = source.dropWhile (· == '[') := by simp
  by_cases named : ∃ rest, source.dropWhile (· == '[') = 'L' :: rest
  · obtain ⟨rest, remaining⟩ := named
    rw [readWith_array_of_name remaining, readWith_array_of_name (left.trans remaining), taken,
      ofList_bracket ('[' :: _)]
    rw [Reading.map_map]
    simp only [ofList_bracket, String.append_assoc]
  · have noName : (source.dropWhile (· == '[')).head? ≠ some 'L' := by
      intro first
      obtain ⟨rest, remaining⟩ := List.head?_eq_some_iff.mp first
      exact named ⟨rest, remaining⟩
    rw [readWith_array_of_base rfl noName, readWith_array_of_base left noName, taken]
    rw [Reading.map_map]
    simp only [ofList_bracket, String.append_assoc]

theorem readWith_append {text : List Char} {type : FieldType} (grammar : FieldText check text type)
    (rest : List Char) : FieldType.readWith check (text ++ rest) = ⟨.ok type, rest⟩ := by
  induction grammar with
  | base type => cases type <;> rfl
  | @name name inside checked =>
      have read := BinaryName.readWith_append check inside rest
      rw [List.cons_append, List.append_assoc]
      simp only [FieldType.readWith, List.singleton_append]
      rw [read, checked]
      rfl
  | @array text element grammar ih =>
      cases grammar with
      | base type => cases type <;> rfl
      | @name name inside checked =>
          have read := BinaryName.readWith_append check inside rest
          have text : String.ofList ('[' :: 'L' :: (name ++ [';'])) =
              String.ofList ['['] ++ "L" ++ String.ofList name ++ ";" := by
            apply String.toList_inj.mp
            simp
          rw [List.cons_append, List.cons_append, List.append_assoc,
            readWith_array_of_name (by simp; rfl), List.singleton_append, read, checked, text]
          simp [Reading.map, Except.map]
      | @array inner element grammar =>
          rw [List.cons_append] at ih ⊢
          rw [List.cons_append, readWith_bracket, ih, ofList_bracket ('[' :: inner)]
          rfl

theorem readWith_ok_name {source : List Char} {type : FieldType}
    (success : (FieldType.readWith check ('L' :: source)).answer = .ok type) :
    ∃ text, FieldText check text type ∧
      'L' :: source = text ++ (FieldType.readWith check ('L' :: source)).rest := by
  simp only [FieldType.readWith] at success ⊢
  obtain ⟨found, read, same⟩ := Reading.exists_of_map_eq_ok success
  obtain ⟨name, inside, checked, rfl, whole⟩ := BinaryName.readWith_ok read
  subst same
  refine ⟨_, .name inside checked, ?_⟩
  simp only [Reading.map, List.cons_append, List.append_assoc]
  exact congrArg _ whole

theorem readWith_ok_array_of_name {source : List Char} {type : FieldType}
    (success : (FieldType.readWith check ('[' :: 'L' :: source)).answer = .ok type) :
    ∃ text, FieldText check text type ∧
      '[' :: 'L' :: source = text ++ (FieldType.readWith check ('[' :: 'L' :: source)).rest := by
  have remaining : ('L' :: source).dropWhile (· == '[') = 'L' :: source := by simp
  rw [readWith_array_of_name remaining] at success ⊢
  obtain ⟨found, read, same⟩ := Reading.exists_of_map_eq_ok success
  obtain ⟨name, inside, checked, rfl, whole⟩ := BinaryName.readWith_ok read
  subst same
  have text : String.ofList ('[' :: ('L' :: source).takeWhile (· == '[')) ++ "L" ++
      String.ofList name ++ ";" = String.ofList ('[' :: 'L' :: (name ++ [';'])) := by
    apply String.toList_inj.mp
    simp
  simp only [text]
  refine ⟨_, .array (.name inside checked), ?_⟩
  simp only [Reading.map, List.cons_append, List.append_assoc]
  exact congrArg _ (congrArg _ whole)

theorem readWith_ok_array_of_base {source : List Char} {type : FieldType}
    (noBracket : source.head? ≠ some '[') (noName : source.head? ≠ some 'L')
    (success : (FieldType.readWith check ('[' :: source)).answer = .ok type) :
    ∃ text, FieldText check text type ∧
      '[' :: source = text ++ (FieldType.readWith check ('[' :: source)).rest := by
  have remaining : source.dropWhile (· == '[') = source :=
    List.dropWhile_beq_eq_self_of_head?_ne noBracket
  have nothing : source.takeWhile (· == '[') = [] := by
    cases source with
    | nil => rfl
    | cons next source => simpa using noBracket
  rw [readWith_array_of_base remaining noName] at success ⊢
  obtain ⟨base, read, same⟩ := Reading.exists_of_map_eq_ok success
  have whole := BaseType.read_ok read
  subst same
  have text : String.ofList ('[' :: source.takeWhile (· == '[')) ++
      String.singleton base.letter = String.ofList ['[', base.letter] := by
    apply String.toList_inj.mp
    simp [nothing]
  simp only [text]
  exact ⟨_, .array (.base base), congrArg _ whole⟩

theorem readWith_ok_array {source : List Char}
    (nested : ∀ {type}, (FieldType.readWith check ('[' :: source)).answer = .ok type →
      ∃ text, FieldText check text type ∧
        '[' :: source = text ++ (FieldType.readWith check ('[' :: source)).rest)
    {type : FieldType}
    (success : (FieldType.readWith check ('[' :: '[' :: source)).answer = .ok type) :
    ∃ text, FieldText check text type ∧
      '[' :: '[' :: source = text ++ (FieldType.readWith check ('[' :: '[' :: source)).rest := by
  rw [readWith_bracket] at success ⊢
  obtain ⟨inner, read, same⟩ := Reading.exists_of_map_eq_ok success
  obtain ⟨text, grammar, whole⟩ := nested read
  cases grammar with
  | base base => cases base <;> simp [BaseType.letter] at whole
  | name _ _ => simp at whole
  | @array text element grammar =>
      subst same
      simp only [← ofList_bracket]
      exact ⟨_, .array (.array grammar), congrArg _ whole⟩

/-- What a reader takes is a text of the grammar. -/
theorem readWith_ok {source : List Char} {type : FieldType}
    (success : (FieldType.readWith check source).answer = .ok type) :
    ∃ text, FieldText check text type ∧
      source = text ++ (FieldType.readWith check source).rest := by
  -- An array behind a bracket is an array again or has no further bracket.
  induction source generalizing type with
  | nil => simp [FieldType.readWith] at success
  | cons first source ih =>
      by_cases bracket : first = '['
      · subst bracket
        by_cases nested : source.head? = some '['
        · obtain ⟨source, rfl⟩ := List.head?_eq_some_iff.mp nested
          exact readWith_ok_array ih success
        · by_cases named : source.head? = some 'L'
          · obtain ⟨source, rfl⟩ := List.head?_eq_some_iff.mp named
            exact readWith_ok_array_of_name success
          · exact readWith_ok_array_of_base nested named success
      · by_cases named : first = 'L'
        · subst named
          exact readWith_ok_name success
        · rw [readWith_of_letter bracket named] at success ⊢
          cases known : BaseType.ofLetter? first with
          | none => simp [known] at success
          | some base =>
              simp only [known, Except.ok.injEq] at success ⊢
              subst success
              refine ⟨_, .base base, ?_⟩
              rw [BaseType.letter_of_ofLetter? known]
              rfl

theorem whole_readWith_iff {source : List Char} {type : FieldType} :
    (FieldType.readWith check source).whole = .ok type ↔ FieldText check source type := by
  constructor
  · intro success
    have answer : (FieldType.readWith check source).answer = .ok type ∧
        (FieldType.readWith check source).rest = [] := by
      unfold Reading.whole at success
      split at success
      · contradiction
      · rename_i value read empty
        exact ⟨read.trans success, empty⟩
      · contradiction
    obtain ⟨text, grammar, whole⟩ := readWith_ok answer.1
    rw [answer.2, List.append_nil] at whole
    rw [whole]
    exact grammar
  · intro grammar
    have read := readWith_append grammar []
    rw [List.append_nil] at read
    rw [read]
    rfl

end FieldType

namespace BinaryName

theorem elementType?_eq_some_iff {name : BinaryName} {element : FieldType} :
    name.elementType? = some element ↔
      ∃ text, name.text.toList = '[' :: text ∧ FieldText checkInner text element := by
  unfold elementType?
  split
  · rename_i text found
    rw [found]
    cases whole : (FieldType.read text).whole with
    | error cause =>
        simp only [Except.toOption, reduceCtorEq, List.cons.injEq, true_and, false_iff]
        rintro ⟨_, rfl, grammar⟩
        rw [FieldType.read, FieldType.whole_readWith_iff.mpr grammar] at whole
        contradiction
    | ok other =>
        have grammar := FieldType.whole_readWith_iff.mp whole
        simp only [Except.toOption, Option.some.injEq, List.cons.injEq, true_and]
        constructor
        · rintro rfl
          exact ⟨text, rfl, grammar⟩
        · rintro ⟨_, rfl, same⟩
          rw [← FieldType.whole_readWith_iff, ← FieldType.read, whole] at same
          exact Except.ok.inj same
  · rename_i noBracket
    simp only [reduceCtorEq, false_iff]
    rintro ⟨text, found, _⟩
    exact noBracket text found

end BinaryName

end JvmFrames
