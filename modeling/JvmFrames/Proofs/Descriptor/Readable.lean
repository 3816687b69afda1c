import JvmFrames.Proofs.Descriptor.ClassName
import JvmFrames.Proofs.Descriptor.Grammar

/-!
Names that read back from their descriptors. All valid names do, and so do the elements of arrays;
arrays of such names are arrays with these elements.
-/

namespace JvmFrames

namespace BinaryName

def Readable (name : BinaryName) : Prop :=
  FieldText checkInner (FieldType.reference name).render.toList (.reference name)

theorem eq_ofList {name : BinaryName} {text : List Char} (found : name.text.toList = text) :
    name = ⟨String.ofList text⟩ := by
  obtain ⟨whole⟩ := name
  rw [← found, String.ofList_toList]

theorem isArray_iff {name : BinaryName} :
    name.isArray = true ↔ ∃ text, name.text.toList = '[' :: text := by
  rw [isArray, decide_eq_true_iff, List.head?_eq_some_iff]

theorem render_of_isArray {name : BinaryName} (array : name.isArray = true) :
    (FieldType.reference name).render = name.text := by
  rw [FieldType.render, if_pos array]

theorem render_of_not_isArray {name : BinaryName} (notArray : name.isArray = false) :
    (FieldType.reference name).render = "L" ++ name.text ++ ";" := by
  rw [FieldType.render, if_neg (Bool.not_eq_true _ ▸ notArray)]

theorem readable_of_grammar {name : BinaryName} {type : FieldType} (array : name.isArray = true)
    (grammar : FieldText checkInner name.text.toList type) : name.Readable := by
  obtain ⟨text, found⟩ := isArray_iff.mp array
  rw [found] at grammar
  have whole := grammar.eq_reference.1
  subst whole
  rw [← found, String.ofList_toList] at grammar
  rw [Readable, render_of_isArray array]
  exact grammar

theorem readable_of_inside {name : BinaryName} (notArray : name.isArray = false)
    (inside : ';' ∉ name.text.toList) (checked : checkInner name.text.toList = .ok ()) :
    name.Readable := by
  have grammar := FieldText.name inside checked
  rw [String.ofList_toList] at grammar
  rw [Readable, render_of_not_isArray notArray]
  simpa using grammar

/-- Where no text holds a semicolon no class name is checked. -/
theorem grammar_of_no_semicolon {check other : List Char → Except SyntaxError Unit}
    {text : List Char} {type : FieldType} (grammar : FieldText check text type)
    (inside : ';' ∉ text) : FieldText other text type := by
  induction grammar with
  | base type => exact .base type
  | name _ _ => simp at inside
  | array _ ih => exact .array (ih fun member => inside (List.mem_cons_of_mem _ member))

/-- The names that pass a check of arrays are class names, and the arrays that pass it. -/
theorem checkWith_eq_ok_iff {check : List Char → Except SyntaxError Unit} {text : List Char} :
    checkWith check text = .ok () ↔
      IsClassName text ∨ text.head? = some '[' ∧ ∃ type, FieldText check text type := by
  unfold checkWith
  split
  · simp only [reduceCtorEq, List.head?_nil, false_and, or_false, false_iff]
    exact fun isName => isName.ne_nil rfl
  · rename_i text
    have notName : ¬ IsClassName ('[' :: text) := fun isName => isName.head?_ne rfl
    simp only [notName, List.head?_cons, true_and, false_or, ← FieldType.whole_readWith_iff]
    cases (FieldType.readWith check ('[' :: text)).whole <;> simp
  · rename_i noBracket
    have starts : text.head? ≠ some '[' := by
      intro first
      obtain ⟨rest, rfl⟩ := List.head?_eq_some_iff.mp first
      exact noBracket rest rfl
    simp only [checkSegments_splitOn_iff, starts, false_and, or_false]

theorem array_of_check {check : List Char → Except SyntaxError Unit} {name : BinaryName}
    (array : name.isArray = true) (checked : checkWith check name.text.toList = .ok ()) :
    ∃ type, FieldText check name.text.toList type := by
  rcases checkWith_eq_ok_iff.mp checked with isName | ⟨_, grammar⟩
  · exact absurd (of_decide_eq_true array) isName.head?_ne
  · exact grammar

/-- A reference is written with its name between letters, or is an array and written as its name. -/
theorem grammar_cases {check : List Char → Except SyntaxError Unit} {text : List Char}
    {name : BinaryName} (grammar : FieldText check text (.reference name)) :
    text = 'L' :: (name.text.toList ++ [';']) ∧ ';' ∉ name.text.toList ∧
        check name.text.toList = .ok () ∨
      text = name.text.toList ∧ name.isArray = true := by
  generalize same : FieldType.reference name = type at grammar
  cases grammar with
  | base type => contradiction
  | name inside checked =>
      cases same
      rw [String.toList_ofList]
      exact .inl ⟨rfl, inside, checked⟩
  | array grammar =>
      cases same
      rw [String.toList_ofList]
      exact .inr ⟨rfl, isArray_iff.mpr ⟨_, String.toList_ofList⟩⟩

theorem grammar_of_inner_array {name : BinaryName} (array : name.isArray = true)
    (inside : ';' ∉ name.text.toList) (checked : checkInner name.text.toList = .ok ()) :
    ∃ type, FieldText checkInner name.text.toList type := by
  obtain ⟨type, grammar⟩ := array_of_check array checked
  exact ⟨type, grammar_of_no_semicolon grammar inside⟩

theorem readable_of_element {text : List Char} {name : BinaryName}
    (grammar : FieldText checkInner text (.reference name)) : name.Readable := by
  rcases grammar_cases grammar with ⟨_, inside, checked⟩ | ⟨rfl, array⟩
  · by_cases array : name.isArray = true
    · obtain ⟨type, innerGrammar⟩ := grammar_of_inner_array array inside checked
      exact readable_of_grammar array innerGrammar
    · exact readable_of_inside (Bool.not_eq_true _ ▸ array) inside checked
  · exact readable_of_grammar array grammar

theorem ofString_eq_ok_iff {text : String} {name : BinaryName} :
    ofString text = .ok name ↔ check text.toList = .ok () ∧ name = ⟨text⟩ := by
  unfold ofString
  cases check text.toList with
  | error cause => simp [Except.map]
  | ok _ => simp [Except.map, eq_comm]

theorem readable_of_ofString {name : BinaryName} (valid : ofString name.text = .ok name) :
    name.Readable := by
  have checked := (ofString_eq_ok_iff.mp valid).1
  rcases checkWith_eq_ok_iff.mp checked with isName | ⟨starts, type, grammar⟩
  · exact readable_of_inside (decide_eq_false isName.head?_ne)
      (fun member => isName.plain member (by decide)) (checkWith_eq_ok_iff.mpr (.inl isName))
  · exact readable_of_grammar (decide_eq_true starts) grammar

theorem readable_array {element : BinaryName} (readable : element.Readable) :
    Readable ⟨"[" ++ (FieldType.reference element).render⟩ := by
  have array : isArray ⟨"[" ++ (FieldType.reference element).render⟩ = true := by
    simp [isArray]
  have whole := FieldText.array readable
  have text : ("[" ++ (FieldType.reference element).render).toList =
      '[' :: (FieldType.reference element).render.toList := by simp
  rw [← text] at whole
  exact readable_of_grammar array whole

theorem elementType?_array {element : FieldType}
    (grammar : FieldText checkInner element.render.toList element) :
    elementType? ⟨"[" ++ element.render⟩ = some element :=
  elementType?_eq_some_iff.mpr ⟨_, by simp, grammar⟩

theorem readable_of_elementType? {name element : BinaryName}
    (found : name.elementType? = some (.reference element)) : element.Readable := by
  obtain ⟨text, _, grammar⟩ := elementType?_eq_some_iff.mp found
  exact readable_of_element grammar

theorem readable_object : object.Readable :=
  readable_of_ofString (by decide)

end BinaryName

end JvmFrames
