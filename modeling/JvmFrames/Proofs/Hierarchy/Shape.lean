import JvmFrames.Proofs.Hierarchy.Tree

/-!
Reference types by their shape: arrays around the name of a class or around a base type. On shapes
the common superclass of a hierarchy is the nearest shared node of a tree.
-/

namespace JvmFrames

inductive Shape where
  | named (name : BinaryName)
  | ofBase (type : BaseType)
  | array (element : Shape)
  deriving DecidableEq

namespace Shape

def name : Shape → BinaryName
  | .named name => name
  | .ofBase type => ⟨"[" ++ (FieldType.base type).render⟩
  | .array element => ⟨"[" ++ (FieldType.reference element.name).render⟩

def lineage (classes : BinaryName → List BinaryName) : Shape → List Shape
  | .named name => (classes name).map .named
  | .ofBase type => [.ofBase type, .named .object]
  | .array element => (element.lineage classes).map .array ++ [.named .object]

variable {classes : BinaryName → List BinaryName}

theorem rooted (tree : Rooted classes .object) : Rooted (lineage classes) (.named .object) := by
  have top : lineage classes (.named .object) = [.named .object] :=
    congrArg (List.map named) tree.lineage_root
  refine ⟨fun shape => ?_⟩
  induction shape with
  | named name =>
      rcases tree.step name with ⟨same, alone⟩ | ⟨parent, more⟩
      · exact .inl ⟨congrArg _ same, congrArg (List.map named) alone⟩
      · exact .inr ⟨.named parent, congrArg (List.map named) more⟩
  | ofBase type => exact .inr ⟨.named .object, by rw [top, lineage]⟩
  | array element ih =>
      refine .inr ?_
      rcases ih with ⟨same, alone⟩ | ⟨parent, more⟩
      · refine ⟨.named .object, ?_⟩
        rw [top, lineage, alone, same]
        rfl
      · refine ⟨.array parent, ?_⟩
        rw [lineage, more]
        rfl

def join (classes : BinaryName → List BinaryName) (left right : Shape) : Shape :=
  nearest (lineage classes) (.named .object) left right

theorem join_named (tree : Rooted classes .object) (left right : BinaryName) :
    join classes (.named left) (.named right) = .named (nearest classes .object left right) := by
  apply (rooted tree).eq_of_lineage
  intro node
  rw [join, (rooted tree).mem_lineage_nearest]
  simp only [lineage, List.mem_map]
  constructor
  · rintro ⟨⟨name, onLeft, rfl⟩, ⟨other, onRight, same⟩⟩
    cases same
    exact ⟨name, tree.mem_lineage_nearest.mpr ⟨onLeft, onRight⟩, rfl⟩
  · rintro ⟨name, shared, rfl⟩
    have both := tree.mem_lineage_nearest.mp shared
    exact ⟨⟨name, both.1, rfl⟩, ⟨name, both.2, rfl⟩⟩

theorem join_array (tree : Rooted classes .object) (left right : Shape) :
    join classes (.array left) (.array right) = .array (join classes left right) := by
  apply (rooted tree).eq_of_lineage
  intro node
  rw [join, (rooted tree).mem_lineage_nearest]
  simp only [lineage, List.mem_append, List.mem_map, List.mem_singleton]
  constructor
  · rintro ⟨⟨shape, onLeft, rfl⟩ | rfl, onRight⟩
    · rcases onRight with ⟨other, onRight, same⟩ | same
      · cases same
        exact .inl ⟨shape, (rooted tree).mem_lineage_nearest.mpr ⟨onLeft, onRight⟩, rfl⟩
      · contradiction
    · exact .inr rfl
  · rintro (⟨shape, shared, rfl⟩ | rfl)
    · have both := (rooted tree).mem_lineage_nearest.mp shared
      exact ⟨.inl ⟨shape, both.1, rfl⟩, .inl ⟨shape, both.2, rfl⟩⟩
    · exact ⟨.inr rfl, .inr rfl⟩

def Apart : Shape → Shape → Prop
  | .named _, .named _ => False
  | .array _, .array _ => False
  | .ofBase left, .ofBase right => left ≠ right
  | _, _ => True

theorem join_of_apart (tree : Rooted classes .object) {left right : Shape}
    (apart : Apart left right) : join classes left right = .named .object := by
  have shared := (rooted tree).mem_lineage_nearest.mp
    ((rooted tree).self_mem (join classes left right))
  generalize join classes left right = node at shared
  obtain ⟨onLeft, onRight⟩ := shared
  cases left with
  | named name =>
      rw [lineage, List.mem_map] at onLeft
      obtain ⟨other, _, rfl⟩ := onLeft
      cases right with
      | named _ => contradiction
      | ofBase type => simpa [lineage] using onRight
      | array element => simpa [lineage] using onRight
  | ofBase type =>
      rw [lineage, List.mem_cons, List.mem_singleton] at onLeft
      rcases onLeft with rfl | top
      · cases right with
        | named _ => simp [lineage] at onRight
        | ofBase other =>
            have same : type = other := by simpa [lineage] using onRight
            exact absurd same apart
        | array element => simp [lineage] at onRight
      · exact top
  | array element =>
      rw [lineage, List.mem_append, List.mem_map, List.mem_singleton] at onLeft
      rcases onLeft with ⟨other, _, rfl⟩ | top
      · cases right with
        | named _ => simp [lineage] at onRight
        | ofBase type => simp [lineage] at onRight
        | array _ => contradiction
      · exact top

end Shape

namespace BinaryName

def shape (name : BinaryName) : Shape :=
  match _ : name.elementType? with
  | none => .named name
  | some (.base type) => .ofBase type
  | some (.reference element) => .array element.shape
termination_by name.text.length
decreasing_by exact elementType?_text_length (by assumption)

theorem shape_of_none {name : BinaryName} (noElement : name.elementType? = none) :
    name.shape = .named name := by
  unfold shape
  split <;> simp_all

theorem shape_of_base {name : BinaryName} {type : BaseType}
    (element : name.elementType? = some (.base type)) : name.shape = .ofBase type := by
  unfold shape
  split <;> simp_all

theorem shape_of_reference {name element : BinaryName}
    (found : name.elementType? = some (.reference element)) :
    name.shape = .array element.shape := by
  rw [shape]
  split <;> simp_all

/-- The name is the one that its shape is written as. Not every name is: an array may put its
element between the letters of a class name. -/
def Canonical (name : BinaryName) : Prop :=
  name.shape.name = name

theorem canonical_of_none {name : BinaryName} (noElement : name.elementType? = none) :
    name.Canonical := by
  rw [Canonical, shape_of_none noElement]
  rfl

theorem canonical_array {element : BinaryName} (readable : element.Readable)
    (canonical : element.Canonical) :
    Canonical ⟨"[" ++ (FieldType.reference element).render⟩ := by
  rw [Canonical, shape_of_reference (elementType?_array readable), Shape.name, canonical]

theorem eq_of_base {name : BinaryName} {type : BaseType}
    (element : name.elementType? = some (.base type)) :
    name = ⟨"[" ++ (FieldType.base type).render⟩ := by
  obtain ⟨text, found, grammar⟩ := elementType?_eq_some_iff.mp element
  have letter : text = [type.letter] := by
    generalize same : FieldType.base type = other at grammar
    cases grammar with
    | base _ =>
        cases same
        rfl
    | name _ _ => contradiction
    | array _ => contradiction
  rw [eq_ofList found, letter, ofList_bracket, ← String.singleton_eq_ofList]
  rfl

theorem canonical_of_base {name : BinaryName} {type : BaseType}
    (element : name.elementType? = some (.base type)) : name.Canonical := by
  rw [Canonical, shape_of_base element]
  exact (eq_of_base element).symm

theorem canonical_of_no_semicolon {text : List Char} {element : FieldType}
    (grammar : FieldText checkInner text element) (inside : ';' ∉ text) :
    Canonical ⟨String.ofList ('[' :: text)⟩ := by
  have found {text : List Char} {element : FieldType}
      (grammar : FieldText checkInner text element) :
      elementType? ⟨String.ofList ('[' :: text)⟩ = some element :=
    elementType?_eq_some_iff.mpr ⟨text, String.toList_ofList, grammar⟩
  induction grammar with
  | base type => exact canonical_of_base (found (.base type))
  | name _ _ => simp at inside
  | @array inner element grammar ih =>
      have canonical := ih fun member => inside (List.mem_cons_of_mem _ member)
      have readable := readable_of_elementType? (found (.array grammar))
      have array : isArray ⟨String.ofList ('[' :: inner)⟩ = true := by simp [isArray]
      have whole := canonical_array readable canonical
      rw [render_of_isArray array, ← ofList_bracket] at whole
      exact whole

/-- Two different arrays with one type of elements: only one name is written in the usual way, and
then the elements are arrays of base types. -/
theorem canonical_of_shared {left right element : BinaryName} (different : left ≠ right)
    (leftElement : left.elementType? = some (.reference element))
    (rightElement : right.elementType? = some (.reference element)) : element.Canonical := by
  obtain ⟨leftText, leftFound, leftGrammar⟩ := elementType?_eq_some_iff.mp leftElement
  obtain ⟨rightText, rightFound, rightGrammar⟩ := elementType?_eq_some_iff.mp rightElement
  have texts : leftText ≠ rightText := by
    rintro rfl
    exact different ((eq_ofList leftFound).trans (eq_ofList rightFound).symm)
  have baseTypes (array : element.isArray = true) (inside : ';' ∉ element.text.toList)
      (checked : checkInner element.text.toList = .ok ()) : element.Canonical := by
    obtain ⟨type, grammar⟩ := grammar_of_inner_array array inside checked
    obtain ⟨inner, found⟩ := isArray_iff.mp array
    rw [found] at grammar inside
    obtain ⟨_, innerElement, innerGrammar⟩ := grammar.eq_reference
    rw [eq_ofList found]
    exact canonical_of_no_semicolon innerGrammar fun member =>
      inside (List.mem_cons_of_mem _ member)
  rcases grammar_cases leftGrammar with ⟨leftName, inside, checked⟩ | ⟨leftSame, array⟩
  · rcases grammar_cases rightGrammar with ⟨rightName, _, _⟩ | ⟨_, array⟩
    · exact absurd (leftName.trans rightName.symm) texts
    · exact baseTypes array inside checked
  · rcases grammar_cases rightGrammar with ⟨_, inside, checked⟩ | ⟨rightSame, _⟩
    · exact baseTypes array inside checked
    · exact absurd (leftSame.trans rightSame.symm) texts

end BinaryName

end JvmFrames
