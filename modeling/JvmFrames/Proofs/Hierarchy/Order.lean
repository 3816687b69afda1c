import JvmFrames.Proofs.Hierarchy.Grounded
import JvmFrames.Proofs.Hierarchy.Unite

/-!
The order on reference types, in which a type is below the types that cover it. The common
superclass of two types is their least upper bound, as long as an interface is below nothing but
itself and the root: a superclass that an interface has been given is not looked at.
-/

namespace JvmFrames.Hierarchy

open BinaryName

/-- The order in which the superclasses of those classes count that are followed. Arrays of
references are ordered as their elements are, however their names are written. -/
inductive Below (hierarchy : Hierarchy) (follows : ClassEntry → Bool) :
    BinaryName → BinaryName → Prop
  | refl (name) : Below hierarchy follows name name
  | root (name) : Below hierarchy follows name .object
  | super {name upper entry} : hierarchy.lookup name = some entry → follows entry = true →
      upper ∈ entry.chain → Below hierarchy follows name upper
  | array {name upper element upperElement} : name.elementType? = some (.reference element) →
      upper.elementType? = some (.reference upperElement) →
      Below hierarchy follows element upperElement → Below hierarchy follows name upper

abbrev BelowGiven (hierarchy : Hierarchy) : BinaryName → BinaryName → Prop :=
  Below hierarchy fun _ => true

/-- Only classes are followed: whatever superclass it has been given, an interface is directly below
the root. -/
abbrev BelowKnown (hierarchy : Hierarchy) : BinaryName → BinaryName → Prop :=
  Below hierarchy fun entry => !entry.isInterface

theorem eq_of_shape_named {name other : BinaryName} (same : name.shape = .named other) :
    name = other := by
  rcases found : name.elementType? with _ | type | element
  · rw [shape_of_none found] at same
    exact Shape.named.inj same
  · rw [shape_of_base found] at same
    contradiction
  · rw [shape_of_reference found] at same
    contradiction

theorem elementType?_of_shape_array {name : BinaryName} {shape : Shape}
    (same : name.shape = .array shape) :
    ∃ element, name.elementType? = some (.reference element) ∧ element.shape = shape := by
  rcases found : name.elementType? with _ | type | element
  · rw [shape_of_none found] at same
    contradiction
  · rw [shape_of_base found] at same
    contradiction
  · rw [shape_of_reference found] at same
    exact ⟨element, rfl, Shape.array.inj same⟩

theorem eq_of_shape_ofBase {name other : BinaryName} {type : BaseType}
    (element : other.elementType? = some (.base type)) (same : name.shape = .ofBase type) :
    name = other := by
  rcases found : name.elementType? with _ | otherType | nameElement
  · rw [shape_of_none found] at same
    contradiction
  · rw [shape_of_base found] at same
    obtain rfl := Shape.ofBase.inj same
    rw [eq_of_base found, eq_of_base element]
  · rw [shape_of_reference found] at same
    contradiction

variable {hierarchy : Hierarchy}

namespace Tree

theorem shape_of_held (tree : hierarchy.Tree) {name : BinaryName}
    (held : name = .object ∨ hierarchy.HasClass name) : name.shape = .named name :=
  shape_of_none (elementType?_of_not_isArray (tree.notArray held))

theorem mem_lineage_of_below (tree : hierarchy.Tree) {name upper : BinaryName}
    (below : hierarchy.BelowKnown name upper) :
    upper.shape ∈ name.shape.lineage hierarchy.lineage := by
  have rooted := Shape.rooted tree.rooted
  induction below with
  | refl name => exact rooted.self_mem name.shape
  | root name =>
      rw [shape_object]
      exact rooted.root_mem name.shape
  | @super name upper entry found followed above =>
      have notInterface : entry.isInterface = false := by simpa using followed
      have hasClass : hierarchy.HasClass name := ⟨entry, found, notInterface⟩
      have inLineage : upper ∈ hierarchy.lineage name := by
        rw [tree.lineage_of_class found notInterface]
        exact above
      have upperHeld : upper = .object ∨ hierarchy.HasClass upper := by
        by_cases same : upper = name
        · rw [same]
          exact .inr hasClass
        · exact tree.class_of_mem_lineage inLineage same
      rw [tree.shape_of_held (.inr hasClass), tree.shape_of_held upperHeld]
      exact List.mem_map_of_mem inLineage
  | array element upperElement _ ih =>
      rw [shape_of_reference element, shape_of_reference upperElement]
      exact List.mem_append_left _ (List.mem_map_of_mem ih)

theorem below_of_mem_lineage (tree : hierarchy.Tree) {name upper : BinaryName}
    (above : upper ∈ hierarchy.lineage name) : hierarchy.BelowKnown name upper := by
  by_cases hasClass : hierarchy.HasClass name
  · obtain ⟨entry, found, notInterface⟩ := hasClass
    rw [tree.lineage_of_class found notInterface] at above
    exact .super found (by simp [notInterface]) above
  · by_cases top : name = .object
    · subst top
      rw [lineage_object] at above
      rw [List.mem_singleton.mp above]
      exact .refl .object
    · rw [lineage_of_no_class top hasClass] at above
      rcases List.mem_cons.mp above with rfl | root
      · exact .refl upper
      · rw [List.mem_singleton.mp root]
        exact .root name

theorem below_of_shape (tree : hierarchy.Tree) {name upper : BinaryName}
    (above : upper.shape ∈ name.shape.lineage hierarchy.lineage) :
    hierarchy.BelowKnown name upper := by
  -- The elements of an array have a shorter name than the array.
  induction length : name.text.length using Nat.strongRecOn generalizing name upper with
  | ind number ih =>
      subst length
      rcases found : name.elementType? with _ | type | element
      · rw [shape_of_none found, Shape.lineage, List.mem_map] at above
        obtain ⟨other, otherAbove, same⟩ := above
        rw [eq_of_shape_named same.symm]
        exact tree.below_of_mem_lineage otherAbove
      · rw [shape_of_base found, Shape.lineage, List.mem_cons, List.mem_singleton] at above
        rcases above with same | top
        · rw [eq_of_shape_ofBase found same]
          exact .refl name
        · rw [eq_of_shape_named top]
          exact .root name
      · rw [shape_of_reference found, Shape.lineage, List.mem_append, List.mem_map,
          List.mem_singleton] at above
        rcases above with ⟨shape, shapeAbove, same⟩ | top
        · obtain ⟨upperElement, upperFound, rfl⟩ := elementType?_of_shape_array same.symm
          exact .array found upperFound
            (ih _ (elementType?_text_length found) shapeAbove rfl)
        · rw [eq_of_shape_named top]
          exact .root name

theorem below_iff (tree : hierarchy.Tree) {name upper : BinaryName} :
    hierarchy.BelowKnown name upper ↔ upper.shape ∈ name.shape.lineage hierarchy.lineage :=
  ⟨tree.mem_lineage_of_below, tree.below_of_shape⟩

theorem below_trans (tree : hierarchy.Tree) {name middle upper : BinaryName}
    (first : hierarchy.BelowKnown name middle) (second : hierarchy.BelowKnown middle upper) :
    hierarchy.BelowKnown name upper := by
  rw [tree.below_iff] at first second ⊢
  exact (Shape.rooted tree.rooted).above_trans first second

end Tree

/-- In any tree, the common superclass of two reference types is above both and below everything
that is above both, whichever of the two comes first. -/
theorem commonSuperclass?_least {hierarchy : Hierarchy} (tree : hierarchy.Tree)
    (left right : BinaryName) :
    let common := (hierarchy.commonSuperclass? left right).getD .object
    hierarchy.BelowKnown left common ∧ hierarchy.BelowKnown right common ∧
      (∀ upper, hierarchy.BelowKnown left upper → hierarchy.BelowKnown right upper →
        hierarchy.BelowKnown common upper) ∧
      (hierarchy.commonSuperclass? right left).getD .object = common := by
  intro common
  have shape : common.shape = Shape.join hierarchy.lineage left.shape right.shape :=
    shape_unite tree left right
  have above (node : Shape) : node ∈ common.shape.lineage hierarchy.lineage ↔
      node ∈ left.shape.lineage hierarchy.lineage ∧
        node ∈ right.shape.lineage hierarchy.lineage := by
    rw [shape]
    exact (Shape.rooted tree.rooted).mem_lineage_nearest
  have self := (above common.shape).mp ((Shape.rooted tree.rooted).self_mem common.shape)
  refine ⟨tree.below_iff.mpr self.1, tree.below_iff.mpr self.2, ?_, unite_comm tree right left⟩
  intro upper leftBelow rightBelow
  exact tree.below_iff.mpr
    ((above upper.shape).mpr ⟨tree.below_iff.mp leftBelow, tree.below_iff.mp rightBelow⟩)

def drawing : Hierarchy :=
  library.declareAll
    [(⟨"Shape"⟩, .object, .ofClass), (⟨"Circle"⟩, ⟨"Shape"⟩, .ofClass),
      (⟨"Square"⟩, ⟨"Shape"⟩, .ofClass), (⟨"Drawable"⟩, ⟨"Shape"⟩, .ofInterface)]

theorem tree_drawing : drawing.Tree :=
  tree_of_classes (by decide +kernel)

/-- Two arrays of two dimensions, whose elements are shapes of different classes. -/
theorem commonSuperclass?_least_arrays :
    drawing.Tree ∧
      drawing.commonSuperclass? ⟨"[[LCircle;"⟩ ⟨"[[LSquare;"⟩ = some ⟨"[[LShape;"⟩ ∧
      drawing.BelowKnown ⟨"[[LCircle;"⟩ ⟨"[[LShape;"⟩ ∧
      drawing.BelowKnown ⟨"[[LSquare;"⟩ ⟨"[[LShape;"⟩ ∧
      ∀ upper, drawing.BelowKnown ⟨"[[LCircle;"⟩ upper →
        drawing.BelowKnown ⟨"[[LSquare;"⟩ upper → drawing.BelowKnown ⟨"[[LShape;"⟩ upper := by
  have common : drawing.commonSuperclass? ⟨"[[LCircle;"⟩ ⟨"[[LSquare;"⟩ = some ⟨"[[LShape;"⟩ := by
    decide +kernel
  have least := commonSuperclass?_least tree_drawing ⟨"[[LCircle;"⟩ ⟨"[[LSquare;"⟩
  rw [common] at least
  exact ⟨tree_drawing, common, least.1, least.2.1, least.2.2.1⟩

/-- The superclass that an interface has been given is above it and a class below it, and still the
two share no more than the root. -/
theorem commonSuperclass?_not_least_interface :
    drawing.Tree ∧ BinaryName.ofString "Drawable" = .ok ⟨"Drawable"⟩ ∧
      BinaryName.ofString "Circle" = .ok ⟨"Circle"⟩ ∧
      drawing.BelowGiven ⟨"Drawable"⟩ ⟨"Shape"⟩ ∧ drawing.BelowGiven ⟨"Circle"⟩ ⟨"Shape"⟩ ∧
      drawing.commonSuperclass? ⟨"Drawable"⟩ ⟨"Circle"⟩ = some .object ∧
      ¬ drawing.BelowGiven .object ⟨"Shape"⟩ := by
  refine ⟨tree_drawing, by decide, by decide, ?_, ?_, by decide +kernel, ?_⟩
  · have held : drawing.lookup ⟨"Drawable"⟩ =
        some ⟨⟨"Drawable"⟩, [⟨"Shape"⟩, .object], .ofInterface⟩ := by decide +kernel
    exact .super held rfl (by decide)
  · have held : drawing.lookup ⟨"Circle"⟩ =
        some ⟨⟨"Circle"⟩, [⟨"Shape"⟩, .object], .ofClass⟩ := by decide +kernel
    exact .super held rfl (by decide)
  · intro below
    generalize object : BinaryName.object = name at below
    generalize shape : (⟨"Shape"⟩ : BinaryName) = upper at below
    cases below with
    | refl _ => simp [← object, BinaryName.object] at shape
    | root _ => simp [BinaryName.object] at shape
    | super found _ above =>
        subst object shape
        have root : drawing.lookup .object = some .root := by decide +kernel
        rw [root] at found
        cases found
        revert above
        decide
    | array element _ _ =>
        subst object
        rw [elementType?_of_not_isArray rfl] at element
        contradiction

end JvmFrames.Hierarchy
