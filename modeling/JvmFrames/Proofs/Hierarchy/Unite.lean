import JvmFrames.Proofs.Hierarchy.Shape

/-!
The class that covers two reference types. Its shape is the join of the two shapes, and it is
written in the usual way unless the two types are one; so uniting several types does not depend on
the order.
-/

namespace JvmFrames.Hierarchy

open BinaryName

def unite (hierarchy : Hierarchy) (left right : BinaryName) : BinaryName :=
  (hierarchy.commonSuperclass? left right).getD .object

variable {hierarchy : Hierarchy}

theorem unite_self (name : BinaryName) : hierarchy.unite name name = name := by
  rw [unite, commonSuperclass?, if_pos rfl]
  rfl

/-- The ways to a common superclass. -/
theorem unite_induction {motive : BinaryName → BinaryName → BinaryName → Prop}
    (same : ∀ name, motive name name name)
    (arrays : ∀ left right leftElement rightElement, left ≠ right →
      left.elementType? = some (.reference leftElement) →
      right.elementType? = some (.reference rightElement) →
      motive leftElement rightElement (hierarchy.unite leftElement rightElement) →
      motive left right
        ⟨"[" ++ (FieldType.reference (hierarchy.unite leftElement rightElement)).render⟩)
    (classes : ∀ left right, left ≠ right → left.elementType? = none → right.elementType? = none →
      motive left right ((hierarchy.commonClass? left right).getD .object))
    (mixed : ∀ left right, left ≠ right →
      (∀ leftElement rightElement, left.elementType? = some (.reference leftElement) →
        right.elementType? ≠ some (.reference rightElement)) →
      (left.elementType? = none → right.elementType? ≠ none) → motive left right .object)
    (left right : BinaryName) : motive left right (hierarchy.unite left right) := by
  induction length : left.text.length using Nat.strongRecOn generalizing left right with
  | ind number ih =>
      subst length
      rw [unite, commonSuperclass?]
      by_cases equal : left = right
      · subst equal
        rw [if_pos rfl]
        exact same left
      · rw [if_neg equal]
        split
        · rename_i leftElement rightElement leftFound rightFound
          exact arrays left right leftElement rightElement equal leftFound rightFound
            (ih _ (elementType?_text_length leftFound) leftElement rightElement rfl)
        · rename_i leftFound rightFound
          exact classes left right equal leftFound rightFound
        · rename_i notReferences notClasses
          refine mixed left right equal ?_ ?_
          · intro leftElement rightElement leftFound rightFound
            exact notReferences leftElement rightElement leftFound rightFound
          · intro leftFound rightFound
            exact notClasses leftFound rightFound

theorem readable_unite (tree : hierarchy.Tree) {left right : BinaryName}
    (readable : left.Readable) : (hierarchy.unite left right).Readable := by
  refine unite_induction (motive := fun left _ united => left.Readable → united.Readable)
    ?_ ?_ ?_ ?_ left right readable
  · exact fun _ readable => readable
  · intro left _ leftElement _ _ leftFound _ ih _
    exact readable_array (ih (readable_of_elementType? leftFound))
  · intro left right different _ _ _
    rw [tree.commonClass?_getD different]
    exact tree.readable (tree.class_of_nearest different)
  · intro _ _ _ _ _ _
    exact readable_object

theorem elementType?_of_not_isArray {name : BinaryName} (notArray : name.isArray = false) :
    name.elementType? = none := by
  cases found : name.elementType? with
  | none => rfl
  | some element =>
      obtain ⟨text, whole, _⟩ := elementType?_eq_some_iff.mp found
      rw [isArray_iff.mpr ⟨text, whole⟩] at notArray
      contradiction

theorem elementType?_commonClass (tree : hierarchy.Tree) {left right : BinaryName}
    (different : left ≠ right) :
    ((hierarchy.commonClass? left right).getD .object).elementType? = none := by
  rw [tree.commonClass?_getD different]
  exact elementType?_of_not_isArray (tree.notArray (tree.class_of_nearest different))

theorem shape_object : object.shape = .named .object :=
  shape_of_none (elementType?_of_not_isArray rfl)

theorem canonical_unite (tree : hierarchy.Tree) {left right : BinaryName}
    (different : left ≠ right) : (hierarchy.unite left right).Canonical := by
  refine unite_induction (motive := fun left right united => left ≠ right → united.Canonical)
    ?_ ?_ ?_ ?_ left right different
  · intro name different
    exact absurd rfl different
  · intro left right leftElement rightElement different leftFound rightFound ih _
    have readable := readable_of_elementType? leftFound
    refine canonical_array (readable_unite tree readable) ?_
    by_cases same : leftElement = rightElement
    -- Two names of arrays with the same elements: this happens to arrays of base types only.
    · subst same
      rw [unite_self]
      exact canonical_of_shared different leftFound rightFound
    · exact ih same
  · intro left right different _ _ _
    exact canonical_of_none (elementType?_commonClass tree different)
  · intro _ _ _ _ _ _
    exact canonical_of_none (elementType?_of_not_isArray rfl)

theorem apart_shape {left right : BinaryName} (different : left ≠ right)
    (notReferences : ∀ leftElement rightElement,
      left.elementType? = some (.reference leftElement) →
        right.elementType? ≠ some (.reference rightElement))
    (notClasses : left.elementType? = none → right.elementType? ≠ none) :
    Shape.Apart left.shape right.shape := by
  rcases leftFound : left.elementType? with _ | leftType | leftElement
  · rw [shape_of_none leftFound]
    rcases rightFound : right.elementType? with _ | rightType | rightElement
    · exact absurd rightFound (notClasses leftFound)
    · rw [shape_of_base rightFound]
      trivial
    · rw [shape_of_reference rightFound]
      trivial
  · rw [shape_of_base leftFound]
    rcases rightFound : right.elementType? with _ | rightType | rightElement
    · rw [shape_of_none rightFound]
      trivial
    · rw [shape_of_base rightFound]
      rintro rfl
      exact different ((eq_of_base leftFound).trans (eq_of_base rightFound).symm)
    · rw [shape_of_reference rightFound]
      trivial
  · rw [shape_of_reference leftFound]
    rcases rightFound : right.elementType? with _ | rightType | rightElement
    · rw [shape_of_none rightFound]
      trivial
    · rw [shape_of_base rightFound]
      trivial
    · exact absurd rightFound (notReferences leftElement rightElement leftFound)

/-- On shapes the common superclass is the join. -/
theorem shape_unite (tree : hierarchy.Tree) (left right : BinaryName) :
    (hierarchy.unite left right).shape =
      Shape.join hierarchy.lineage left.shape right.shape := by
  refine unite_induction (motive := fun left right united =>
    united.shape = Shape.join hierarchy.lineage left.shape right.shape) ?_ ?_ ?_ ?_ left right
  · intro name
    exact ((Shape.rooted tree.rooted).nearest_self name.shape).symm
  · intro left right leftElement rightElement different leftFound rightFound ih
    have readable := readable_of_elementType? leftFound
    rw [shape_of_reference (elementType?_array (readable_unite tree readable)), ih,
      shape_of_reference leftFound, shape_of_reference rightFound,
      Shape.join_array tree.rooted]
  · intro left right different leftFound rightFound
    rw [shape_of_none (elementType?_commonClass tree different),
      tree.commonClass?_getD different, shape_of_none leftFound, shape_of_none rightFound,
      Shape.join_named tree.rooted]
  · intro left right different notReferences notClasses
    rw [shape_object, Shape.join_of_apart tree.rooted]
    exact apart_shape different notReferences notClasses

theorem unite_unite_canonical (tree : hierarchy.Tree) {first second third : BinaryName}
    (different : ¬ (first = second ∧ first = third)) :
    (hierarchy.unite (hierarchy.unite first second) third).Canonical := by
  by_cases last : hierarchy.unite first second = third
  · rw [last, unite_self]
    by_cases same : first = second
    · subst same
      rw [unite_self] at last
      exact absurd ⟨rfl, last⟩ different
    · rw [← last]
      exact canonical_unite tree same
  · exact canonical_unite tree last

theorem unite_comm (tree : hierarchy.Tree) (left right : BinaryName) :
    hierarchy.unite left right = hierarchy.unite right left := by
  by_cases same : left = right
  · rw [same]
  · have shapes : (hierarchy.unite left right).shape = (hierarchy.unite right left).shape := by
      rw [shape_unite tree, shape_unite tree]
      exact (Shape.rooted tree.rooted).nearest_comm _ _
    rw [← canonical_unite tree same, ← canonical_unite tree (Ne.symm same), shapes]

theorem unite_right_comm (tree : hierarchy.Tree) (first second third : BinaryName) :
    hierarchy.unite (hierarchy.unite first second) third =
      hierarchy.unite (hierarchy.unite first third) second := by
  by_cases same : first = second ∧ first = third
  · obtain ⟨rfl, rfl⟩ := same
    rfl
  · have swapped : ¬ (first = third ∧ first = second) := fun both => same both.symm
    have shapes : (hierarchy.unite (hierarchy.unite first second) third).shape =
        (hierarchy.unite (hierarchy.unite first third) second).shape := by
      simp only [shape_unite tree]
      exact (Shape.rooted tree.rooted).nearest_right_comm _ _ _
    rw [← unite_unite_canonical tree same, ← unite_unite_canonical tree swapped, shapes]

end JvmFrames.Hierarchy
