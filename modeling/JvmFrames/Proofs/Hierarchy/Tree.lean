import JvmFrames.Proofs.Descriptor.Readable
import JvmFrames.Proofs.Hierarchy.Lineage

/-!
Hierarchies that are trees: every class but the root has a superclass that is found under its name.
Interfaces and classes that are missing hang directly below the root of the tree. The common
superclass of two classes is the nearest node that their lineages share.
-/

namespace JvmFrames.Hierarchy

structure Tree (hierarchy : Hierarchy) : Prop where
  named : ∀ entry, hierarchy.lookup entry.name = some entry →
    BinaryName.ofString entry.name.text = .ok entry.name
  top : ∀ entry, hierarchy.lookup .object = some entry → entry.ancestors = []
  others : ∀ entry, hierarchy.lookup entry.name = some entry → entry.name ≠ .object →
    entry.name.isArray = false ∧ ∃ parent, hierarchy.lookup parent.name = some parent ∧
      parent.isInterface = false ∧ entry.ancestors = parent.chain

def HasClass (hierarchy : Hierarchy) (name : BinaryName) : Prop :=
  ∃ entry, hierarchy.lookup name = some entry ∧ entry.isInterface = false

def lineage (hierarchy : Hierarchy) (name : BinaryName) : List BinaryName :=
  if name = .object then
    [.object]
  else
    match hierarchy.lookup name with
    | some entry => if entry.isInterface then [name, .object] else entry.chain
    | none => [name, .object]

theorem name_of_lookup {hierarchy : Hierarchy} {name : BinaryName} {entry : ClassEntry}
    (found : hierarchy.lookup name = some entry) : entry.name = name := by
  simpa using List.find?_some found

/-- The classes in the list are enough to tell that a hierarchy is a tree. -/
theorem tree_of_classes {hierarchy : Hierarchy}
    (checked : ∀ entry ∈ hierarchy.classes,
      BinaryName.ofString entry.name.text = .ok entry.name ∧
        (entry.name = .object ∧ entry.ancestors = [] ∨
          entry.name ≠ .object ∧ entry.name.isArray = false ∧
            ∃ parent ∈ hierarchy.classes, hierarchy.lookup parent.name = some parent ∧
              parent.isInterface = false ∧ entry.ancestors = parent.chain)) :
    hierarchy.Tree := by
  refine ⟨?_, ?_, ?_⟩
  · intro entry found
    exact (checked entry (List.mem_of_find?_eq_some found)).1
  · intro entry found
    rcases (checked entry (List.mem_of_find?_eq_some found)).2 with ⟨_, alone⟩ | ⟨different, _⟩
    · exact alone
    · exact absurd (name_of_lookup found) different
  · intro entry found different
    rcases (checked entry (List.mem_of_find?_eq_some found)).2 with ⟨same, _⟩ | ⟨_, other⟩
    · exact absurd same different
    · obtain ⟨notArray, parent, _, held⟩ := other
      exact ⟨notArray, parent, held⟩

theorem lineage_object (hierarchy : Hierarchy) : hierarchy.lineage .object = [.object] :=
  if_pos rfl

theorem lineage_of_no_class {hierarchy : Hierarchy} {name : BinaryName} (different : name ≠ .object)
    (noClass : ¬ hierarchy.HasClass name) : hierarchy.lineage name = [name, .object] := by
  rw [lineage, if_neg different]
  split
  · rename_i entry found
    split
    · rfl
    · rename_i notInterface
      exact absurd ⟨entry, found, Bool.not_eq_true _ ▸ notInterface⟩ noClass
  · rfl

theorem commonClass?_of_no_class {hierarchy : Hierarchy} {left right : BinaryName}
    (noClass : ¬ (hierarchy.HasClass left ∧ hierarchy.HasClass right)) :
    (hierarchy.commonClass? left right).getD .object = .object := by
  unfold commonClass?
  split
  · rename_i leftEntry rightEntry leftFound rightFound
    have interface : (leftEntry.isInterface || rightEntry.isInterface) = true := by
      by_contra classes
      rw [Bool.not_eq_true, Bool.or_eq_false_iff] at classes
      exact noClass ⟨⟨leftEntry, leftFound, classes.1⟩, ⟨rightEntry, rightFound, classes.2⟩⟩
    rw [if_pos interface]
    rfl
  · rfl

namespace Tree

variable {hierarchy : Hierarchy}

theorem notArray (tree : hierarchy.Tree) {name : BinaryName}
    (held : name = .object ∨ hierarchy.HasClass name) : name.isArray = false := by
  rcases held with rfl | ⟨entry, found, _⟩
  · rfl
  · obtain rfl := name_of_lookup found
    by_cases top : entry.name = .object
    · rw [top]
      rfl
    · exact (tree.others entry found top).1

theorem readable (tree : hierarchy.Tree) {name : BinaryName}
    (held : name = .object ∨ hierarchy.HasClass name) : name.Readable := by
  rcases held with rfl | ⟨entry, found, _⟩
  · exact BinaryName.readable_object
  · obtain rfl := name_of_lookup found
    exact BinaryName.readable_of_ofString (tree.named entry found)

theorem lineage_of_class (tree : hierarchy.Tree) {name : BinaryName} {entry : ClassEntry}
    (found : hierarchy.lookup name = some entry) (notInterface : entry.isInterface = false) :
    hierarchy.lineage name = entry.chain := by
  by_cases top : name = .object
  · subst top
    rw [lineage_object, ClassEntry.chain, name_of_lookup found, tree.top entry found]
  · simp [lineage, top, found, notInterface]

theorem lineage_step (tree : hierarchy.Tree) (name : BinaryName) :
    name = .object ∧ hierarchy.lineage name = [.object] ∨
      ∃ parent, (parent = .object ∨ hierarchy.HasClass parent) ∧
        hierarchy.lineage name = name :: hierarchy.lineage parent := by
  by_cases top : name = .object
  · subst top
    exact .inl ⟨rfl, lineage_object hierarchy⟩
  · right
    by_cases isClass : hierarchy.HasClass name
    · obtain ⟨entry, found, notInterface⟩ := isClass
      have sameName := name_of_lookup found
      subst sameName
      obtain ⟨_, parent, parentFound, parentClass, chain⟩ := tree.others entry found top
      refine ⟨parent.name, .inr ⟨parent, parentFound, parentClass⟩, ?_⟩
      rw [tree.lineage_of_class found notInterface, tree.lineage_of_class parentFound parentClass,
        ClassEntry.chain, chain]
    · refine ⟨.object, .inl rfl, ?_⟩
      rw [lineage_of_no_class top isClass, lineage_object]

theorem rooted (tree : hierarchy.Tree) : Rooted hierarchy.lineage .object := by
  refine ⟨fun name => ?_⟩
  rcases tree.lineage_step name with top | ⟨parent, _, more⟩
  · exact .inl top
  · exact .inr ⟨parent, more⟩

theorem class_of_mem_lineage (tree : hierarchy.Tree) {name other : BinaryName}
    (above : other ∈ hierarchy.lineage name) (different : other ≠ name) :
    other = .object ∨ hierarchy.HasClass other := by
  induction length : (hierarchy.lineage name).length generalizing name with
  | zero => simp [List.length_eq_zero_iff.mp length] at above
  | succ number ih =>
      rcases tree.lineage_step name with ⟨same, alone⟩ | ⟨parent, held, more⟩
      · rw [alone, ← same] at above
        exact absurd (List.mem_singleton.mp above) different
      · rw [more, List.length_cons] at length
        rw [more] at above
        have further := (List.mem_cons.mp above).resolve_left different
        by_cases isParent : other = parent
        · subst isParent
          exact held
        · exact ih further isParent (by omega)

/-- What is no class shares with others no more than the root. -/
theorem nearest_of_no_class (tree : hierarchy.Tree) {left right : BinaryName}
    (different : left ≠ right) (noClass : ¬ hierarchy.HasClass left) :
    nearest hierarchy.lineage .object left right = .object := by
  have shared := tree.rooted.mem_lineage_nearest.mp
    (tree.rooted.self_mem (nearest hierarchy.lineage .object left right))
  by_cases top : left = .object
  · subst top
    rw [lineage_object] at shared
    exact List.mem_singleton.mp shared.1
  · rw [lineage_of_no_class top noClass] at shared
    rcases List.mem_cons.mp shared.1 with same | above
    · rw [same] at shared
      exact absurd (tree.class_of_mem_lineage shared.2 different) (not_or.mpr ⟨top, noClass⟩)
    · exact List.mem_singleton.mp above

theorem class_of_nearest (tree : hierarchy.Tree) {left right : BinaryName}
    (different : left ≠ right) :
    nearest hierarchy.lineage .object left right = .object ∨
      hierarchy.HasClass (nearest hierarchy.lineage .object left right) := by
  have shared := tree.rooted.mem_lineage_nearest.mp
    (tree.rooted.self_mem (nearest hierarchy.lineage .object left right))
  by_cases isLeft : nearest hierarchy.lineage .object left right = left
  · refine tree.class_of_mem_lineage shared.2 ?_
    rw [isLeft]
    exact different
  · exact tree.class_of_mem_lineage shared.1 isLeft

theorem commonClass?_getD (tree : hierarchy.Tree) {left right : BinaryName}
    (different : left ≠ right) : (hierarchy.commonClass? left right).getD .object =
      nearest hierarchy.lineage .object left right := by
  by_cases leftClass : hierarchy.HasClass left
  · by_cases rightClass : hierarchy.HasClass right
    · obtain ⟨leftEntry, leftFound, leftClass⟩ := leftClass
      obtain ⟨rightEntry, rightFound, rightClass⟩ := rightClass
      simp only [commonClass?, leftFound, rightFound, leftClass, rightClass, nearest,
        tree.lineage_of_class leftFound leftClass, tree.lineage_of_class rightFound rightClass]
      simp
    · rw [tree.rooted.nearest_comm, tree.nearest_of_no_class different.symm rightClass]
      exact commonClass?_of_no_class fun both => rightClass both.2
  · rw [tree.nearest_of_no_class different leftClass]
    exact commonClass?_of_no_class fun both => leftClass both.1

end Tree

end JvmFrames.Hierarchy
