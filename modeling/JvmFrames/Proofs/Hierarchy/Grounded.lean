import JvmFrames.Hierarchy.Library
import JvmFrames.Proofs.Hierarchy.Tree

/-!
Hierarchies on the ground of the library types. They are trees.
-/

namespace JvmFrames

namespace ClassEntry

def root : ClassEntry := make .object none .ofClass

end ClassEntry

namespace Hierarchy

structure Grounded (hierarchy : Hierarchy) : Prop where
  held : ∀ entry ∈ library.classes, hierarchy.lookup entry.name = some entry
  named : ∀ entry, hierarchy.lookup entry.name = some entry →
    BinaryName.ofString entry.name.text = .ok entry.name
  others : ∀ entry, hierarchy.lookup entry.name = some entry → entry ∉ library.classes →
    entry.name.isArray = false ∧ ∃ parent, hierarchy.lookup parent.name = some parent ∧
      parent.isInterface = false ∧ entry.ancestors = parent.chain

theorem library_grounded : ∀ entry ∈ library.classes, entry.name.isArray = false ∧
    (entry = .root ∨ ∃ parent ∈ library.classes, parent.isInterface = false ∧
      entry.ancestors = parent.chain) := by
  decide +kernel

theorem root_mem_library : ClassEntry.root ∈ library.classes := by
  decide +kernel

theorem grounded_library : library.Grounded where
  held := by decide +kernel
  named := by
    intro entry found
    have valid : ∀ entry ∈ library.classes,
        BinaryName.ofString entry.name.text = .ok entry.name := by
      decide +kernel
    exact valid entry (List.mem_of_find?_eq_some found)
  others := by
    intro entry found missing
    exact absurd (List.mem_of_find?_eq_some found) missing

theorem Grounded.tree {hierarchy : Hierarchy} (grounded : hierarchy.Grounded) : hierarchy.Tree where
  named := grounded.named
  top := by
    intro entry found
    have held : hierarchy.lookup .object = some .root := grounded.held .root root_mem_library
    rw [found] at held
    rw [Option.some.inj held]
    rfl
  others := by
    intro entry found different
    by_cases inLibrary : entry ∈ library.classes
    · obtain ⟨notArray, root | ⟨parent, member, notInterface, chain⟩⟩ :=
        library_grounded entry inLibrary
      · rw [root] at different
        exact absurd rfl different
      · exact ⟨notArray, parent, grounded.held parent member, notInterface, chain⟩
    · exact grounded.others entry found inLibrary

end Hierarchy

end JvmFrames
