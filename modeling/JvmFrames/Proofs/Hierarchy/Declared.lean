import JvmFrames.CommandLine
import JvmFrames.Proofs.Hierarchy.Grounded
import JvmFrames.Proofs.Hierarchy.Unite

/-!
Hierarchies that are declared class by class. Each class sits on one that was there before it, so
all chains end at the root and stay among the known classes. A class merged with a class above it
gives the upper one, unless the name of one of them is that of an array: such a name may be declared
too, but is looked at as an array when types are merged.
-/

namespace JvmFrames.Hierarchy

open BinaryName

structure Layered (hierarchy : Hierarchy) : Prop where
  root : hierarchy.lookup .object = some .root
  valid : ∀ {name entry}, hierarchy.lookup name = some entry → ofString name.text = .ok name
  step : ∀ {name entry}, hierarchy.lookup name = some entry → entry = .root ∨
    ∃ parent, hierarchy.lookup parent.name = some parent ∧ parent.isInterface = false ∧
      entry.ancestors = parent.chain ∧ entry.name ∉ parent.chain
  onRoot : ∀ {name entry}, hierarchy.lookup name = some entry → entry.isInterface = true →
    entry.ancestors = [.object]

theorem library_layers : ∀ entry ∈ library.classes, entry.name ∉ entry.ancestors ∧
    (entry.isInterface = true → entry.ancestors = [.object]) := by
  decide +kernel

theorem layered_library : library.Layered where
  root := grounded_library.held .root root_mem_library
  valid found := by
    have valid := grounded_library.named _ ((name_of_lookup found).symm ▸ found)
    rwa [name_of_lookup found] at valid
  step found := by
    have member := List.mem_of_find?_eq_some found
    obtain ⟨_, root | ⟨parent, held, isClass, sits⟩⟩ := library_grounded _ member
    · exact .inl root
    · exact .inr ⟨parent, grounded_library.held parent held, isClass, sits,
        sits ▸ (library_layers _ member).1⟩
  onRoot found := (library_layers _ (List.mem_of_find?_eq_some found)).2

theorem lookup_insert_of_some {hierarchy : Hierarchy} {name : BinaryName} {entry : ClassEntry}
    (found : hierarchy.lookup name = some entry) (added : ClassEntry) :
    (hierarchy.insert added).lookup name = some entry := by
  rw [lookup_insert, found]
  rfl

theorem lookup_insert_cases {hierarchy : Hierarchy} {name : BinaryName} {added entry : ClassEntry}
    (found : (hierarchy.insert added).lookup name = some entry) :
    hierarchy.lookup name = some entry ∨ added.name = name ∧ added = entry := by
  rw [lookup_insert, Option.or_eq_some_iff] at found
  rcases found with earlier | ⟨_, new⟩
  · exact .inl earlier
  · split at new
    · rename_i here
      exact .inr ⟨here, Option.some.inj new⟩
    · contradiction

namespace Layered

variable {hierarchy : Hierarchy}

/-- What holds of the root, and of each class that sits on one of which it holds, holds of every
class. -/
theorem induction (layered : hierarchy.Layered) {motive : ClassEntry → Prop} (root : motive .root)
    (step : ∀ entry parent, hierarchy.lookup parent.name = some parent →
      parent.isInterface = false → entry.ancestors = parent.chain → entry.name ∉ parent.chain →
      motive parent → motive entry)
    {name : BinaryName} {entry : ClassEntry} (found : hierarchy.lookup name = some entry) :
    motive entry := by
  induction length : entry.ancestors.length generalizing name entry with
  | zero =>
      rcases layered.step found with rfl | ⟨parent, _, _, sits, _⟩
      · exact root
      · simp [sits, ClassEntry.chain] at length
  | succ number ih =>
      rcases layered.step found with rfl | ⟨parent, held, isClass, sits, apart⟩
      · exact root
      · rw [sits, ClassEntry.chain, List.length_cons, Nat.succ.injEq] at length
        exact step entry parent held isClass sits apart (ih held length)

theorem nodup_chain (layered : hierarchy.Layered) {name : BinaryName} {entry : ClassEntry}
    (found : hierarchy.lookup name = some entry) : entry.chain.Nodup := by
  refine layered.induction (motive := fun entry => entry.chain.Nodup) ?_ ?_ found
  · simp [ClassEntry.chain, ClassEntry.root, ClassEntry.make]
  · intro entry parent _ _ sits apart ih
    rw [ClassEntry.chain, sits]
    exact List.nodup_cons.mpr ⟨apart, ih⟩

theorem getLast?_chain (layered : hierarchy.Layered) {name : BinaryName} {entry : ClassEntry}
    (found : hierarchy.lookup name = some entry) : entry.chain.getLast? = some .object := by
  refine layered.induction (motive := fun entry => entry.chain.getLast? = some .object) rfl ?_ found
  intro entry parent _ _ sits _ ih
  rw [ClassEntry.chain, sits, List.getLast?_cons, ih]
  rfl

/-- Every name above a class is that of a known class, whose own chain is the rest of the chain. -/
theorem held_above (layered : hierarchy.Layered) {name : BinaryName} {entry : ClassEntry}
    (found : hierarchy.lookup name = some entry) : ∀ upper ∈ entry.ancestors,
      ∃ parent, hierarchy.lookup upper = some parent ∧ parent.isInterface = false ∧
        parent.chain <:+ entry.ancestors := by
  refine layered.induction (motive := fun entry => ∀ upper ∈ entry.ancestors, ∃ parent,
    hierarchy.lookup upper = some parent ∧ parent.isInterface = false ∧
      parent.chain <:+ entry.ancestors) ?_ ?_ found
  · intro upper member
    contradiction
  intro entry parent held isClass sits _ ih upper member
  rw [sits] at member ⊢
  rcases List.mem_cons.mp member with rfl | further
  · exact ⟨parent, held, isClass, List.suffix_rfl⟩
  · obtain ⟨top, topHeld, topClass, rest⟩ := ih upper further
    exact ⟨top, topHeld, topClass, rest.trans (List.suffix_cons _ _)⟩

theorem held_chain (layered : hierarchy.Layered) {name upper : BinaryName} {entry : ClassEntry}
    (found : hierarchy.lookup name = some entry) (above : upper ∈ entry.chain) :
    (hierarchy.lookup upper).isSome := by
  rcases List.mem_cons.mp above with rfl | further
  · rw [name_of_lookup found, found]
    rfl
  · obtain ⟨parent, held, _⟩ := layered.held_above found upper further
    rw [held]
    rfl

/-- A class with a new name may be put on any class, and an interface on the root. -/
theorem insert (layered : hierarchy.Layered) {name : BinaryName} {parent : ClassEntry}
    {flags : AccessFlags} (valid : ofString name.text = .ok name)
    (absent : (hierarchy.lookup name).isSome = false)
    (held : hierarchy.lookup parent.name = some parent) (isClass : parent.isInterface = false)
    (onRoot : flags.isInterface = true → parent = .root) :
    (hierarchy.insert (ClassEntry.make name (some parent) flags)).Layered where
  root := lookup_insert_of_some layered.root _
  valid found := by
    rcases lookup_insert_cases found with earlier | ⟨rfl, rfl⟩
    · exact layered.valid earlier
    · exact valid
  step found := by
    rcases lookup_insert_cases found with earlier | ⟨rfl, rfl⟩
    · rcases layered.step earlier with root | ⟨below, belowHeld, rest⟩
      · exact .inl root
      · exact .inr ⟨below, lookup_insert_of_some belowHeld _, rest⟩
    · refine .inr ⟨parent, lookup_insert_of_some held _, isClass, rfl, ?_⟩
      intro above
      have known := layered.held_chain held above
      exact absurd (absent.symm.trans known) Bool.false_ne_true
  onRoot found := by
    rcases lookup_insert_cases found with earlier | ⟨rfl, rfl⟩
    · exact layered.onRoot earlier
    · intro interface
      rw [onRoot interface]
      rfl

end Layered

theorem valid_of_declaredName {text : String} {name : BinaryName}
    (accepted : declaredName text = .ok name) : ofString name.text = .ok name := by
  unfold declaredName at accepted
  split at accepted
  · rename_i found valid
    obtain rfl := Except.ok.inj accepted
    obtain ⟨checked, rfl⟩ := ofString_eq_ok_iff.mp valid
    exact valid
  · contradiction

theorem exists_of_bind_eq_ok {ε α β : Type} {first : Except ε α} {next : α → Except ε β}
    {result : β} (success : first >>= next = .ok result) :
    ∃ value, first = .ok value ∧ next value = .ok result := by
  cases first with
  | error fault => contradiction
  | ok value => exact ⟨value, rfl, success⟩

theorem Layered.declareInterface {hierarchy grown : Hierarchy} {declaration : String}
    (layered : hierarchy.Layered) (accepted : hierarchy.declareInterface declaration = .ok grown) :
    grown.Layered := by
  obtain ⟨name, named, accepted⟩ := exists_of_bind_eq_ok accepted
  split at accepted
  · contradiction
  · rename_i absent
    obtain rfl := Except.ok.inj accepted
    rw [declare, layered.root]
    exact layered.insert (valid_of_declaredName named) (Bool.not_eq_true _ ▸ absent)
      layered.root rfl fun _ => rfl

theorem Layered.declareClass {hierarchy grown : Hierarchy} {declaration : String}
    (layered : hierarchy.Layered) (accepted : hierarchy.declareClass declaration = .ok grown) :
    grown.Layered := by
  obtain ⟨texts, _, accepted⟩ := exists_of_bind_eq_ok accepted
  obtain ⟨name, named, accepted⟩ := exists_of_bind_eq_ok accepted
  obtain ⟨superclassName, _, accepted⟩ := exists_of_bind_eq_ok accepted
  split at accepted
  · contradiction
  · rename_i absent
    split at accepted
    · contradiction
    · rename_i superclass held
      split at accepted
      · contradiction
      · rename_i isClass
        obtain rfl := Except.ok.inj accepted
        exact layered.insert (valid_of_declaredName named) (Bool.not_eq_true _ ▸ absent)
          ((name_of_lookup held).symm ▸ held) (Bool.not_eq_true _ ▸ isClass)
          (by simp [AccessFlags.ofClass])

theorem Layered.foldlM {declare : Hierarchy → String → Except ArgumentFault Hierarchy}
    (step : ∀ {hierarchy declaration grown}, hierarchy.Layered →
      declare hierarchy declaration = .ok grown → grown.Layered)
    {declarations : List String} {hierarchy grown : Hierarchy} (layered : hierarchy.Layered)
    (accepted : declarations.foldlM declare hierarchy = .ok grown) : grown.Layered := by
  induction declarations generalizing hierarchy with
  | nil =>
      obtain rfl := Except.ok.inj accepted
      exact layered
  | cons declaration rest ih =>
      rw [List.foldlM_cons] at accepted
      obtain ⟨next, declared, accepted⟩ := exists_of_bind_eq_ok accepted
      exact ih (step layered declared) accepted

theorem layered_ofDeclarations {interfaces classes : List String} {hierarchy : Hierarchy}
    (accepted : ofDeclarations interfaces classes = .ok hierarchy) : hierarchy.Layered := by
  obtain ⟨withInterfaces, declared, accepted⟩ := exists_of_bind_eq_ok accepted
  exact (layered_library.foldlM Layered.declareInterface declared).foldlM Layered.declareClass
    accepted

def ArraysMeet (hierarchy : Hierarchy) (left right common : BinaryName) : Prop :=
  ∃ leftElement rightElement, left.elementType? = some (.reference leftElement) ∧
    right.elementType? = some (.reference rightElement) ∧
    .reference common = FieldType.array
      (.reference ((hierarchy.commonSuperclass? leftElement rightElement).getD .object))

theorem commonSuperclass?_of_no_elements {hierarchy : Hierarchy} {left right : BinaryName}
    (different : left ≠ right) (leftNone : left.elementType? = none)
    (rightNone : right.elementType? = none) :
    hierarchy.commonSuperclass? left right = hierarchy.commonClass? left right := by
  rw [commonSuperclass?, if_neg different]
  split
  · simp_all
  · rfl
  · simp_all

theorem commonSuperclass?_of_array {hierarchy : Hierarchy} {left right common : BinaryName}
    (different : left ≠ right) (notRoot : common ≠ .object)
    (array : left.elementType?.isSome = true ∨ right.elementType?.isSome = true) :
    hierarchy.commonSuperclass? left right = some common ↔
      hierarchy.ArraysMeet left right common := by
  rw [commonSuperclass?, if_neg different]
  split
  · rename_i leftElement rightElement leftFound rightFound
    simp [ArraysMeet, leftFound, rightFound, FieldType.array, eq_comm]
  · rename_i leftFound rightFound
    simp [leftFound, rightFound] at array
  · rename_i apart _
    refine iff_of_false ?_ ?_
    · exact fun same => notRoot (Option.some.inj same).symm
    · rintro ⟨leftElement, rightElement, leftFound, rightFound, _⟩
      exact apart leftElement rightElement leftFound rightFound

theorem commonSuperclass?_root {hierarchy : Hierarchy} {name : BinaryName}
    (array : name.elementType?.isSome = true) :
    hierarchy.commonSuperclass? name .object = some .object ∧
      hierarchy.commonSuperclass? .object name = some .object := by
  have root : BinaryName.object.elementType? = none := elementType?_of_not_isArray rfl
  have different : name ≠ .object := by
    rintro rfl
    rw [root] at array
    contradiction
  obtain ⟨element, found⟩ := Option.isSome_iff_exists.mp array
  constructor
  · rw [commonSuperclass?, if_neg different]
    split <;> simp_all
  · rw [commonSuperclass?, if_neg different.symm]
    split <;> simp_all

theorem elementType?_of_valid {name : BinaryName} (array : name.isArray = true)
    (valid : ofString name.text = .ok name) : name.elementType?.isSome = true := by
  obtain ⟨type, grammar⟩ := array_of_check array (ofString_eq_ok_iff.mp valid).1
  obtain ⟨text, found⟩ := isArray_iff.mp array
  rw [found] at grammar
  obtain ⟨_, element, inner⟩ := grammar.eq_reference
  exact Option.isSome_iff_exists.mpr ⟨element, elementType?_eq_some_iff.mpr ⟨text, found, inner⟩⟩

namespace Layered

variable {hierarchy : Hierarchy}

/-- The first name that the chains of a class and of a class above it share is the upper one, on
whichever chain one looks. -/
theorem commonClass?_above (layered : hierarchy.Layered) {name upper : BinaryName}
    {entry : ClassEntry} (found : hierarchy.lookup name = some entry)
    (above : upper ∈ entry.ancestors) :
    hierarchy.commonClass? name upper = some upper ∧
      hierarchy.commonClass? upper name = some upper := by
  obtain ⟨parent, held, isClass, rest⟩ := layered.held_above found upper above
  obtain rfl := name_of_lookup held
  cases interface : entry.isInterface with
  | true =>
      rw [layered.onRoot found interface, List.mem_singleton] at above
      simp only [commonClass?, found, held, interface, Bool.true_or, Bool.or_true, if_true]
      rw [above]
      exact ⟨rfl, rfl⟩
  | false =>
      obtain ⟨before, parts⟩ := rest.trans (List.suffix_cons entry.name entry.ancestors)
      have chain : entry.chain = before ++ parent.chain := parts.symm
      have upward : parent.chain.find? (fun name => entry.chain.contains name) =
          some parent.name := by
        refine List.find?_cons_of_pos (List.contains_iff_mem.mpr ?_)
        exact List.mem_cons_of_mem _ above
      have apart : ∀ name ∈ before, name ∉ parent.chain := by
        have distinct := layered.nodup_chain found
        rw [chain] at distinct
        exact fun name early late => (List.nodup_append.mp distinct).2.2 name early name late rfl
      have downward : entry.chain.find? (fun name => parent.chain.contains name) =
          some parent.name := by
        have early : before.find? (fun name => parent.chain.contains name) = none := by
          refine List.find?_eq_none.mpr fun name member => ?_
          simpa using apart name member
        have late : parent.chain.find? (fun name => parent.chain.contains name) =
            some parent.name :=
          List.find?_cons_of_pos (List.contains_iff_mem.mpr List.mem_cons_self)
        rw [chain, List.find?_append, early, late]
        rfl
      simp only [commonClass?, found, held, interface, isClass, Bool.or_self, Bool.false_eq_true,
        if_false]
      exact ⟨upward, downward⟩

theorem commonSuperclass?_above (layered : hierarchy.Layered) {name upper : BinaryName}
    {entry : ClassEntry} (found : hierarchy.lookup name = some entry) (above : upper ∈ entry.chain)
    (regular : upper = name ∨ upper = .object ∨ name.isArray = false ∧ upper.isArray = false) :
    hierarchy.commonSuperclass? name upper = some upper ∧
      hierarchy.commonSuperclass? upper name = some upper := by
  by_cases same : upper = name
  · subst same
    constructor <;> rw [commonSuperclass?, if_pos rfl]
  · have ancestor : upper ∈ entry.ancestors := by
      rcases List.mem_cons.mp above with here | further
      · exact absurd (here.trans (name_of_lookup found)) same
      · exact further
    by_cases arrays : name.isArray = false ∧ upper.isArray = false
    · have nameNone := elementType?_of_not_isArray arrays.1
      have upperNone := elementType?_of_not_isArray arrays.2
      rw [commonSuperclass?_of_no_elements (Ne.symm same) nameNone upperNone,
        commonSuperclass?_of_no_elements same upperNone nameNone]
      exact layered.commonClass?_above found ancestor
    · have root : upper = .object := by simpa [same, arrays] using regular
      subst root
      have array : name.isArray = true := by
        by_contra notArray
        exact arrays ⟨Bool.not_eq_true _ ▸ notArray, rfl⟩
      exact commonSuperclass?_root (elementType?_of_valid array (layered.valid found))

end Layered

/-- Every hierarchy that declarations make consists of chains: each has no name twice, ends in the
root and goes through classes that are known under their names and are not interfaces. A class
merged with one above it gives the upper one in either order. Where one of two different names is
that of an array, and the upper one is not the root, this holds exactly if both are arrays of
references and the array of what their elements have in common is the upper one. -/
theorem ofDeclarations_chains {interfaces classes : List String} {hierarchy : Hierarchy}
    (accepted : ofDeclarations interfaces classes = .ok hierarchy) {name : BinaryName}
    {entry : ClassEntry} (found : hierarchy.lookup name = some entry) :
    entry.chain.head? = some name ∧ entry.chain.getLast? = some .object ∧ entry.chain.Nodup ∧
      (∀ upper ∈ entry.ancestors, ∃ parent, hierarchy.lookup upper = some parent ∧
        parent.isInterface = false ∧ parent.chain <:+ entry.ancestors) ∧
      ∀ upper ∈ entry.chain,
        if upper = name ∨ upper = .object ∨ name.isArray = false ∧ upper.isArray = false then
          hierarchy.commonSuperclass? name upper = some upper ∧
            hierarchy.commonSuperclass? upper name = some upper
        else
          (hierarchy.commonSuperclass? name upper = some upper ↔
              hierarchy.ArraysMeet name upper upper) ∧
            (hierarchy.commonSuperclass? upper name = some upper ↔
              hierarchy.ArraysMeet upper name upper) := by
  have layered := layered_ofDeclarations accepted
  refine ⟨congrArg some (name_of_lookup found), layered.getLast?_chain found,
    layered.nodup_chain found, layered.held_above found, ?_⟩
  intro upper above
  split
  · rename_i regular
    exact layered.commonSuperclass?_above found above regular
  · rename_i irregular
    simp only [not_or] at irregular
    obtain ⟨different, notRoot, array⟩ := irregular
    obtain ⟨upperEntry, upperFound⟩ :=
      Option.isSome_iff_exists.mp (layered.held_chain found above)
    have elements : name.elementType?.isSome = true ∨ upper.elementType?.isSome = true := by
      by_cases isArray : name.isArray = true
      · exact .inl (elementType?_of_valid isArray (layered.valid found))
      · refine .inr (elementType?_of_valid ?_ (layered.valid upperFound))
        by_contra notArray
        exact array ⟨Bool.not_eq_true _ ▸ isArray, Bool.not_eq_true _ ▸ notArray⟩
    exact ⟨commonSuperclass?_of_array (Ne.symm different) notRoot elements,
      commonSuperclass?_of_array different notRoot elements.symm⟩

def declared : Hierarchy :=
  library.declareAll
    [(⟨"Drawable"⟩, .object, .ofInterface), (⟨"Shape"⟩, .object, .ofClass),
      (⟨"Circle"⟩, ⟨"Shape"⟩, .ofClass), (⟨"[I"⟩, .object, .ofClass),
      (⟨"Ints"⟩, ⟨"[I"⟩, .ofClass)]

/-- A circle under its shape, among declarations that end with a class that extends an array. -/
theorem ofDeclarations_chains_circle :
    ofDeclarations ["Drawable"]
        ["Shape=java/lang/Object", "Circle=Shape", "[I=java/lang/Object", "Ints=[I"] =
      .ok declared ∧
    declared.lookup ⟨"Circle"⟩ = some ⟨⟨"Circle"⟩, [⟨"Shape"⟩, .object], .ofClass⟩ ∧
    declared.commonSuperclass? ⟨"Circle"⟩ ⟨"Shape"⟩ = some ⟨"Shape"⟩ ∧
    declared.commonSuperclass? ⟨"Shape"⟩ ⟨"Circle"⟩ = some ⟨"Shape"⟩ := by
  have accepted : ofDeclarations ["Drawable"]
      ["Shape=java/lang/Object", "Circle=Shape", "[I=java/lang/Object", "Ints=[I"] =
    .ok declared := by decide +kernel
  have found : declared.lookup ⟨"Circle"⟩ =
      some ⟨⟨"Circle"⟩, [⟨"Shape"⟩, .object], .ofClass⟩ := by decide +kernel
  obtain ⟨_, _, _, _, merges⟩ := ofDeclarations_chains accepted found
  have merged := merges ⟨"Shape"⟩ (by decide)
  rw [if_pos (by decide)] at merged
  exact ⟨accepted, found, merged⟩

/-- A class may be declared to extend an array, and does not merge with it into the array. -/
theorem ofDeclarations_not_merging_array :
    ofDeclarations ["Drawable"]
        ["Shape=java/lang/Object", "Circle=Shape", "[I=java/lang/Object", "Ints=[I"] =
      .ok declared ∧
    declared.lookup ⟨"Ints"⟩ = some ⟨⟨"Ints"⟩, [⟨"[I"⟩, .object], .ofClass⟩ ∧
    declared.commonSuperclass? ⟨"Ints"⟩ ⟨"[I"⟩ = some .object ∧
    declared.commonSuperclass? ⟨"[I"⟩ ⟨"Ints"⟩ = some .object ∧
    ¬ ∀ upper ∈ ClassEntry.chain ⟨⟨"Ints"⟩, [⟨"[I"⟩, .object], .ofClass⟩,
      declared.commonSuperclass? ⟨"Ints"⟩ upper = some upper ∧
        declared.commonSuperclass? upper ⟨"Ints"⟩ = some upper := by
  decide +kernel

end JvmFrames.Hierarchy
