import JvmFrames.Frame.Merge
import JvmFrames.Proofs.Hierarchy.Grounded
import JvmFrames.Proofs.Hierarchy.Unite
import JvmFrames.Proofs.Locals.Comparison

/-!
Merging of types and stacks up to the copies of markers. In a hierarchy that is grounded in the
library types a type and two further types, or a stack and two further stacks, merge in either order
to the same, or in neither order.
-/

namespace JvmFrames.VerificationType

def cover? (superTypes : SuperTypes) (left right : VerificationType) : Option VerificationType :=
  (merge superTypes left right).toOption.map forgetCopy

def reference? : VerificationType → Option (Option BinaryName)
  | .null => some none
  | .object name => some (some name)
  | _ => none

def ofReference : Option BinaryName → VerificationType
  | none => .null
  | some name => .object name

@[simp] theorem reference?_forgetCopy (type : VerificationType) :
    type.forgetCopy.reference? = type.reference? := by
  cases type <;> rfl

theorem eq_ofReference {type : VerificationType} {reference : Option BinaryName}
    (found : type.reference? = some reference) : type = ofReference reference := by
  cases type with
  | null =>
      cases found
      rfl
  | object name =>
      cases found
      rfl
  | _ => contradiction

variable {superTypes : SuperTypes} {left right : VerificationType}

/-- Apart from null and objects a type merges with itself only. -/
theorem cover?_of_other (other : left.reference? = none ∨ right.reference? = none) :
    cover? superTypes left right =
      if left.forgetCopy = right.forgetCopy then some left.forgetCopy else none := by
  unfold cover? merge
  by_cases agree : left.same right = true
  · rw [if_pos agree, if_pos (same_iff.mp agree)]
    rfl
  · rw [if_neg agree, if_neg fun equal => agree (same_iff.mpr equal)]
    split
    · simp [reference?] at other
    · simp [reference?] at other
    · simp [reference?] at other
    · rfl

theorem cover?_forgetCopy_left :
    cover? superTypes left.forgetCopy right = cover? superTypes left right := by
  cases found : left.reference? with
  | none =>
      have bareFound : left.forgetCopy.reference? = none := by rw [reference?_forgetCopy, found]
      rw [cover?_of_other (.inl found), cover?_of_other (.inl bareFound), forgetCopy_forgetCopy]
  | some reference =>
      rw [eq_ofReference found]
      cases reference <;> rfl

theorem merge_objects (superTypes : SuperTypes) {left right : BinaryName}
    (different : left ≠ right) :
    merge superTypes (.object left) (.object right) =
      .ok (.object ((superTypes left right).getD .object)) := by
  have apart : ¬ (object left).same (.object right) = true := by
    simpa [same_iff, forgetCopy] using different
  unfold merge
  rw [if_neg apart]

def uniteReferences (hierarchy : Hierarchy) :
    Option BinaryName → Option BinaryName → Option BinaryName
  | none, right => right
  | left, none => left
  | some left, some right => some (hierarchy.unite left right)

variable {hierarchy : Hierarchy}

theorem cover?_ofReference (left right : Option BinaryName) :
    cover? hierarchy.commonSuperclass? (ofReference left) (ofReference right) =
      some (ofReference (uniteReferences hierarchy left right)) := by
  cases left with
  | none =>
      cases right with
      | none => rfl
      | some right => rfl
  | some left =>
      cases right with
      | none => rfl
      | some right =>
          by_cases equal : left = right
          · subst equal
            rw [cover?, merge_of_same _ (same_refl _), uniteReferences, Hierarchy.unite_self]
            rfl
          · have merged := merge_objects hierarchy.commonSuperclass? equal
            simp only [ofReference, cover?, merged]
            rfl

theorem uniteReferences_comm (grounded : hierarchy.Grounded) (left right : Option BinaryName) :
    uniteReferences hierarchy left right = uniteReferences hierarchy right left := by
  cases left with
  | none => cases right <;> rfl
  | some left =>
      cases right with
      | none => rfl
      | some right => exact congrArg some (Hierarchy.unite_comm grounded.tree left right)

theorem uniteReferences_right_comm (grounded : hierarchy.Grounded)
    (first second third : Option BinaryName) :
    uniteReferences hierarchy (uniteReferences hierarchy first second) third =
      uniteReferences hierarchy (uniteReferences hierarchy first third) second := by
  cases first with
  | none =>
      cases second with
      | none => cases third <;> rfl
      | some second =>
          cases third with
          | none => rfl
          | some third => exact congrArg some (Hierarchy.unite_comm grounded.tree second third)
  | some first =>
      cases second with
      | none => cases third <;> rfl
      | some second =>
          cases third with
          | none => rfl
          | some third =>
              exact congrArg some (Hierarchy.unite_right_comm grounded.tree first second third)

theorem other_of_not_both (notBoth : ¬ (left.reference?.isSome ∧ right.reference?.isSome)) :
    left.reference? = none ∨ right.reference? = none := by
  simpa only [not_and_or, Option.not_isSome_iff_eq_none] using notBoth

theorem cover?_of_apart (apart : left.reference?.isSome ≠ right.reference?.isSome) :
    cover? superTypes left right = none := by
  have different : left.forgetCopy ≠ right.forgetCopy := by
    intro same
    rw [← reference?_forgetCopy left, same, reference?_forgetCopy] at apart
    exact apart rfl
  have other := other_of_not_both fun both => apart (both.1.trans both.2.symm)
  rw [cover?_of_other other, if_neg different]

theorem isSome_reference?_of_cover? {covering : VerificationType}
    (found : cover? hierarchy.commonSuperclass? left right = some covering) :
    covering.reference?.isSome = left.reference?.isSome := by
  cases leftFound : left.reference? with
  | none =>
      rw [cover?_of_other (.inl leftFound)] at found
      split at found
      · rw [← Option.some.inj found, reference?_forgetCopy, leftFound]
      · contradiction
  | some reference =>
      cases rightFound : right.reference? with
      | none =>
          rw [cover?_of_apart (by rw [leftFound, rightFound]; simp)] at found
          contradiction
      | some other =>
          rw [eq_ofReference leftFound, eq_ofReference rightFound, cover?_ofReference] at found
          rw [← Option.some.inj found]
          cases uniteReferences hierarchy reference other <;> rfl

theorem cover?_comm (grounded : hierarchy.Grounded) (left right : VerificationType) :
    cover? hierarchy.commonSuperclass? left right =
      cover? hierarchy.commonSuperclass? right left := by
  by_cases references : left.reference?.isSome ∧ right.reference?.isSome
  · obtain ⟨leftReference, leftFound⟩ := Option.isSome_iff_exists.mp references.1
    obtain ⟨rightReference, rightFound⟩ := Option.isSome_iff_exists.mp references.2
    rw [eq_ofReference leftFound, eq_ofReference rightFound, cover?_ofReference,
      cover?_ofReference, uniteReferences_comm grounded]
  · have other := other_of_not_both references
    rw [cover?_of_other other, cover?_of_other other.symm]
    by_cases same : left.forgetCopy = right.forgetCopy
    · rw [if_pos same, if_pos same.symm, same]
    · rw [if_neg same, if_neg (Ne.symm same)]

theorem bind_cover?_of_apart {first second third : VerificationType}
    (apart : first.reference?.isSome ≠ second.reference?.isSome) :
    (cover? hierarchy.commonSuperclass? first third).bind
      (cover? hierarchy.commonSuperclass? · second) = none := by
  cases found : cover? hierarchy.commonSuperclass? first third with
  | none => rfl
  | some covering =>
      refine cover?_of_apart ?_
      rw [isSome_reference?_of_cover? found]
      exact apart

theorem bind_cover?_of_other {first second third : VerificationType}
    (other : first.reference? = none) :
    (cover? superTypes first second).bind (cover? superTypes · third) =
      if first.forgetCopy = second.forgetCopy ∧ first.forgetCopy = third.forgetCopy then
        some first.forgetCopy
      else
        none := by
  rw [cover?_of_other (.inl other)]
  by_cases same : first.forgetCopy = second.forgetCopy
  · rw [if_pos same, Option.bind_some, cover?_forgetCopy_left, cover?_of_other (.inl other)]
    simp only [same, true_and]
  · rw [if_neg same, if_neg fun both => same both.1]
    rfl

theorem cover?_right_comm (grounded : hierarchy.Grounded) (first second third : VerificationType) :
    (cover? hierarchy.commonSuperclass? first second).bind
        (cover? hierarchy.commonSuperclass? · third) =
      (cover? hierarchy.commonSuperclass? first third).bind
        (cover? hierarchy.commonSuperclass? · second) := by
  cases firstFound : first.reference? with
  | none =>
      rw [bind_cover?_of_other firstFound, bind_cover?_of_other firstFound]
      simp only [and_comm]
  | some firstReference =>
      by_cases secondApart : first.reference?.isSome ≠ second.reference?.isSome
      · rw [bind_cover?_of_apart secondApart, cover?_of_apart secondApart]
        rfl
      · by_cases thirdApart : first.reference?.isSome ≠ third.reference?.isSome
        · rw [bind_cover?_of_apart thirdApart, cover?_of_apart thirdApart]
          rfl
        · rw [not_not, firstFound, Option.isSome_some, eq_comm, Option.isSome_iff_exists]
            at secondApart thirdApart
          obtain ⟨secondReference, secondFound⟩ := secondApart
          obtain ⟨thirdReference, thirdFound⟩ := thirdApart
          rw [eq_ofReference firstFound, eq_ofReference secondFound, eq_ofReference thirdFound]
          simp only [cover?_ofReference, Option.bind_some]
          rw [uniteReferences_right_comm grounded]

def coverAll? (superTypes : SuperTypes) :
    List VerificationType → List VerificationType → Option (List VerificationType)
  | [], [] => some []
  | left :: lefts, right :: rights =>
    (cover? superTypes left right).bind fun covering =>
      (coverAll? superTypes lefts rights).map (covering :: ·)
  | _, _ => none

theorem coverAll?_of_length_ne {lefts rights : List VerificationType}
    (mismatch : lefts.length ≠ rights.length) : coverAll? superTypes lefts rights = none := by
  induction lefts generalizing rights with
  | nil =>
      cases rights with
      | nil => contradiction
      | cons right rights => rfl
  | cons left lefts ih =>
      cases rights with
      | nil => rfl
      | cons right rights =>
          have rest : lefts.length ≠ rights.length := fun same => mismatch (congrArg (· + 1) same)
          rw [coverAll?, ih rest]
          cases cover? superTypes left right <;> rfl

theorem coverAll?_eq_mergeAll {lefts rights : List VerificationType}
    (sameDepth : lefts.length = rights.length) : coverAll? superTypes lefts rights =
      (mergeAll superTypes lefts rights).toOption.map erase := by
  induction lefts generalizing rights with
  | nil =>
      cases rights with
      | nil => rfl
      | cons right rights => contradiction
  | cons left lefts ih =>
      cases rights with
      | nil => contradiction
      | cons right rights =>
          rw [coverAll?, ih (Nat.succ.inj sameDepth), cover?, mergeAll]
          cases merge superTypes left right with
          | error fault => rfl
          | ok merged => cases mergeAll superTypes lefts rights <;> rfl

theorem coverAll?_erase_left (lefts rights : List VerificationType) :
    coverAll? superTypes (erase lefts) rights = coverAll? superTypes lefts rights := by
  induction lefts generalizing rights with
  | nil => rfl
  | cons left lefts ih =>
      cases rights with
      | nil => rfl
      | cons right rights =>
          rw [erase, List.map_cons, coverAll?, coverAll?, cover?_forgetCopy_left, ← erase, ih]

theorem coverAll?_comm (grounded : hierarchy.Grounded) (lefts rights : List VerificationType) :
    coverAll? hierarchy.commonSuperclass? lefts rights =
      coverAll? hierarchy.commonSuperclass? rights lefts := by
  induction lefts generalizing rights with
  | nil => cases rights <;> rfl
  | cons left lefts ih =>
      cases rights with
      | nil => rfl
      | cons right rights => rw [coverAll?, coverAll?, cover?_comm grounded, ih]

theorem bind_coverAll?_cons (first second third : VerificationType)
    (firsts seconds thirds : List VerificationType) :
    (coverAll? superTypes (first :: firsts) (second :: seconds)).bind
        (coverAll? superTypes · (third :: thirds)) =
      ((cover? superTypes first second).bind (cover? superTypes · third)).bind fun covering =>
        ((coverAll? superTypes firsts seconds).bind (coverAll? superTypes · thirds)).map
          (covering :: ·) := by
  rw [coverAll?]
  cases cover? superTypes first second with
  | none => rfl
  | some covering =>
      cases coverAll? superTypes firsts seconds with
      | none => cases found : cover? superTypes covering third <;> simp [found]
      | some coverings => rfl

theorem bind_coverAll?_nil (first : VerificationType) (firsts thirds : List VerificationType) :
    (coverAll? superTypes (first :: firsts) thirds).bind (coverAll? superTypes · []) = none := by
  cases thirds with
  | nil => rfl
  | cons third thirds =>
      rw [coverAll?]
      cases cover? superTypes first third with
      | none => rfl
      | some covering => cases coverAll? superTypes firsts thirds <;> rfl

/-- Two further stacks merge with a stack in either order to the same, or in neither order. -/
theorem coverAll?_right_comm (grounded : hierarchy.Grounded)
    (first second third : List VerificationType) :
    (coverAll? hierarchy.commonSuperclass? first second).bind
        (coverAll? hierarchy.commonSuperclass? · third) =
      (coverAll? hierarchy.commonSuperclass? first third).bind
        (coverAll? hierarchy.commonSuperclass? · second) := by
  induction first generalizing second third with
  | nil => cases second <;> cases third <;> rfl
  | cons first firsts ih =>
      cases second with
      | nil =>
          rw [bind_coverAll?_nil]
          rfl
      | cons second seconds =>
          cases third with
          | nil =>
              rw [bind_coverAll?_nil]
              rfl
          | cons third thirds =>
              rw [bind_coverAll?_cons, bind_coverAll?_cons, cover?_right_comm grounded, ih]

end JvmFrames.VerificationType
