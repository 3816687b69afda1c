import JvmFrames.Proofs.Locals.Compact

/-!
What the comparison of two lists of locals finds out. It answers that they differ at their end only
exactly if both are packed and one of them continues the other, and then it says by how many values.
-/

namespace JvmFrames

@[simp] theorem VerificationType.forgetCopy_forgetCopy (type : VerificationType) :
    type.forgetCopy.forgetCopy = type.forgetCopy := by
  cases type <;> rfl

def VerificationType.erase (types : List VerificationType) : List VerificationType :=
  types.map VerificationType.forgetCopy

namespace Locals

open VerificationType

structure EndsApart (previous current : List VerificationType) (difference : Int) : Prop where
  continued : erase previous <+: erase current ∨ erase current <+: erase previous
  length : (current.length : Int) = previous.length + difference

theorem endsApart_cons {previous current : List VerificationType} {difference : Int}
    {before now : VerificationType} (agree : before.same now = true)
    (apart : EndsApart previous current difference) :
    EndsApart (before :: previous) (now :: current) difference := by
  have head : before.forgetCopy = now.forgetCopy := same_iff.mp agree
  refine ⟨?_, ?_⟩
  · simp only [erase, List.map_cons, head, List.cons_prefix_cons, true_and]
    exact apart.continued
  · have length := apart.length
    simp only [List.length_cons]
    omega

theorem endsApart_of_compare? {previous current : List (Option VerificationType)}
    {previousCount currentCount : Nat} {difference : Int}
    (previousCounted : previous.countP Option.isSome = previousCount)
    (currentCounted : current.countP Option.isSome = currentCount)
    (found : compare? previous previousCount current currentCount = some (.atEnd difference)) :
    ∃ before now, Packed previous before ∧ Packed current now ∧
      EndsApart before now difference := by
  fun_induction compare? previous previousCount current currentCount with
  | case1 before previous previousCount now current currentCount agree ih =>
      have previousCounted : previous.countP Option.isSome = previousCount := by
        simpa using previousCounted
      have currentCounted : current.countP Option.isSome = currentCount := by
        simpa using currentCounted
      obtain ⟨befores, nows, packedBefore, packedNow, apart⟩ :=
        ih previousCounted currentCounted found
      exact ⟨before :: befores, now :: nows, packed_cons before packedBefore,
        packed_cons now packedNow, endsApart_cons agree apart⟩
  | case2 => simp at found
  | case3 => simp at found
  | case4 => simp at found
  | case5 => simp at found
  | case6 previous current =>
      obtain rfl : 0 = difference := by simpa using found
      exact ⟨[], [], packed_of_countP_eq_zero previousCounted,
        packed_of_countP_eq_zero currentCounted, .inl List.prefix_rfl, by simp⟩
  | case7 previous current added =>
      split at found
      · rename_i starts
        obtain rfl : (added + 1 : Int) = difference := by simpa using found
        obtain ⟨nows, packedNow, length⟩ := packed_of_startsWithValues currentCounted starts
        exact ⟨[], nows, packed_of_countP_eq_zero previousCounted, packedNow,
          .inl (List.nil_prefix), by simp [length]⟩
      · simp at found
  | case8 previous dropped current =>
      split at found
      · rename_i starts
        obtain rfl : (-(dropped + 1) : Int) = difference := by simpa using found
        obtain ⟨befores, packedBefore, length⟩ := packed_of_startsWithValues previousCounted starts
        exact ⟨befores, [], packedBefore, packed_of_countP_eq_zero currentCounted,
          .inr (List.nil_prefix), by simp only [length, List.length_nil]; omega⟩
      · simp at found

theorem EndsApart.symm {previous current : List VerificationType} {difference : Int}
    (apart : EndsApart previous current difference) :
    EndsApart current previous (-difference) := by
  have length := apart.length
  exact ⟨apart.continued.symm, by omega⟩

theorem endsApart_of_cons {previous current : List VerificationType} {difference : Int}
    {before now : VerificationType}
    (apart : EndsApart (before :: previous) (now :: current) difference) :
    before.same now = true ∧ EndsApart previous current difference := by
  obtain ⟨continued, length⟩ := apart
  simp only [erase, List.map_cons, List.cons_prefix_cons] at continued
  simp only [List.length_cons] at length
  rcases continued with ⟨head, rest⟩ | ⟨head, rest⟩
  · exact ⟨same_iff.mpr head, .inl rest, by omega⟩
  · exact ⟨same_iff.mpr head.symm, .inr rest, by omega⟩

/-- Right numbers of values keep the comparison from running past the end of a list. -/
theorem exists_compare? {previous current : List (Option VerificationType)}
    {previousCount currentCount : Nat}
    (previousCounted : previous.countP Option.isSome = previousCount)
    (currentCounted : current.countP Option.isSome = currentCount) :
    ∃ change, compare? previous previousCount current currentCount = some change := by
  fun_induction compare? previous previousCount current currentCount with
  | case1 before previous previousCount now current currentCount agree ih =>
      exact ih (by simpa using previousCounted) (by simpa using currentCounted)
  | case3 => simp at previousCounted
  | case4 => simp at currentCounted
  | _ => exact ⟨_, rfl⟩

theorem compare?_of_endsApart {previous current : List (Option VerificationType)}
    {before now : List VerificationType} {difference : Int} (packedBefore : Packed previous before)
    (packedNow : Packed current now) (apart : EndsApart before now difference) :
    compare? previous before.length current now.length = some (.atEnd difference) := by
  induction before generalizing previous current now with
  | nil =>
      have length := apart.length
      cases now with
      | nil =>
          obtain rfl : difference = 0 := by simpa using length.symm
          simp [compare?]
      | cons type now =>
          obtain rfl : difference = now.length + 1 := by simpa using length.symm
          have starts := startsWithValues_of_packed packedNow
          simp only [List.length_cons] at starts
          simp [compare?, starts]
  | cons first before ih =>
      cases now with
      | nil =>
          have length := apart.length
          obtain rfl : difference = -(before.length + 1) := by
            simp only [List.length_cons, List.length_nil] at length
            omega
          have starts := startsWithValues_of_packed packedBefore
          simp only [List.length_cons] at starts
          simp [compare?, starts]
      | cons second now =>
          obtain ⟨agree, apart⟩ := endsApart_of_cons apart
          obtain ⟨_, rfl, restBefore⟩ := exists_of_packed_cons packedBefore
          obtain ⟨_, rfl, restNow⟩ := exists_of_packed_cons packedNow
          simp only [List.length_cons, compare?, agree, if_true]
          exact ih restBefore restNow apart

theorem compare?_of_changeFrom {previous current : Locals} {previousCount currentCount : Nat}
    {difference : Int}
    (found : changeFrom previous previousCount current currentCount = .atEnd difference) :
    compare? previous.cells previousCount current.cells currentCount =
      some (.atEnd difference) := by
  unfold changeFrom at found
  cases compared : compare? previous.cells previousCount current.cells currentCount with
  | none => simp [compared] at found
  | some answer => simpa [compared] using found

/-- Whatever is said of the list before, a list with the right number of values is packed if it is
found to differ at its end only, and has the values that are found to be appended. -/
theorem packed_of_compare? {previous current : List (Option VerificationType)}
    {previousCount currentCount : Nat} {difference : Int}
    (currentCounted : current.countP Option.isSome = currentCount)
    (found : compare? previous previousCount current currentCount = some (.atEnd difference)) :
    ∃ now, Packed current now ∧ difference ≤ now.length := by
  fun_induction compare? previous previousCount current currentCount with
  | case1 before previous previousCount now current currentCount agree ih =>
      obtain ⟨nows, packed, bound⟩ := ih (by simpa using currentCounted) found
      refine ⟨now :: nows, packed_cons now packed, ?_⟩
      simp only [List.length_cons]
      omega
  | case2 => simp at found
  | case3 => simp at found
  | case4 => simp at found
  | case5 => simp at found
  | case6 previous current =>
      obtain rfl : 0 = difference := by simpa using found
      exact ⟨[], packed_of_countP_eq_zero currentCounted, Int.le_refl _⟩
  | case7 previous current added =>
      split at found
      · rename_i starts
        obtain rfl : (added + 1 : Int) = difference := by simpa using found
        obtain ⟨nows, packed, length⟩ := packed_of_startsWithValues currentCounted starts
        exact ⟨nows, packed, by omega⟩
      · simp at found
  | case8 previous dropped current =>
      split at found
      · obtain rfl : (-(dropped + 1) : Int) = difference := by simpa using found
        refine ⟨[], packed_of_countP_eq_zero currentCounted, ?_⟩
        simp only [List.length_nil]
        omega
      · simp at found

theorem packed_of_changeFrom {previous current : Locals} {previousCount : Nat} {difference : Int}
    (found : changeFrom previous previousCount current current.count = .atEnd difference) :
    Packed current.cells current.entries ∧ difference ≤ current.entries.length := by
  obtain ⟨now, packed, bound⟩ := packed_of_compare? rfl (compare?_of_changeFrom found)
  rw [entries_of_packed packed]
  exact ⟨packed, bound⟩

/-- Locals that are said to differ at their end only are packed, and one continues the other. -/
theorem endsApart_of_change {previous current : Locals} {difference : Int}
    (found : change previous current = .atEnd difference) :
    Packed previous.cells previous.entries ∧ Packed current.cells current.entries ∧
      EndsApart previous.entries current.entries difference := by
  obtain ⟨before, now, packedBefore, packedNow, apart⟩ :=
    endsApart_of_compare? rfl rfl (compare?_of_changeFrom found)
  rw [entries_of_packed packedBefore, entries_of_packed packedNow]
  exact ⟨packedBefore, packedNow, apart⟩

theorem change_eq_atEnd_iff {previous current : Locals} {difference : Int} :
    change previous current = .atEnd difference ↔
      Packed previous.cells previous.entries ∧ Packed current.cells current.entries ∧
        EndsApart previous.entries current.entries difference := by
  constructor
  · exact endsApart_of_change
  · rintro ⟨packedBefore, packedNow, apart⟩
    rw [change, changeFrom, count, count, countP_of_packed packedBefore, countP_of_packed packedNow,
      compare?_of_endsApart packedBefore packedNow apart]
    rfl

structure Aligned (previous current : Locals) : Prop where
  previousCompact : previous.Compact
  currentCompact : current.Compact
  continued : erase previous.entries <+: erase current.entries ∨
    erase current.entries <+: erase previous.entries

theorem Aligned.symm {previous current : Locals} (aligned : Aligned previous current) :
    Aligned current previous :=
  ⟨aligned.currentCompact, aligned.previousCompact, aligned.continued.symm⟩

theorem change_eq_atEnd_iff_aligned {previous current : Locals} {difference : Int}
    (previousWellFormed : previous.WellFormed) (currentWellFormed : current.WellFormed) :
    change previous current = .atEnd difference ↔
      Aligned previous current ∧
        difference = (current.entries.length : Int) - previous.entries.length := by
  rw [change_eq_atEnd_iff, ← compact_iff_packed previousWellFormed,
    ← compact_iff_packed currentWellFormed]
  constructor
  · rintro ⟨previousCompact, currentCompact, continued, length⟩
    exact ⟨⟨previousCompact, currentCompact, continued⟩, by omega⟩
  · rintro ⟨⟨previousCompact, currentCompact, continued⟩, length⟩
    exact ⟨previousCompact, currentCompact, continued, by omega⟩

theorem change_eq_elsewhere_iff {previous current : Locals}
    (previousWellFormed : previous.WellFormed) (currentWellFormed : current.WellFormed) :
    change previous current = .elsewhere ↔ ¬ Aligned previous current := by
  constructor
  · intro elsewhere aligned
    have atEnd := (change_eq_atEnd_iff_aligned previousWellFormed currentWellFormed).mpr
      ⟨aligned, rfl⟩
    rw [elsewhere] at atEnd
    contradiction
  · intro apart
    cases found : change previous current with
    | elsewhere => rfl
    | atEnd difference =>
        have aligned := (change_eq_atEnd_iff_aligned previousWellFormed currentWellFormed).mp found
        exact absurd aligned.1 apart

end Locals

end JvmFrames
