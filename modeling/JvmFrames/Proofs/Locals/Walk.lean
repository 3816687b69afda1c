import JvmFrames.Proofs.Locals.Comparison

/-!
The comparison of locals as a walk over their slots. It steps over a value by the width of its type
and checks that it is at the same slot in both lists. The comparison of cells is this walk, and with
right numbers of values the walk never looks past the end of a list.
-/

namespace JvmFrames.Locals

def skip? (locals : Locals) (slot : Nat) : Nat → Option Nat
  | 0 => some slot
  | number + 1 =>
    match locals[slot]? with
    | some (some type) => skip? locals (slot + type.width) number
    | _ => none

/-- Compares two lists of locals from a slot in each on, where each is said to hold the given number
of values. There is no answer when a slot is past the end while both have values left. -/
def walk? (previous current : Locals) (previousSlot currentSlot : Nat) :
    Nat → Nat → Option LocalsChange
  | previousCount + 1, currentCount + 1 =>
    match previous[previousSlot]?, current[currentSlot]? with
    | some (some before), some (some now) =>
      if before.same now ∧ previousSlot = currentSlot then
        walk? previous current (previousSlot + before.width) (currentSlot + now.width)
          previousCount currentCount
      else
        some .elsewhere
    | some _, some _ => some .elsewhere
    | _, _ => none
  | 0, 0 => some (.atEnd 0)
  | 0, added + 1 =>
    some (if (skip? current currentSlot (added + 1)).isSome then .atEnd (added + 1) else .elsewhere)
  | dropped + 1, 0 =>
    some (if (skip? previous previousSlot (dropped + 1)).isSome then .atEnd (-(dropped + 1))
      else .elsewhere)

theorem cells_drop_of_end {locals : Locals} {slot : Nat} (past : locals[slot]? = none) :
    cells (locals.drop slot) = [] := by
  rw [List.drop_eq_nil_of_le (List.getElem?_eq_none_iff.mp past)]
  rfl

theorem cells_drop_of_unused {locals : Locals} {slot : Nat} (empty : locals[slot]? = some none) :
    cells (locals.drop slot) = none :: cells (locals.drop (slot + 1)) := by
  rw [List.drop_eq_getElem?_toList_append, empty]
  exact cells_cons_narrow _ rfl

theorem cells_drop_of_value {locals : Locals} {slot : Nat} {type : VerificationType}
    (found : locals[slot]? = some (some type)) :
    cells (locals.drop slot) = some type :: cells (locals.drop (slot + type.width)) := by
  rw [List.drop_eq_getElem?_toList_append, found, VerificationType.width]
  by_cases wide : type.isWide = true
  · rw [if_pos wide]
    cases behind : locals[slot + 1]? with
    | none =>
        have short := List.getElem?_eq_none_iff.mp behind
        rw [List.drop_eq_nil_of_le short, List.drop_eq_nil_of_le (by omega)]
        rfl
    | some hidden =>
        rw [List.drop_eq_getElem?_toList_append, behind]
        exact cells_cons_wide _ _ wide
  · rw [if_neg wide]
    exact cells_cons_narrow _ (by simpa [isWide] using wide)

theorem slot_cases (locals : Locals) (slot : Nat) :
    locals[slot]? = none ∨ locals[slot]? = some none ∨
      ∃ type, locals[slot]? = some (some type) := by
  cases locals[slot]? with
  | none => exact .inl rfl
  | some cell =>
      cases cell with
      | none => exact .inr (.inl rfl)
      | some type => exact .inr (.inr ⟨type, rfl⟩)

theorem isSome_skip? (locals : Locals) (slot number : Nat) :
    (skip? locals slot number).isSome = startsWithValues (cells (locals.drop slot)) number := by
  induction number generalizing slot with
  | zero => simp [skip?, startsWithValues]
  | succ number ih =>
      rw [skip?]
      rcases locals.slot_cases slot with past | empty | ⟨type, found⟩
      · simp [past, cells_drop_of_end past, startsWithValues]
      · simp [empty, cells_drop_of_unused empty, startsWithValues]
      · simp only [found, ih, cells_drop_of_value found]
        simp [startsWithValues]

/-- Both cursors are at one slot for as long as the walk goes on, so the cells from there on are
what is left to compare. -/
theorem walk?_eq_compare? (previous current : Locals) (slot previousCount currentCount : Nat) :
    walk? previous current slot slot previousCount currentCount =
      compare? (cells (previous.drop slot)) previousCount (cells (current.drop slot))
        currentCount := by
  induction previousCount generalizing slot currentCount with
  | zero =>
      cases currentCount with
      | zero => simp [walk?, compare?]
      | succ added => simp [walk?, compare?, isSome_skip?]
  | succ previousCount ih =>
      cases currentCount with
      | zero => simp [walk?, compare?, isSome_skip?]
      | succ currentCount =>
          rw [walk?]
          rcases previous.slot_cases slot with before | before | ⟨first, before⟩
          · simp [before, cells_drop_of_end before, compare?]
          · rcases current.slot_cases slot with now | now | ⟨second, now⟩
            · simp [before, now, cells_drop_of_unused before, cells_drop_of_end now, compare?]
            · simp [before, now, cells_drop_of_unused before, cells_drop_of_unused now, compare?]
            · simp [before, now, cells_drop_of_unused before, cells_drop_of_value now, compare?]
          · rcases current.slot_cases slot with now | now | ⟨second, now⟩
            · simp [before, now, cells_drop_of_value before, cells_drop_of_end now, compare?]
            · simp [before, now, cells_drop_of_value before, cells_drop_of_unused now, compare?]
            · rw [before, now, cells_drop_of_value before, cells_drop_of_value now, compare?]
              by_cases agree : first.same second = true
              · simp only [agree, and_self, if_true]
                rw [← VerificationType.width_of_same agree, ih]
              · simp [agree]

theorem walk?_eq_change (previous current : Locals) :
    walk? previous current 0 0 previous.count current.count = some (change previous current) := by
  obtain ⟨answer, found⟩ := exists_compare? (rfl : _ = previous.count) (rfl : _ = current.count)
  rw [walk?_eq_compare?, change, changeFrom, List.drop_zero, List.drop_zero, found]
  rfl

end JvmFrames.Locals
