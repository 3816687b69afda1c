import JvmFrames.Proofs.Frame.Sound
import JvmFrames.Proofs.Locals.Compact
import JvmFrames.Proofs.Locals.Slots

/-!
Where the locals of a frame are cut when its last locals are appended or chopped. The cut is found
by counting back over the slots in use, and the main statement says that counting forward, with the
holes skipped, comes to the same numbers on either side of it.
-/

namespace JvmFrames.Frame

/-- Counting back finds a cut for every number of locals that the frame has, in front of the one
value from which on there are so many. The others are before the cut, and so many entries are listed
from it on unless a slot is unused there. -/
theorem slotFromEnd?_eq_some_iff_count {frame : Frame} (reachable : frame.Reachable)
    (number : Nat) :
    ((frame.locals.slotFromEnd? number).isSome = true ↔
        1 ≤ number ∧ number ≤ frame.localsCount) ∧
      ∀ slot,
        (frame.locals.slotFromEnd? number = some slot ↔
          (∃ type, frame.locals[slot]? = some (some type)) ∧
            Locals.count (frame.locals.drop slot) = number) ∧
        (frame.locals.slotFromEnd? number = some slot →
          Locals.count (frame.locals.take slot) = frame.localsCount - number ∧
            (Locals.Compact (frame.locals.drop slot) →
              (Locals.entries (frame.locals.drop slot)).length = number)) := by
  have holes := reachable.sound.holes
  rw [localsCount_eq reachable.countTrue]
  refine ⟨Locals.isSome_slotFromEnd?_iff holes, fun slot => ?_⟩
  have cut : frame.locals.slotFromEnd? number = some slot ↔ _ :=
    Locals.slotFromEnd?_eq_some_iff holes
  refine ⟨cut, fun found => ?_⟩
  obtain ⟨⟨type, held⟩, behind⟩ := cut.mp found
  constructor
  · have total := Locals.count_take_add_count_drop holes held
    omega
  · intro compact
    rw [Locals.length_entries_of_compact (holes.drop slot) compact, behind]

/-- The last two values are cut off, one of them wide, with an unused slot in front of the cut and
another at the end. -/
theorem slotFromEnd?_eq_some_iff_count_wide :
    let frame : Frame :=
      { pc := 5, locals := [some .long, none, none, some .double, none, some .integer, none] }
    frame.Reachable ∧ 2 ≤ frame.localsCount ∧ frame.locals.slotFromEnd? 2 = some 3 ∧
      Locals.count (frame.locals.drop 3) = 2 ∧
      Locals.count (frame.locals.take 3) = frame.localsCount - 2 ∧
      Locals.Compact (frame.locals.drop 3) ∧
      (Locals.entries (frame.locals.drop 3)).length = 2 := by
  intro frame
  have made : ofSnapshot 5 frame.locals [] = .ok frame := rfl
  have reachable : frame.Reachable := .ofSnapshot made
  have found : frame.locals.slotFromEnd? 2 = some 3 := rfl
  obtain ⟨range, cut⟩ := slotFromEnd?_eq_some_iff_count reachable 2
  obtain ⟨here, sides⟩ := cut 3
  obtain ⟨before, listed⟩ := sides found
  have compact : Locals.Compact (frame.locals.drop 3) :=
    (Locals.compact_iff_exists_packed (reachable.sound.holes.drop 3)).mpr
      ⟨[.double, .integer], 1, rfl⟩
  exact ⟨reachable, (range.mp (Option.isSome_of_eq_some found)).2, found, (here.mp found).2, before,
    compact, listed compact⟩

end JvmFrames.Frame
