import JvmFrames.Proofs.Frame.Sound
import JvmFrames.Proofs.Locals.Walk

/-!
The comparison of a frame with the frame before, for all frames that can be made. The main statement
says exactly when it finds that the locals differ at their end only.
-/

namespace JvmFrames.Frame

/-- Comparing two frames walks over their slots without leaving either list. It finds a difference
at the end exactly if the locals of both have no unused slot among their values and one list
continues the other, and it finds the negative difference when the frames change places. -/
theorem compareWith_eq_atEnd_iff_aligned {previous frame : Frame}
    (previousReachable : previous.Reachable) (reachable : frame.Reachable) :
    Locals.walk? previous.locals frame.locals 0 0 previous.localsCount frame.localsCount =
        some (frame.compareWith previous) ∧
      (∀ difference, frame.compareWith previous = .atEnd difference ↔
        Locals.Aligned previous.locals frame.locals ∧
          difference = (frame.locals.entries.length : Int) - previous.locals.entries.length) ∧
      (frame.compareWith previous = .elsewhere ↔
        ¬ Locals.Aligned previous.locals frame.locals) ∧
      ∀ difference, frame.compareWith previous = .atEnd difference →
        previous.compareWith frame = .atEnd (-difference) := by
  have before := previousReachable.sound
  have now := reachable.sound
  rw [compareWith_eq before.counted now.counted, compareWith_eq now.counted before.counted,
    localsCount_eq before.counted, localsCount_eq now.counted]
  have atEnd (difference) : Locals.change previous.locals frame.locals = .atEnd difference ↔ _ :=
    Locals.change_eq_atEnd_iff_aligned before.holes now.holes
  refine ⟨Locals.walk?_eq_change _ _, atEnd, Locals.change_eq_elsewhere_iff before.holes now.holes,
    ?_⟩
  intro difference found
  obtain ⟨aligned, length⟩ := (atEnd difference).mp found
  exact (Locals.change_eq_atEnd_iff_aligned now.holes before.holes).mpr ⟨aligned.symm, by omega⟩

/-- Two values are appended, one of them wide, and the frame before ends with an unused slot. -/
theorem compareWith_eq_atEnd_iff_aligned_wide :
    let previous : Frame := { pc := 0, locals := [some .integer, some .long, none, none] }
    let frame : Frame :=
      { pc := 5, locals := [some .integer, some .long, none, some .float, some .double, none] }
    previous.Reachable ∧ frame.Reachable ∧ frame.compareWith previous = .atEnd 2 ∧
      Locals.Aligned previous.locals frame.locals ∧ previous.compareWith frame = .atEnd (-2) := by
  intro previous frame
  have made : ofSnapshot 5 frame.locals [] = .ok frame := rfl
  have previousMade : ofSnapshot 0 previous.locals [] = .ok previous := rfl
  have reachable : frame.Reachable := .ofSnapshot made
  have previousReachable : previous.Reachable := .ofSnapshot previousMade
  obtain ⟨_, atEnd, _, swapped⟩ := compareWith_eq_atEnd_iff_aligned previousReachable reachable
  exact ⟨previousReachable, reachable, rfl, ((atEnd 2).mp rfl).1, swapped 2 rfl⟩

end JvmFrames.Frame
