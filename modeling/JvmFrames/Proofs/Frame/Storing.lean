import JvmFrames.Proofs.Frame.Memos
import JvmFrames.Proofs.Locals.Cells
import JvmFrames.Proofs.Locals.Storing

/-!
Storing into a local of a frame, compared with what a store means: whatever is left of a wide value
of which one half is stored over becomes unusable. The main statement says which stores do that, and
what the others leave.
-/

namespace JvmFrames

namespace Locals

variable {before : Locals} {slot other : Nat} {type : VerificationType}

def CutOff (locals : Locals) (slot width other : Nat) : Prop :=
  ∃ value, isWide (locals[value]?).join = true ∧
    (other = value ∧ slot ≤ value + 1 ∧ value + 1 < slot + width ∨
      other = value + 1 ∧ slot ≤ value ∧ value < slot + width)

/-- What a store means: the value and its hole are there, what is left of a wide value is unusable,
and every other slot is as it was, or empty if it is new. -/
structure Stored (before after : Locals) (slot : Nat) (type : VerificationType) : Prop where
  value : after[slot]? = some (some type)
  hole : type.isWide = true → after[slot + 1]? = some none
  length : after.length = max before.length (slot + type.width)
  cut : ∀ other, Outside slot type.width other → before.CutOff slot type.width other →
    after[other]? = some (some .top)
  kept : ∀ other, Outside slot type.width other → ¬ before.CutOff slot type.width other →
    other < after.length → after[other]? = some (before[other]?).join

def HoleOverlaps (locals : Locals) (slot : Nat) (type : VerificationType) : Prop :=
  type.isWide = true ∧ isWide (locals[slot + 1]?).join = true

theorem cutOff_iff (outside : Outside slot type.width other) :
    before.CutOff slot type.width other ↔
      before.Halved slot other ∨ before.HoleOverlaps slot type ∧ other = slot + 2 := by
  unfold CutOff Halved HoleOverlaps
  unfold Outside at outside
  constructor
  -- A hole is left over when the store ends at its value, which a wide store does one slot later.
  · rintro ⟨value, wideValue, ⟨rfl, _, _⟩ | ⟨rfl, _, _⟩⟩
    · exact .inl (.inr ⟨by omega, wideValue⟩)
    · rcases width_cases type with ⟨wide, width⟩ | ⟨_, width⟩
      · obtain rfl : value = slot + 1 := by omega
        exact .inr ⟨⟨wide, wideValue⟩, rfl⟩
      · obtain rfl : value = slot := by omega
        exact .inl (.inl ⟨rfl, wideValue⟩)
  · have positive : 1 ≤ type.width := by
      rcases width_cases type with ⟨_, width⟩ | ⟨_, width⟩ <;> omega
    rintro ((⟨rfl, wideValue⟩ | ⟨rfl, wideValue⟩) | ⟨⟨wide, wideValue⟩, rfl⟩)
    · exact ⟨slot, wideValue, .inr ⟨rfl, by omega, by omega⟩⟩
    · exact ⟨other, wideValue, .inl ⟨rfl, by omega, by omega⟩⟩
    · have width : type.width = 2 := by rw [VerificationType.width, if_pos wide]
      exact ⟨slot + 1, wideValue, .inr ⟨rfl, by omega, by omega⟩⟩

/-- Both slots of a wide value are within well-formed locals, so what is left of it is. -/
theorem lt_length_of_cutOff (wellFormed : before.WellFormed)
    (cut : before.CutOff slot type.width other) : other < (before.put slot type).length := by
  obtain ⟨value, wide, place⟩ := cut
  obtain ⟨stored, found⟩ := exists_of_isWide wide
  rw [found] at wide
  have hole := wellFormed value stored (Option.join_eq_some_iff.mp found) wide
  have bound := (List.getElem?_eq_some_iff.mp hole).1
  rw [length_put]
  omega

theorem stored_put (wellFormed : before.WellFormed) (apart : ¬ before.HoleOverlaps slot type) :
    Stored before (before.put slot type) slot type where
  value := getElem?_put_slot before slot type
  hole := getElem?_put_hole before slot
  length := length_put before slot type
  cut other outside cut := by
    have halved : before.Halved slot other :=
      ((cutOff_iff outside).mp cut).resolve_right fun overlap => apart overlap.1
    rw [getElem?_put_outside outside (lt_length_of_cutOff wellFormed cut), if_pos halved]
  kept other outside whole inside := by
    have notHalved : ¬ before.Halved slot other := fun halved =>
      whole ((cutOff_iff outside).mpr (.inl halved))
    rw [getElem?_put_outside outside inside, if_neg notHalved]

/-- The hole of the wide value that the stored value's own hole takes the place of. -/
theorem cutOff_of_holeOverlaps (overlaps : before.HoleOverlaps slot type) :
    Outside slot type.width (slot + 2) ∧ before.CutOff slot type.width (slot + 2) := by
  have width : type.width = 2 := by rw [VerificationType.width, if_pos overlaps.1]
  have outside : Outside slot type.width (slot + 2) := .inr (by omega)
  exact ⟨outside, (cutOff_iff outside).mpr (.inr ⟨overlaps, rfl⟩)⟩

theorem getElem?_put_of_holeOverlaps (wellFormed : before.WellFormed)
    (overlaps : before.HoleOverlaps slot type) :
    (before.put slot type)[slot + 2]? = some none := by
  obtain ⟨outside, cut⟩ := cutOff_of_holeOverlaps overlaps
  obtain ⟨stored, found⟩ := exists_of_isWide overlaps.2
  have wide := overlaps.2
  rw [found] at wide
  have hole := wellFormed (slot + 1) stored (Option.join_eq_some_iff.mp found) wide
  have notHalved : ¬ before.Halved slot (slot + 2) := by
    rintro (⟨same, _⟩ | ⟨same, _⟩) <;> omega
  rw [getElem?_put_outside outside (lt_length_of_cutOff wellFormed cut), if_neg notHalved, hole]
  rfl

/-- Only the far hole of the overlapped value keeps a store from doing what it means. -/
theorem stored_set_of_holeOverlaps (wellFormed : before.WellFormed)
    (overlaps : before.HoleOverlaps slot type) :
    Stored before ((before.put slot type).set (slot + 2) (some .top)) slot type where
  value := by
    rw [List.getElem?_set_ne (by omega)]
    exact getElem?_put_slot before slot type
  hole wide := by
    rw [List.getElem?_set_ne (by omega)]
    exact getElem?_put_hole before slot wide
  length := by
    rw [List.length_set]
    exact length_put before slot type
  cut other outside cut := by
    have inside := lt_length_of_cutOff wellFormed cut
    rcases (cutOff_iff outside).mp cut with halved | ⟨_, rfl⟩
    · have elsewhere : slot + 2 ≠ other := by
        rcases halved with ⟨same, _⟩ | ⟨same, _⟩ <;> omega
      rw [List.getElem?_set_ne elsewhere, getElem?_put_outside outside inside, if_pos halved]
    · rw [List.getElem?_set_self inside]
  kept other outside whole inside := by
    rw [List.length_set] at inside
    have elsewhere : slot + 2 ≠ other := by
      rintro rfl
      exact whole (cutOff_of_holeOverlaps overlaps).2
    have notHalved : ¬ before.Halved slot other := fun halved =>
      whole ((cutOff_iff outside).mpr (.inl halved))
    rw [List.getElem?_set_ne elsewhere, getElem?_put_outside outside inside, if_neg notHalved]

end Locals

namespace Frame

open Locals

/-- A store into a well-formed frame does what it means exactly if the hole of the stored value does
not take the place of another wide value. Otherwise it leaves the hole of that value empty, which
should be unusable, and that slot is the only one that is wrong. -/
theorem stored_put_iff {frame : Frame} (wellFormed : frame.WellFormed) (slot : Nat)
    (type : VerificationType) :
    (Stored frame.locals (frame.put slot type).locals slot type ↔
        ¬ frame.locals.HoleOverlaps slot type) ∧
      (frame.locals.HoleOverlaps slot type →
        (frame.put slot type).locals[slot + 2]? = some none ∧
          Stored frame.locals ((frame.put slot type).locals.set (slot + 2) (some .top)) slot
            type) := by
  refine ⟨⟨?_, stored_put wellFormed.holes⟩, ?_⟩
  · intro stored overlaps
    obtain ⟨outside, cut⟩ := cutOff_of_holeOverlaps overlaps
    have unusable := stored.cut (slot + 2) outside cut
    have empty : (frame.put slot type).locals[slot + 2]? = some none :=
      getElem?_put_of_holeOverlaps wellFormed.holes overlaps
    rw [empty] at unusable
    contradiction
  · intro overlaps
    exact ⟨getElem?_put_of_holeOverlaps wellFormed.holes overlaps,
      stored_set_of_holeOverlaps wellFormed.holes overlaps⟩

/-- A wide store over the hole of a wide value, which reaches the empty slot in front of another. -/
theorem stored_put_iff_between :
    let frame : Frame := { pc := 0, locals := [some .long, none, none, some .double, none] }
    frame.WellFormed ∧
      (frame.put 1 .long).locals = [some .top, some .long, none, some .double, none] ∧
      Stored frame.locals (frame.put 1 .long).locals 1 .long := by
  intro frame
  have wellFormed : frame.WellFormed := by decide
  have apart : ¬ frame.locals.HoleOverlaps 1 .long := by
    rintro ⟨_, wide⟩
    contradiction
  exact ⟨wellFormed, rfl, (stored_put_iff wellFormed 1 .long).1.mpr apart⟩

/-- The first half of a wide value becomes the hole of another, and its second half stays empty. -/
theorem not_stored_put_in_front :
    let frame : Frame := { pc := 0, locals := [none, some .long, none] }
    frame.WellFormed ∧ (frame.put 0 .long).locals = [some .long, none, none] ∧
      frame.locals.CutOff 0 2 2 ∧ ¬ Stored frame.locals (frame.put 0 .long).locals 0 .long := by
  intro frame
  have cut : frame.locals.CutOff 0 2 2 := ⟨1, rfl, .inr ⟨rfl, by decide, by decide⟩⟩
  refine ⟨by decide, rfl, cut, ?_⟩
  intro stored
  have unusable := stored.cut 2 (.inr (by decide)) cut
  have empty : (frame.put 0 .long).locals[2]? = some none := rfl
  rw [empty] at unusable
  contradiction

end Frame

end JvmFrames
