import JvmFrames.Proofs.CompressedFrame.ByteReader
import JvmFrames.Proofs.CompressedFrame.Resolution
import JvmFrames.Proofs.Decompression
import JvmFrames.Proofs.Frame.Sound

/-!
The form that is announced for a frame and the form the frame is written in. They are the same
whatever the frame remembers about its locals, because a remembered change was found with the locals
that the frame still has.
-/

namespace JvmFrames

open VerificationType

namespace CompressedFrame

variable {α β : Type}

def Counted : CompressedFrame α → Prop
  | .chop _ count => 1 ≤ count ∧ count ≤ 3
  | .append _ locals => 1 ≤ locals.length ∧ locals.length ≤ 3
  | .same _ | .oneStackItem _ _ | .full _ _ _ => True

theorem Counted.map {frame : CompressedFrame α} (counted : frame.Counted) (change : α → β) :
    (frame.map change).Counted := by
  cases frame with
  | append delta locals => simpa [CompressedFrame.map, Counted] using counted
  | chop delta count => exact counted
  | same | oneStackItem | full => trivial

theorem counted_fault_cases (entries : List TypeEntry) :
    (Written.counted writeEntry entries).fault = none ∨
      (Written.counted writeEntry entries).fault = some (.tooLong entries.length) := by
  by_cases short : entries.length ≤ 65535
  · exact .inl ((counted_writeEntry_fault entries).mpr short)
  · rw [Written.counted, if_neg (by omega)]
    exact .inr rfl

/-- Counted frames can be refused for the length of a list only. -/
theorem Counted.fault_cases {frame : CompressedFrame TypeEntry} (counted : frame.Counted) :
    frame.write.fault = none ∨ ∃ length, frame.write.fault = some (.tooLong length) := by
  cases frame with
  | same | oneStackItem => exact .inl rfl
  | chop | append => exact .inl ((write_fault _).mpr counted)
  | full delta locals stack =>
      simp only [write, Written.andThen_of_bytes]
      unfold Written.andThen
      rcases counted_fault_cases locals with whole | long
      · rw [whole]
        exact (counted_fault_cases stack).imp_right fun long => ⟨_, long⟩
      · rw [long]
        exact .inr ⟨_, long⟩

end CompressedFrame

namespace Frame

def Offers (frame : Frame) : FrameForm → Prop
  | .oneStackItem | .oneStackItemExtended => ∃ item, frame.stack = [item]
  | .chop count => 1 ≤ count ∧ count ≤ 3
  | .append count => 1 ≤ count ∧ count ≤ 3 ∧ ∃ slot,
      frame.locals.slotFromEnd? count.toNat = some slot ∧
        (Locals.entries (frame.locals.drop slot)).length = count.toNat
  | .same | .sameExtended | .full => True

/-- The locals said to be appended are among those of the frame, whether it remembers the change or
not, and whichever frame it was compared with. -/
theorem packed_of_change {frame : Frame} (counted : frame.CountTrue)
    (founded : frame.ChangeFounded) {previous : Option Frame} {difference : Int}
    (appended : 0 < difference) (found : frame.change previous = .atEnd difference) :
    Locals.Packed frame.locals.cells frame.locals.entries ∧
      difference ≤ frame.locals.entries.length := by
  cases known : frame.knownChange with
  | some change =>
      obtain rfl : change = .atEnd difference := by simpa [Frame.change, known] using found
      rcases founded _ known with none | ⟨before, _, compared⟩
      · obtain rfl := LocalsChange.atEnd.inj none
        contradiction
      · rw [change_forget] at compared
        exact Locals.packed_of_changeFrom compared.symm
  | none =>
      cases previous with
      | none =>
          obtain rfl : 0 = difference := by simpa [Frame.change, known] using found
          contradiction
      | some previous =>
          have compared : frame.compareWith previous = .atEnd difference := by
            simpa [Frame.change, known] using found
          rw [compareWith, localsCount_eq counted] at compared
          exact Locals.packed_of_changeFrom compared

theorem offers_form {frame : Frame} (wellFormed : frame.WellFormed)
    (founded : frame.ChangeFounded) (previous : Option Frame) :
    frame.Offers (frame.form previous) := by
  have expresses := FrameForm.expresses_select (frame.change previous) frame.stack.length
    (frame.offsetDelta previous)
  change FrameForm.Expresses (frame.form previous) _ _ at expresses
  generalize frame.form previous = form at expresses ⊢
  generalize changed : frame.change previous = change at expresses
  generalize depth : frame.stack.length = items at expresses
  cases expresses with
  | same | sameExtended | full => trivial
  | oneStackItem | oneStackItemExtended => exact List.length_eq_one_iff.mp depth
  | chop count positive small =>
      have word := FrameForm.toNat_ofNat_of_small small
      simp only [Offers, UInt8.le_iff_toNat_le, word]
      exact ⟨positive, small⟩
  | append count positive small =>
      have word := FrameForm.toNat_ofNat_of_small small
      obtain ⟨packed, bound⟩ := packed_of_change wellFormed.counted founded (by omega) changed
      obtain ⟨slot, found, added⟩ := Locals.entries_drop_slotFromEnd? wellFormed.holes packed
        (by omega : 0 < count) (by omega)
      simp only [Offers, UInt8.le_iff_toNat_le, word]
      refine ⟨positive, small, slot, found, ?_⟩
      rw [added, List.length_drop]
      omega

/-- A frame that has what the form takes is written in that form. -/
theorem form_compressAs {frame : Frame} {form : FrameForm} {delta : UInt16}
    (offers : frame.Offers form) (fits : form.Fits delta.toNat) :
    (frame.compressAs delta form).form = form ∧ (frame.compressAs delta form).Counted := by
  cases form with
  | same | sameExtended =>
      refine ⟨?_, trivial⟩
      simp only [FrameForm.Fits, FrameForm.maxShortDelta] at fits
      simp only [compressAs, CompressedFrame.form, CompressedFrame.isShort, CompressedFrame.delta]
      grind
  | oneStackItem | oneStackItemExtended =>
      obtain ⟨item, single⟩ := offers
      rw [compressAs, single]
      refine ⟨?_, trivial⟩
      simp only [FrameForm.Fits, FrameForm.maxShortDelta] at fits
      simp only [CompressedFrame.form, CompressedFrame.isShort, CompressedFrame.delta]
      grind
  | chop count => exact ⟨rfl, offers⟩
  | append count =>
      obtain ⟨positive, small, slot, found, length⟩ := offers
      rw [UInt8.le_iff_toNat_le] at positive small
      have below : count.toNat ≤ 3 := small
      have clamped : min count.toNat 255 = count.toNat := by omega
      rw [compressAs, found]
      simp only [CompressedFrame.form, CompressedFrame.Counted, length, clamped, UInt8.ofNat_toNat]
      exact ⟨trivial, positive, below⟩
  | full => exact ⟨rfl, trivial⟩

/-- A frame that can be made has what its form takes, at whatever distance from the frame before. -/
theorem Reachable.compressAs {previous frame : Frame} {delta : UInt16}
    (reachable : frame.Reachable) (distance : frame.offsetDelta (some previous) = delta.toNat) :
    frame.Offers (frame.form (some previous)) ∧
      (frame.compressAs delta (frame.form (some previous))).form = frame.form (some previous) ∧
      (frame.compressAs delta (frame.form (some previous))).Counted := by
  have sound := reachable.sound
  have offers := offers_form sound.toWellFormed sound.founded (some previous)
  have fits : (frame.form (some previous)).Fits delta.toNat := by
    rw [← distance]
    exact FrameForm.fits_select _ _ _
  exact ⟨offers, form_compressAs offers fits⟩

theorem compress_eq_ok {previous frame : Frame} {written : CompressedFrame VerificationType}
    (success : frame.compress previous = .ok written) :
    ∃ delta, frame.offsetDelta (some previous) = delta.toNat ∧
      written = frame.compressAs delta (frame.form (some previous)) := by
  rw [compress_eq] at success
  cases fits : frame.wordDelta previous with
  | error fault => simp [fits, Except.map] at success
  | ok delta =>
      rw [fits] at success
      exact ⟨delta, pc_of_wordDelta fits, (Except.ok.inj success).symm⟩

theorem compress_of_fits {previous frame : Frame}
    (fits : 0 ≤ frame.offsetDelta (some previous) ∧ frame.offsetDelta (some previous) < 65536) :
    ∃ delta : UInt16, frame.offsetDelta (some previous) = delta.toNat ∧
      frame.compress previous = .ok (frame.compressAs delta (frame.form (some previous))) := by
  have word : frame.wordDelta previous =
      .ok (UInt16.ofNat (frame.offsetDelta (some previous)).toNat) := by
    rw [wordDelta]
    exact if_pos fits
  refine ⟨_, pc_of_wordDelta word, ?_⟩
  rw [compress_eq, word]
  rfl

/-- A frame is written in the form that is announced for it, with the number of locals that the form
announces, and never in full for lack of an item or of a slot. So no resolved frame is refused for
its number of locals. -/
theorem form_compress {previous frame : Frame} {written : CompressedFrame VerificationType}
    (reachable : frame.Reachable) (success : frame.compress previous = .ok written) :
    written.form = frame.form (some previous) ∧
      (∀ count, frame.form (some previous) = .append count →
        ∃ delta locals, written = .append delta locals ∧ locals.length = count.toNat) ∧
      (∀ delta locals, written = .append delta locals → 1 ≤ locals.length ∧ locals.length ≤ 3) ∧
      (∀ delta count, written = .chop delta count → 1 ≤ count ∧ count ≤ 3) ∧
      frame.Offers (frame.form (some previous)) ∧
      ∀ pool after resolved, pool.Reachable → written.resolve.run.run pool = (.ok resolved, after) →
        resolved.write.fault ≠ some .chopCount ∧ resolved.write.fault ≠ some .appendCount := by
  obtain ⟨delta, distance, rfl⟩ := compress_eq_ok success
  obtain ⟨offers, form, counted⟩ := reachable.compressAs distance
  refine ⟨form, ?_, ?_, ?_, offers, ?_⟩
  · intro count announced
    rw [announced] at offers ⊢
    obtain ⟨_, _, slot, found, length⟩ := offers
    exact ⟨delta, _, by rw [compressAs, found], length⟩
  · intro delta locals same
    rwa [same] at counted
  · intro delta count same
    rwa [same] at counted
  · intro pool after resolved poolReachable run
    obtain ⟨number, rfl⟩ := CompressedFrame.exists_map_of_resolve poolReachable run
    rcases (counted.map (VerificationType.entry number)).fault_cases with whole | ⟨length, long⟩
    · simp [whole]
    · simp [long]

/-- The frame remembers a value appended to another frame than the one it is compressed after. -/
theorem form_compress_remembered :
    let compared : Frame := { pc := 0, locals := [some .integer] }
    let frame : Frame := rememberChange
      { pc := 5, locals := [some .integer, some .double, none] } (some compared)
    frame.Reachable ∧ frame.compress placeholder = .ok (.append 5 [.double]) ∧
      frame.form (some placeholder) = (CompressedFrame.append 5 [VerificationType.double]).form ∧
      frame.Offers (frame.form (some placeholder)) := by
  intro compared frame
  have made : ofSnapshot 5 [some .integer, some .double, none] [] =
      .ok { pc := 5, locals := [some .integer, some .double, none] } := rfl
  have comparedMade : ofSnapshot 0 compared.locals [] = .ok compared := rfl
  have reachable : frame.Reachable :=
    .rememberChange (.ofSnapshot made) (.ofSnapshot comparedMade)
  have written : frame.compress placeholder = .ok (.append 5 [.double]) := rfl
  obtain ⟨form, _, _, _, offers, _⟩ := form_compress reachable written
  exact ⟨reachable, written, form.symm, offers⟩

end Frame

end JvmFrames
