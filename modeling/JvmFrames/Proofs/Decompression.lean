import JvmFrames.Proofs.Frame.Memos
import JvmFrames.Proofs.FrameForm
import JvmFrames.Proofs.Locals.Comparison
import JvmFrames.Proofs.Locals.Slots
import Mathlib.Data.List.Forall2

/-!
Reading compressed frames back. A reader knows the offset of the frame before, the entries of its
locals and its stack, and makes the next frame from these and from what is written. The main
statement is that a reader finds every frame that was compressed.
-/

namespace JvmFrames

open VerificationType

/-- What the frame makes of the entries of the frame before: its own entries and its stack. A chop
or an append form outside its range means nothing. -/
def CompressedFrame.expand? (locals : List VerificationType) :
    CompressedFrame VerificationType → Option (List VerificationType × List VerificationType)
  | .same _ => some (locals, [])
  | .oneStackItem _ item => some (locals, [item])
  | .chop _ count =>
    if 1 ≤ count ∧ count ≤ 3 ∧ count.toNat ≤ locals.length then
      some (locals.take (locals.length - count.toNat), [])
    else
      none
  | .append _ added =>
    if 1 ≤ added.length ∧ added.length ≤ 3 then some (locals ++ added, []) else none
  | .full _ locals stack => some (locals, stack)

structure ReadFrame where
  pc : Int
  locals : List VerificationType
  stack : List VerificationType

namespace ReadFrame

def offset (delta : UInt16) : Option Int → Int
  | none => delta.toNat
  | some previous => previous + delta.toNat + 1

def ofCompressed (previous : Option Int) (locals : List VerificationType) :
    List (CompressedFrame VerificationType) → Option (List ReadFrame)
  | [] => some []
  | frame :: rest =>
    match frame.expand? locals with
    | none => none
    | some (entries, stack) =>
      let pc := offset frame.delta previous
      (ofCompressed (some pc) entries rest).map (⟨pc, entries, stack⟩ :: ·)

structure Agrees (read : ReadFrame) (frame : Frame) : Prop where
  pc : read.pc = frame.pc
  locals : erase read.locals = erase frame.locals.entries
  stack : erase read.stack = erase frame.stack

end ReadFrame

theorem erase_append (first second : List VerificationType) :
    erase (first ++ second) = erase first ++ erase second :=
  List.map_append

theorem erase_take (number : Nat) (types : List VerificationType) :
    erase (types.take number) = (erase types).take number :=
  List.map_take

theorem erase_drop (number : Nat) (types : List VerificationType) :
    erase (types.drop number) = (erase types).drop number :=
  List.map_drop

theorem length_eq_of_erase_eq {first second : List VerificationType}
    (same : erase first = erase second) : first.length = second.length := by
  simpa [erase] using congrArg List.length same

namespace Locals.EndsApart

variable {previous current : List VerificationType}

theorem erase_eq (apart : EndsApart previous current 0) : erase current = erase previous := by
  have length := apart.length
  have sameLength : (erase previous).length = (erase current).length := by
    simp only [erase, List.length_map]
    omega
  rcases apart.continued with continued | continued
  · exact (continued.eq_of_length sameLength).symm
  · exact continued.eq_of_length sameLength.symm

theorem erase_append_drop {count : Nat} (apart : EndsApart previous current count) :
    erase previous ++ erase (current.drop (current.length - count)) = erase current := by
  have length := apart.length
  have continued : erase previous <+: erase current := by
    rcases apart.continued with continued | continued
    · exact continued
    · have bound : (erase previous).length ≤ (erase current).length := by
        simp only [erase, List.length_map]
        omega
      exact (continued.eq_of_length_le bound).symm ▸ List.prefix_rfl
  have cut : current.length - count = previous.length := by omega
  have start : erase previous = (erase current).take previous.length := by
    simpa [erase] using List.prefix_iff_eq_take.mp continued
  rw [cut, start, erase, erase, List.map_drop, List.take_append_drop]

theorem erase_take_length {count : Nat} (apart : EndsApart previous current (-count)) :
    (erase previous).take (previous.length - count) = erase current := by
  have length := apart.length
  have continued : erase current <+: erase previous := by
    rcases apart.continued with continued | continued
    · have bound : (erase current).length ≤ (erase previous).length := by
        simp only [erase, List.length_map]
        omega
      exact (continued.eq_of_length_le bound).symm ▸ List.prefix_rfl
    · exact continued
  have cut : previous.length - count = current.length := by omega
  rw [cut]
  simpa [erase] using (List.prefix_iff_eq_take.mp continued).symm

end Locals.EndsApart

namespace Frame

@[simp] theorem delta_compressAs (frame : Frame) (delta : UInt16) (form : FrameForm) :
    (frame.compressAs delta form).delta = delta := by
  unfold compressAs
  repeat' split
  all_goals rfl

/-- From the entries of the frame before, a compressed frame gives the entries and the stack of the
frame. -/
theorem expand?_compressAs {previous frame : Frame} {locals : List VerificationType}
    (wellFormed : frame.locals.WellFormed) (known : erase locals = erase previous.locals.entries)
    (delta : UInt16) :
    ∃ entries, (frame.compressAs delta (frame.formAfter previous)).expand? locals =
        some (entries, frame.stack) ∧ erase entries = erase frame.locals.entries := by
  have expresses := FrameForm.expresses_select (Locals.change previous.locals frame.locals)
    frame.stack.length (frame.offsetDelta (some previous))
  have length := length_eq_of_erase_eq known
  change FrameForm.Expresses (frame.formAfter previous) _ _ at expresses
  generalize frame.formAfter previous = form at expresses
  generalize changed : Locals.change previous.locals frame.locals = change at expresses
  generalize depth : frame.stack.length = items at expresses
  cases expresses with
  | same | sameExtended =>
      obtain ⟨_, _, apart⟩ := Locals.endsApart_of_change changed
      rw [List.length_eq_zero_iff.mp depth]
      exact ⟨locals, rfl, known.trans apart.erase_eq.symm⟩
  | oneStackItem | oneStackItemExtended =>
      obtain ⟨_, _, apart⟩ := Locals.endsApart_of_change changed
      obtain ⟨item, single⟩ := List.length_eq_one_iff.mp depth
      refine ⟨locals, ?_, known.trans apart.erase_eq.symm⟩
      rw [compressAs, single]
      rfl
  | chop count positive small =>
      obtain ⟨_, _, apart⟩ := Locals.endsApart_of_change changed
      have shorter := apart.length
      have word := FrameForm.toNat_ofNat_of_small small
      refine ⟨locals.take (locals.length - count), ?_, ?_⟩
      · rw [List.length_eq_zero_iff.mp depth, compressAs, CompressedFrame.expand?, if_pos, word]
        simp only [UInt8.le_iff_toNat_le, word]
        exact ⟨positive, small, by omega⟩
      · rw [erase_take, known, length, apart.erase_take_length]
  | append count positive small =>
      obtain ⟨_, packed, apart⟩ := Locals.endsApart_of_change changed
      have longer := apart.length
      have word := FrameForm.toNat_ofNat_of_small small
      obtain ⟨slot, found, added⟩ := Locals.entries_drop_slotFromEnd? wellFormed packed
        (by omega : 0 < count) (by omega)
      refine ⟨locals ++ Locals.entries (frame.locals.drop slot), ?_, ?_⟩
      · rw [List.length_eq_zero_iff.mp depth, compressAs, word, found, CompressedFrame.expand?,
          if_pos]
        rw [added, List.length_drop]
        omega
      · rw [erase_append, added, known, apart.erase_append_drop]
  | full => exact ⟨frame.locals.entries, rfl, rfl⟩

theorem pc_of_wordDelta {previous frame : Frame} {delta : UInt16}
    (fits : frame.wordDelta previous = .ok delta) :
    frame.offsetDelta (some previous) = delta.toNat := by
  unfold wordDelta at fits
  simp only at fits
  split at fits
  · rename_i bound
    obtain rfl := Except.ok.inj fits
    rw [UInt16.toNat_ofNat']
    omega
  · contradiction

def Locates (previous : Frame) (known : Option Int) : Prop :=
  (known = none ∧ previous.pc = placeholderPc) ∨ (known = some previous.pc ∧ 0 ≤ previous.pc)

theorem offset_of_wordDelta {previous frame : Frame} {known : Option Int} {delta : UInt16}
    (located : previous.Locates known) (fits : frame.wordDelta previous = .ok delta) :
    ReadFrame.offset delta known = frame.pc ∧ frame.Locates (some frame.pc) := by
  have distance := pc_of_wordDelta fits
  unfold offsetDelta isPlaceholder at distance
  rcases located with ⟨rfl, start⟩ | ⟨rfl, inside⟩
  · simp only [start, decide_true, if_true] at distance
    exact ⟨distance.symm, .inr ⟨rfl, by omega⟩⟩
  · have real : previous.pc ≠ placeholderPc := by
      unfold placeholderPc
      omega
    simp only [real, decide_false, Bool.false_eq_true, if_false] at distance
    refine ⟨?_, .inr ⟨rfl, by omega⟩⟩
    rw [ReadFrame.offset]
    omega

theorem ofCompressed_compressAll {previous : Frame} {frames : List Frame}
    {known : Option Int} {locals : List VerificationType} {records : List PlacedFrame}
    (located : previous.Locates known) (agrees : erase locals = erase previous.locals.entries)
    (wellFormed : ∀ frame ∈ frames, frame.locals.WellFormed)
    (compressed : compressAll previous frames = .ok records) :
    records.map (·.pc) = frames.map (·.pc) ∧
      ∃ read, ReadFrame.ofCompressed known locals (records.map (·.frame)) = some read ∧
        List.Forall₂ ReadFrame.Agrees read frames := by
  -- The reader's entries stand for those of the frame before, whichever copies they hold.
  induction frames generalizing previous known locals records with
  | nil =>
      obtain rfl := Except.ok.inj compressed
      exact ⟨rfl, [], rfl, .nil⟩
  | cons frame rest ih =>
      rw [compressAll] at compressed
      split at compressed
      · contradiction
      · split at compressed
        · contradiction
        · rename_i delta fits
          cases following : compressAll frame rest with
          | error fault => simp [following, Except.map] at compressed
          | ok others =>
              rw [following] at compressed
              obtain rfl := Except.ok.inj compressed
              obtain ⟨entries, expanded, sameEntries⟩ :=
                expand?_compressAs (wellFormed frame List.mem_cons_self) agrees delta
              obtain ⟨offset, nextLocated⟩ := offset_of_wordDelta located fits
              obtain ⟨pcs, read, decoded, all⟩ := ih nextLocated sameEntries
                (fun other member => wellFormed other (List.mem_cons_of_mem _ member)) following
              refine ⟨by simp [pcs], ⟨frame.pc, entries, frame.stack⟩ :: read, ?_,
                .cons ⟨rfl, sameEntries, rfl⟩ all⟩
              simp only [List.map_cons, ReadFrame.ofCompressed, expanded, delta_compressAs, offset,
                decoded, Option.map_some]

end Frame

/-- Compression loses nothing: from the entries of the frame on method entry, a reader of the
compressed frames finds the offset, the locals and the stack of every frame. -/
theorem ReadFrame.ofCompressed_of_outcome (entry : Frame) (frames : List Frame)
    (records : List PlacedFrame) (onEntry : entry.pc = Frame.placeholderPc)
    (entryWellFormed : entry.WellFormed) (wellFormed : ∀ frame ∈ frames, frame.WellFormed)
    (forgotten : ∀ frame ∈ frames, frame.knownChange = none)
    (compressed : (Encoding.ofFrames entry frames).outcome = .ok records) :
    records.map (·.pc) = frames.map (·.pc) ∧
      ∃ read, ofCompressed none entry.locals.entries (records.map (·.frame)) = some read ∧
        List.Forall₂ Agrees read frames := by
  have truthful := Encoding.truthful_of_forgotten entryWellFormed.counted
    (fun frame member => (wellFormed frame member).counted) forgotten
  rw [Encoding.outcome_ofFrames truthful] at compressed
  exact Frame.ofCompressed_compressAll (.inl ⟨rfl, onEntry⟩) rfl
    (fun frame member => (wellFormed frame member).holes) compressed

/-- A wide local behind an unused slot is appended and then chopped off again. -/
theorem ReadFrame.ofCompressed_of_outcome_wide_local :
    (Encoding.ofFrames { pc := -1, locals := [some .integer] }
        [{ pc := 4, locals := [some .integer, some .top, some .long, none] },
          { pc := 8, locals := [some .integer, some .top, none] }]).outcome =
        .ok [⟨4, .append 4 [.top, .long]⟩, ⟨8, .chop 3 1⟩] ∧
      ∃ read, ofCompressed none [.integer] [.append 4 [.top, .long], .chop 3 1] = some read ∧
        List.Forall₂ Agrees read
          [{ pc := 4, locals := [some .integer, some .top, some .long, none] },
            { pc := 8, locals := [some .integer, some .top, none] }] :=
  ⟨rfl, (ReadFrame.ofCompressed_of_outcome { pc := -1, locals := [some .integer] }
    [{ pc := 4, locals := [some .integer, some .top, some .long, none] },
      { pc := 8, locals := [some .integer, some .top, none] }]
    [⟨4, .append 4 [.top, .long]⟩, ⟨8, .chop 3 1⟩]
    rfl (by decide) (by decide) (by decide) rfl).2⟩

end JvmFrames
