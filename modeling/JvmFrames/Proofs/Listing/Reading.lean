import JvmFrames.Proofs.Listing.Acceptance
import JvmFrames.Proofs.Listing.Writing

/-!
What a reader makes of a written listing. Word by word and line by line it gives back what was
written, with a marker of its own for every site it meets.
-/

namespace JvmFrames

open MarkerBook VerificationType

namespace Frame

def slotMarks (slot : Option VerificationType) : List (Site × Marker) :=
  (slot.bind mark?).toList

def marks (frame : Frame) : List (Site × Marker) :=
  frame.slots.flatMap slotMarks

def relabel (image : Site → Marker) (frame : Frame) : Frame where
  pc := frame.pc
  locals := frame.locals.map (Option.map (VerificationType.relabel image))
  stack := frame.stack.map (VerificationType.relabel image)

end Frame

namespace TypeToken

theorem slot_ofSlot (image : Site → Marker) (slot : Option VerificationType) :
    (ofSlot slot).slot image = slot.map (relabel image) := by
  cases slot with
  | none => rfl
  | some type => cases type <;> rfl

theorem sites_ofSlot (slot : Option VerificationType) :
    (ofSlot slot).sites = (Frame.slotMarks slot).map Prod.fst := by
  cases slot with
  | none => rfl
  | some type => cases type <;> rfl

theorem ofSlot_ne_unused (type : VerificationType) : ofSlot (some type) ≠ .unused := by
  cases type <;> simp [ofSlot]

theorem ofSlot_eq_top_iff {type : VerificationType} : ofSlot (some type) = .top ↔ type = .top := by
  cases type <;> simp [ofSlot]

end TypeToken

namespace Listing

def LineTokens.ofFrame (frame : Frame) : LineTokens where
  pc := frame.pc
  locals := frame.locals.map TypeToken.ofSlot
  stack := (frame.stack.map some).map TypeToken.ofSlot

theorem frame_ofFrame (image : Site → Marker) (frame : Frame) :
    (LineTokens.ofFrame frame).frame image = frame.relabel image := by
  have stack : frame.stack.filterMap (fun type => some (relabel image type)) =
      frame.stack.map (relabel image) := congrFun List.filterMap_eq_map frame.stack
  simp only [LineTokens.ofFrame, LineTokens.frame, Frame.relabel, List.map_map,
    List.filterMap_map, Function.comp_def, TypeToken.slot_ofSlot, Option.map_some, stack]

def frameSites (frame : Frame) : List Site :=
  frame.marks.map Prod.fst

theorem sites_ofFrame (frame : Frame) : (LineTokens.ofFrame frame).sites = frameSites frame := by
  rw [frameSites, Frame.marks, Frame.slots, List.flatMap_append, List.map_append,
    List.map_flatMap, List.map_flatMap]
  simp only [LineTokens.ofFrame, LineTokens.sites, List.flatMap_map, TypeToken.sites_ofSlot]

theorem spells_slotWords {slots : List (Option VerificationType)}
    (listable : ∀ slot ∈ slots, ∀ type ∈ slot, type.Listable) :
    Spells (slotWords slots) (slots.map TypeToken.ofSlot) :=
  List.forall₂_map_left_iff.mpr (List.forall₂_map_right_iff.mpr (List.forall₂_same.mpr
    fun slot member => TypeToken.read_slotText (listable slot member)))

section Lines

variable {isEntry : Bool} {head : String} {frame : Frame}

theorem acceptable_writeFrame (isHead : IsHead isEntry frame.pc head.toList)
    (listable : frame.Listable) :
    Acceptable isEntry (Text.trim (writeFrame head frame).toList) (.ofFrame frame) where
  fields := by
    refine ⟨_, _, _, splitLine_writeFrame isHead listable, isHead.read, ?_, ?_⟩
    · rw [Text.words_unwords (isWord_slotWords listable.locals)]
      exact spells_slotWords listable.locals
    · rw [Text.words_unwords (isWord_slotWords listable.stack)]
      exact spells_slotWords listable.stack
  holes := by
    have wellFormed := Locals.wellFormed_map
      (fun type wide => isWide_relabel (fun _ => ⟨0, 0⟩) type ▸ wide) listable.wellFormed
    rw [← wellFormed_slots_iff fun _ => ⟨0, 0⟩]
    simpa only [LineTokens.ofFrame, List.map_map, Function.comp_def, TypeToken.slot_ofSlot]
      using wellFormed
  used := by
    simp [LineTokens.ofFrame, TypeToken.ofSlot_ne_unused]

theorem reads_frame (isHead : IsHead isEntry frame.pc head.toList) (listable : frame.Listable)
    (number : Nat) :
    Reads (frameSites frame)
      (readFrame number isEntry (Text.trim (writeFrame head frame).toList))
      fun image => frame.relabel image := by
  have noTop : .top ∉ (LineTokens.ofFrame frame).stack := by
    have usable := listable.noTop
    simpa [LineTokens.ofFrame, TypeToken.ofSlot_eq_top_iff] using usable
  have reads := (acceptable_writeFrame isHead listable).reads_frame noTop number
  simpa only [sites_ofFrame, frame_ofFrame] using reads

theorem reads_cons {lines : List (List Char)} {sites : List Site} {number : Nat}
    {result : (Site → Marker) → List Frame} (isHead : IsHead isEntry frame.pc head.toList)
    (listable : frame.Listable)
    (following : Reads sites (readFrames (number + 1) false lines) result) :
    Reads (frameSites frame ++ sites)
      (readFrames number isEntry ((writeFrame head frame).toList :: lines))
      fun image => frame.relabel image :: result image := by
  rw [readFrames, if_neg (by simp [isSilent_writeFrame isHead listable])]
  refine (reads_frame isHead listable number).bind (fun read image => read :: result image) ?_
  intro _ read _
  exact following.map (read :: ·)

end Lines

theorem reads_frames {frames : List Frame}
    (offsets : ∀ frame ∈ frames, 0 ≤ frame.pc ∧ frame.pc < 65536)
    (listable : ∀ frame ∈ frames, frame.Listable) (number : Nat) :
    Reads (frames.flatMap frameSites)
      (readFrames number false
        (frames.map fun frame => (writeFrame (toString frame.pc) frame).toList))
      fun image => frames.map (Frame.relabel image) := by
  induction frames generalizing number with
  | nil => exact reads_pure []
  | cons frame rest ih =>
      obtain ⟨⟨lower, upper⟩, restOffsets⟩ := List.forall_mem_cons.mp offsets
      obtain ⟨frameListable, restListable⟩ := List.forall_mem_cons.mp listable
      exact reads_cons (isHead_offset lower upper) frameListable
        (ih restOffsets restListable (number + 1))

theorem reads_lines {listing : Listing} (listable : listing.Listable) :
    Reads ((listing.entry :: listing.frames).flatMap frameSites)
      (readFrames 1 true (listing.lines.map String.toList))
      fun image => (listing.entry :: listing.frames).map (Frame.relabel image) := by
  obtain ⟨entryListable, framesListable⟩ := List.forall_mem_cons.mp listable.frames
  rw [lines, List.map_cons, List.map_map]
  exact reads_cons listable.isHead entryListable (reads_frames listable.offsets framesListable 2)

theorem read_of_lines {listing : Listing} (listable : listing.Listable) (supply : MarkerSupply) :
    ∃ book : MarkerBook, book.Sound ∧
      (∀ frame ∈ listing.entry :: listing.frames, ∀ mark ∈ frame.marks, book.Knows mark.1) ∧
      (read listing.write).run.run supply =
        (.ok ⟨listing.entry.relabel book.image, listing.frames.map (Frame.relabel book.image)⟩,
          book.supply) := by
  obtain ⟨book, run, sound, _, knows⟩ := (reads_lines listable).run { supply } (sound_start supply)
  refine ⟨book, sound, ?_, ?_⟩
  · intro frame frameMember mark markMember
    exact knows _ (List.mem_flatMap.mpr
      ⟨frame, frameMember, List.mem_map.mpr ⟨mark, markMember, rfl⟩⟩)
  · change read listing.write supply = _
    rw [read, splitOn_write listable, run]
    rfl

end Listing

end JvmFrames
