import JvmFrames.MethodFrames
import JvmFrames.Proofs.Frame.Memos

/-!
Lists of frames in ascending order of their offsets: what inserting and replacing a frame does to
the frame at each offset, to the order, and to what the frames remember.
-/

namespace JvmFrames.MethodFrames

open JvmFrames.Frame Encoding

def Ascending (frames : List Frame) : Prop :=
  frames.Pairwise fun before after => before.pc < after.pc

def frameIn? (frames : List Frame) (pc : Int) : Option Frame :=
  frames.find? fun frame => frame.pc = pc

theorem frameIn?_eq_some_iff {frames : List Frame} (ascending : Ascending frames) {pc : Int}
    {frame : Frame} : frameIn? frames pc = some frame ↔ frame ∈ frames ∧ frame.pc = pc := by
  induction frames with
  | nil => simp [frameIn?]
  | cons first rest ih =>
      obtain ⟨above, restAscending⟩ := List.pairwise_cons.mp ascending
      by_cases here : first.pc = pc
      · simp only [frameIn?, List.find?_cons, here, decide_true, Option.some.injEq, List.mem_cons]
        constructor
        · rintro rfl
          exact ⟨.inl rfl, here⟩
        · rintro ⟨rfl | later, same⟩
          · rfl
          · have order := above frame later
            omega
      · have found : frameIn? (first :: rest) pc = frameIn? rest pc := by
          simp [frameIn?, here]
        rw [found, ih restAscending, List.mem_cons]
        constructor
        · rintro ⟨later, same⟩
          exact ⟨.inr later, same⟩
        · rintro ⟨rfl | later, same⟩
          · exact absurd same here
          · exact ⟨later, same⟩

theorem frameIn?_map (change : Frame → Frame) (samePc : ∀ frame, (change frame).pc = frame.pc)
    (frames : List Frame) (pc : Int) :
    frameIn? (frames.map change) pc = (frameIn? frames pc).map change := by
  rw [frameIn?, List.find?_map]
  simp only [Function.comp_def, samePc]
  rfl

theorem ascending_map (change : Frame → Frame) (samePc : ∀ frame, (change frame).pc = frame.pc)
    {frames : List Frame} : Ascending (frames.map change) ↔ Ascending frames := by
  simp [Ascending, List.pairwise_map, samePc]

theorem frameIn?_map_forget (frames : List Frame) (pc : Int) :
    frameIn? (frames.map forget) pc = (frameIn? frames pc).map forget :=
  frameIn?_map forget (fun _ => rfl) frames pc

theorem ascending_map_forget {frames : List Frame} :
    Ascending (frames.map forget) ↔ Ascending frames :=
  ascending_map forget fun _ => rfl

theorem Ascending.nodup {frames : List Frame} (ascending : Ascending frames) : frames.Nodup :=
  ascending.imp fun before same => absurd (same ▸ before) (Int.lt_irrefl _)

/-- Ordered lists with the same frame at each offset are the same. -/
theorem eq_of_frameIn? {first second : List Frame} (firstAscending : Ascending first)
    (secondAscending : Ascending second) (found : ∀ pc, frameIn? first pc = frameIn? second pc) :
    first = second := by
  have sameMembers : first.Perm second := by
    rw [List.perm_ext_iff_of_nodup firstAscending.nodup secondAscending.nodup]
    intro frame
    have here := found frame.pc
    constructor
    · intro member
      rw [(frameIn?_eq_some_iff firstAscending).mpr ⟨member, rfl⟩] at here
      exact ((frameIn?_eq_some_iff secondAscending).mp here.symm).1
    · intro member
      rw [(frameIn?_eq_some_iff secondAscending).mpr ⟨member, rfl⟩] at here
      exact ((frameIn?_eq_some_iff firstAscending).mp here).1
  exact sameMembers.eq_of_pairwise
    (fun _ _ _ _ before after => absurd before (Int.lt_asymm after)) firstAscending secondAscending

theorem frameIn?_eq_none_iff {frames : List Frame} {pc : Int} :
    frameIn? frames pc = none ↔ ∀ frame ∈ frames, frame.pc ≠ pc := by
  simp [frameIn?]

theorem mem_insertFrame {frame other : Frame} {frames : List Frame}
    (member : other ∈ insertFrame frame frames) :
    other.pc = frame.pc ∨ ∃ old ∈ frames, old.pc = other.pc := by
  have moved := (insertFrame_pcs frame frames).subset (List.mem_map_of_mem member)
  rcases List.mem_cons.mp moved with same | old
  · exact .inl same
  · obtain ⟨old, oldMember, same⟩ := List.mem_map.mp old
    exact .inr ⟨old, oldMember, same⟩

theorem ascending_insertFrame {frame : Frame} {frames : List Frame} (ascending : Ascending frames)
    (absent : ∀ other ∈ frames, other.pc ≠ frame.pc) : Ascending (insertFrame frame frames) := by
  induction frames with
  | nil => exact List.pairwise_singleton _ _
  | cons next rest ih =>
      obtain ⟨above, restAscending⟩ := List.pairwise_cons.mp ascending
      rw [insertFrame]
      split
      · rename_i below
        refine List.pairwise_cons.mpr ⟨?_, List.pairwise_cons.mpr ⟨above, restAscending⟩⟩
        intro other member
        rcases List.mem_cons.mp member with rfl | later
        · exact below
        · exact Int.lt_trans below (above other later)
      · rename_i notBelow
        have different := absent next List.mem_cons_self
        refine List.pairwise_cons.mpr ⟨?_, ih restAscending
          fun other member => absent other (List.mem_cons_of_mem _ member)⟩
        intro other member
        rcases mem_insertFrame member with same | ⟨old, oldMember, same⟩
        · omega
        · rw [← same]
          exact above old oldMember

/-- Inserting a frame puts it at its offset and leaves the frames elsewhere as they were, but for
what they remember. -/
theorem frameIn?_insertFrame {frame : Frame} {frames : List Frame}
    (absent : ∀ other ∈ frames, other.pc ≠ frame.pc) (pc : Int) :
    (frameIn? (insertFrame frame frames) pc).map forget =
      if frame.pc = pc then some frame.forget else (frameIn? frames pc).map forget := by
  induction frames with
  | nil =>
      by_cases here : frame.pc = pc
      · simp [frameIn?, insertFrame, forgetChange, forget, here]
      · simp [frameIn?, insertFrame, forgetChange, here]
  | cons next rest ih =>
      have different := absent next List.mem_cons_self
      have following := ih fun other member => absent other (List.mem_cons_of_mem _ member)
      rw [insertFrame]
      by_cases here : frame.pc = pc
      · subst here
        simp only [if_true] at following ⊢
        split
        · simp [frameIn?, forgetChange, forget]
        · simpa [frameIn?, different] using following
      · simp only [here, if_false] at following ⊢
        by_cases nextHere : next.pc = pc
        · split
          · simp [frameIn?, forgetChange, forget, here, nextHere]
          · simp [frameIn?, nextHere]
        · split
          · simp [frameIn?, forgetChange, here, nextHere]
          · simpa [frameIn?, nextHere] using following

theorem truthful_insertFrame {previous frame : Frame} {frames : List Frame}
    (truthful : Truthful previous frames) (counted : frame.CountTrue) :
    Truthful previous (insertFrame frame frames) := by
  have forgotten {before other : Frame} : ChangeTrue before other.forgetChange := by
    intro change known
    contradiction
  induction frames generalizing previous with
  | nil => exact ⟨truthful, forgotten, counted⟩
  | cons next rest ih =>
      obtain ⟨previousCounted, changed, following⟩ := truthful
      rw [insertFrame]
      split
      · exact ⟨previousCounted, forgotten, counted, forgotten,
          following.congr rfl following.previousCounted⟩
      · exact ⟨previousCounted, changed, ih following⟩

theorem truthful_map {previous : Frame} {frames : List Frame} (replace : Frame → Frame)
    (sameLocals : ∀ frame ∈ frames, (replace frame).locals = frame.locals)
    (sameCount : ∀ frame ∈ frames, (replace frame).knownCount = frame.knownCount)
    (sameChange : ∀ frame ∈ frames, (replace frame).knownChange = frame.knownChange)
    (truthful : Truthful previous frames) : Truthful previous (frames.map replace) := by
  induction frames generalizing previous with
  | nil => exact truthful
  | cons frame rest ih =>
      obtain ⟨previousCounted, changed, following⟩ := truthful
      have frameLocals := sameLocals frame List.mem_cons_self
      refine ⟨previousCounted, ?_, ?_⟩
      · unfold ChangeTrue at changed ⊢
        rw [frameLocals, sameChange frame List.mem_cons_self]
        exact changed
      · refine (ih (fun other member => sameLocals other (List.mem_cons_of_mem _ member))
          (fun other member => sameCount other (List.mem_cons_of_mem _ member))
          (fun other member => sameChange other (List.mem_cons_of_mem _ member))
          following).congr frameLocals.symm ?_
        intro number known
        rw [sameCount frame List.mem_cons_self] at known
        rw [frameLocals]
        exact following.previousCounted number known

theorem ascending_replaceFrame (merged : Frame) {frames : List Frame}
    (ascending : Ascending frames) : Ascending (replaceFrame merged frames) := by
  have samePc (frame : Frame) :
      (if frame.pc = merged.pc then merged else frame).pc = frame.pc := by
    split
    · rename_i same
      exact same.symm
    · rfl
  unfold Ascending at ascending ⊢
  simpa only [replaceFrame, List.pairwise_map, samePc] using ascending

theorem frameIn?_replaceFrame (merged : Frame) (frames : List Frame) (pc : Int) :
    frameIn? (replaceFrame merged frames) pc =
      if merged.pc = pc then (frameIn? frames pc).map fun _ => merged else frameIn? frames pc := by
  induction frames with
  | nil => simp [frameIn?, replaceFrame]
  | cons next rest ih =>
      rw [replaceFrame] at ih
      rw [replaceFrame, List.map_cons]
      by_cases here : merged.pc = pc
      · subst here
        by_cases same : next.pc = merged.pc
        · simp [frameIn?, same]
        · simpa [frameIn?, same] using ih
      · simp only [here, if_false] at ih ⊢
        by_cases same : next.pc = merged.pc
        · have elsewhere : next.pc ≠ pc := by omega
          simpa [frameIn?, same, here] using ih
        · by_cases nextHere : next.pc = pc
          · simp [frameIn?, nextHere, Ne.symm here]
          · simpa [frameIn?, same, nextHere] using ih

end JvmFrames.MethodFrames
