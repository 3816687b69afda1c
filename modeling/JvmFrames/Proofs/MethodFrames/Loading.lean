import JvmFrames.Proofs.Frame.Form
import JvmFrames.Proofs.Frame.Spacing
import JvmFrames.Proofs.MethodFrames.Journal

/-!
Tables that are loaded from a listing. A table keeps to frames that can be made, so what it writes
keeps to the limits of every form but the full one; and a listing has its offsets from words, so the
offsets of its table can always be stated.
-/

namespace JvmFrames

open JvmFrames.Frame

namespace Encoding

theorem reachable_previous_ofFrames {previous : Frame} (reachable : previous.Reachable)
    (frames : List Frame) : (ofFrames previous frames).previous.Reachable := by
  rcases previous_ofFrames previous frames with same | same
  · rwa [same]
  · rw [same]
    exact reachable.rememberCount

theorem reachable_frames_ofFrames {previous : Frame} {frames : List Frame}
    (previousReachable : previous.Reachable) (reachable : ∀ frame ∈ frames, frame.Reachable) :
    ∀ frame ∈ (ofFrames previous frames).frames, frame.Reachable := by
  induction frames generalizing previous with
  | nil => exact reachable
  | cons frame rest ih =>
      obtain ⟨here, later⟩ := List.forall_mem_cons.mp reachable
      have remembered := here.rememberChange previousReachable
      rw [ofFrames]
      split
      · exact reachable
      · split
        · exact reachable
        · exact List.forall_mem_cons.mpr
            ⟨reachable_previous_ofFrames remembered rest, ih remembered later⟩

/-- Frames that can be made are written with the numbers of locals that their forms allow. -/
theorem counted_of_outcome {previous : Frame} {frames : List Frame} {records : List PlacedFrame}
    (previousReachable : previous.Reachable) (reachable : ∀ frame ∈ frames, frame.Reachable)
    (success : (ofFrames previous frames).outcome = .ok records) :
    ∀ record ∈ records, record.frame.Counted := by
  induction frames generalizing previous records with
  | nil =>
      obtain rfl := Except.ok.inj success
      simp
  | cons frame rest ih =>
      obtain ⟨here, later⟩ := List.forall_mem_cons.mp reachable
      by_cases follows : Follows previous.pc frame.pc
      · obtain ⟨delta, fits, step⟩ := outcome_of_follows follows rest
        rw [step] at success
        cases following : (ofFrames (frame.rememberChange (some previous)) rest).outcome with
        | error fault => simp [following, Except.map] at success
        | ok others =>
            rw [following] at success
            obtain rfl := Except.ok.inj success
            obtain ⟨_, _, counted⟩ := here.compressAs (pc_of_wordDelta fits)
            exact List.forall_mem_cons.mpr
              ⟨counted, ih (here.rememberChange previousReachable) later following⟩
      · rw [outcome_of_not_follows follows] at success
        contradiction

end Encoding

namespace MethodFrames

structure Reachable (table : MethodFrames) : Prop where
  entry : table.entry.Reachable
  frames : ∀ frame ∈ table.frames, frame.Reachable

theorem reachable_insertFrame {frame : Frame} {frames : List Frame} (reachable : frame.Reachable)
    (others : ∀ other ∈ frames, other.Reachable) :
    ∀ other ∈ insertFrame frame frames, other.Reachable := by
  induction frames with
  | nil => simpa [insertFrame] using reachable.forgetChange
  | cons next rest ih =>
      obtain ⟨nextReachable, restReachable⟩ := List.forall_mem_cons.mp others
      rw [insertFrame]
      split
      · refine List.forall_mem_cons.mpr ⟨reachable.forgetChange, ?_⟩
        exact List.forall_mem_cons.mpr ⟨nextReachable.forgetChange, restReachable⟩
      · exact List.forall_mem_cons.mpr ⟨nextReachable, ih restReachable⟩

theorem reachable_replaceFrame {frame : Frame} {frames : List Frame} (reachable : frame.Reachable)
    (others : ∀ other ∈ frames, other.Reachable) :
    ∀ other ∈ replaceFrame frame frames, other.Reachable := by
  intro other member
  obtain ⟨old, oldMember, rfl⟩ := List.mem_map.mp member
  split
  · exact reachable
  · exact others old oldMember

namespace Reachable

variable {table : MethodFrames}

theorem record {superTypes : SuperTypes} {frame : Frame} (reachable : table.Reachable)
    (frameReachable : frame.Reachable) :
    ((MethodFramesM.record superTypes frame).run.run table).2.Reachable := by
  rw [run_record]
  split
  · exact reachable
  · split
    · exact ⟨reachable.entry, reachable_insertFrame frameReachable reachable.frames⟩
    · rename_i existing found
      have existingReachable := reachable.frames existing (List.mem_of_find?_eq_some found)
      split
      · rename_i merged merging
        exact ⟨reachable.entry, reachable_replaceFrame
          (.merge superTypes existingReachable frameReachable merging) reachable.frames⟩
      · exact reachable

theorem call {call : TableCall} (reachable : table.Reachable)
    (edgeReachable : ∀ edge, call = .record edge → edge.frame.Reachable) :
    (table.call call).2.Reachable := by
  cases call with
  | record edge => exact reachable.record (edgeReachable edge rfl)
  | encode =>
      exact ⟨Encoding.reachable_previous_ofFrames reachable.entry table.frames,
        Encoding.reachable_frames_ofFrames reachable.entry reachable.frames⟩

/-- Recording edges and compressing frames keep to frames that can be made. -/
theorem run {calls : List TableCall} (reachable : table.Reachable)
    (edgesReachable : ∀ edge, .record edge ∈ calls → edge.frame.Reachable) :
    (table.run calls).2.Reachable := by
  induction calls generalizing table with
  | nil => exact reachable
  | cons call rest ih =>
      refine ih (reachable.call ?_) ?_
      · rintro edge rfl
        exact edgesReachable edge List.mem_cons_self
      · exact fun edge member => edgesReachable edge (List.mem_cons_of_mem _ member)

end Reachable

end MethodFrames

theorem Written.exists_result_eq_error {written : Written} :
    (∃ fault, written.result = .error fault) ↔ written.fault ≠ none := by
  unfold result
  cases written.fault <;> simp

namespace CompressedFrame

def Overlong {α : Type} : CompressedFrame α → Prop
  | .full _ locals stack => 65535 < locals.length ∨ 65535 < stack.length
  | .same _ | .oneStackItem _ _ | .chop _ _ | .append _ _ => False

theorem Counted.encodable_map_iff {frame : CompressedFrame VerificationType}
    (counted : frame.Counted) (number : BinaryName → UInt16) :
    (frame.map (VerificationType.entry number)).Encodable ↔ ¬ frame.Overlong := by
  have same := counted.map (VerificationType.entry number)
  cases frame with
  | same | oneStackItem => simp [CompressedFrame.map, Encodable, Overlong]
  | chop | append => exact ⟨fun _ => id, fun _ => same⟩
  | full delta locals stack => simp [CompressedFrame.map, Encodable, Overlong]

/-- Resolved frames with allowed numbers of locals are refused for a length only: that of one of
their lists, or that of the whole table. -/
theorem writeTable_fails_iff {frames : List (CompressedFrame VerificationType)}
    (counted : ∀ frame ∈ frames, frame.Counted) {pool after : ConstantPool}
    (reachable : pool.Reachable) {resolved : List (CompressedFrame TypeEntry)}
    (run : (resolveAll frames).run.run pool = (.ok resolved, after)) :
    (∃ fault, (writeTable resolved).result = .error fault) ↔
      65535 < frames.length ∨ ∃ frame ∈ frames, frame.Overlong := by
  have entries := ((resolveAll_means reachable frames).1 resolved after run).entries
  have whole : (writeTable resolved).fault = none ↔
      frames.length ≤ 65535 ∧ ∀ frame ∈ frames, ¬ frame.Overlong := by
    rw [writeTable_fault, entries, List.length_map, List.forall_mem_map]
    exact and_congr_right fun _ => forall₂_congr fun frame member =>
      (counted frame member).encodable_map_iff _
  rw [Written.exists_result_eq_error, ne_eq, whole, not_and_or, Nat.not_le]
  push Not
  rfl

end CompressedFrame

namespace MethodFrames

def ofListing (superTypes : SuperTypes) (listing : Listing) : MethodFrames :=
  (run { entry := listing.entry }
    (listing.frames.map fun frame => .record ⟨superTypes, frame⟩)).2

theorem recorded_map_record (superTypes : SuperTypes) (frames : List Frame) :
    Journal.recorded (frames.map fun frame => .record ⟨superTypes, frame⟩) =
      frames.map fun frame => ⟨superTypes, frame⟩ := by
  induction frames with
  | nil => rfl
  | cons frame rest ih => rw [List.map_cons, List.map_cons, Journal.recorded, ih]

section Listed

variable {source : String} {supply : MarkerSupply} {listing : Listing}

theorem reachable_of_recorded (read : ((Listing.read source).run.run supply).1 = .ok listing)
    (superTypes : SuperTypes) (edge : Edge)
    (member : .record edge ∈ listing.frames.map fun frame => TableCall.record ⟨superTypes, frame⟩) :
    edge.frame.Reachable := by
  obtain ⟨frame, frameMember, same⟩ := List.mem_map.mp member
  obtain rfl := TableCall.record.inj same
  exact .listed read (List.mem_cons_of_mem _ frameMember)

theorem reachable_ofListing (read : ((Listing.read source).run.run supply).1 = .ok listing)
    (superTypes : SuperTypes) : (ofListing superTypes listing).Reachable :=
  Reachable.run ⟨.listed read List.mem_cons_self, by simp⟩ (reachable_of_recorded read superTypes)

theorem agrees_ofListing (read : ((Listing.read source).run.run supply).1 = .ok listing)
    (superTypes : SuperTypes) :
    Agrees { entry := listing.entry, edges := listing.frames.map fun frame => ⟨superTypes, frame⟩ }
      (ofListing superTypes listing) := by
  have entryReachable : listing.entry.Reachable := .listed read List.mem_cons_self
  obtain ⟨_, agrees⟩ := agrees_run entryReachable.countTrue
    fun edge member => (reachable_of_recorded read superTypes edge member).countTrue
  rwa [recorded_map_record] at agrees

theorem mem_pcs_ofListing (read : ((Listing.read source).run.run supply).1 = .ok listing)
    (superTypes : SuperTypes) (pc : Int) :
    pc ∈ (ofListing superTypes listing).frames.map (·.pc) ↔
      ∃ frame ∈ listing.frames, frame.pc = pc := by
  rw [(agrees_ofListing read superTypes).pcs, Journal.mem_offsets]
  simp only [List.mem_map, exists_exists_and_eq_and]
  refine and_iff_right_of_imp ?_
  rintro ⟨frame, member, rfl⟩
  have inside := (Listing.pc_of_read read).2 frame member
  rw [placeholderPc]
  omega

/-- Whatever a listing says and whichever types are above others, its table can be compressed, with
one frame for each offset of the listing in ascending order. If all classes get numbers, the frames
can be written unless there are too many of them or a full one lists too much. -/
theorem encode_ofListing (read : ((Listing.read source).run.run supply).1 = .ok listing)
    (superTypes : SuperTypes) :
    ∃ records, (ofListing superTypes listing).encode.outcome = .ok records ∧
      (records.map (·.pc)).Pairwise (· < ·) ∧
      (∀ pc, pc ∈ records.map (·.pc) ↔ ∃ frame ∈ listing.frames, frame.pc = pc) ∧
      ∀ pool after resolved, pool.Reachable →
        (CompressedFrame.resolveAll (records.map (·.frame))).run.run pool = (.ok resolved, after) →
        ((∃ fault, (CompressedFrame.writeTable resolved).result = .error fault) ↔
          65535 < records.length ∨ ∃ record ∈ records, record.frame.Overlong) := by
  generalize loaded : ofListing superTypes listing = table
  have agrees := agrees_ofListing read superTypes
  have reachable := reachable_ofListing read superTypes
  have listed := mem_pcs_ofListing read superTypes
  rw [loaded] at agrees reachable listed
  have ascending : (table.frames.map (·.pc)).Pairwise (· < ·) := by
    rw [agrees.pcs]
    exact Journal.offsets_ascending _
  have words (pc : Int) (member : pc ∈ table.frames.map (·.pc)) : 0 ≤ pc ∧ pc ≤ 65535 := by
    obtain ⟨frame, frameMember, rfl⟩ := (listed pc).mp member
    exact (Listing.pc_of_read read).2 frame frameMember
  have onEntry : table.entry.pc = placeholderPc :=
    (Frame.mk.inj agrees.entry).1.trans (Listing.pc_of_read read).1
  obtain ⟨records, success⟩ :=
    (Encoding.exists_outcome_iff_spaced onEntry).mpr (spaced_of_words ascending words)
  have pcs := Encoding.pcs_of_outcome success
  have counted := Encoding.counted_of_outcome reachable.entry reachable.frames success
  refine ⟨records, success, ?_, ?_, ?_⟩
  · rwa [pcs]
  · rwa [pcs]
  · intro pool after resolved poolReachable run
    have fails := CompressedFrame.writeTable_fails_iff (List.forall_mem_map.mpr counted)
      poolReachable run
    simpa only [List.length_map, List.mem_map, exists_exists_and_eq_and] using fails

end Listed

/-- An edge with another stack than the first one into its offset is left out. -/
theorem encode_ofListing_refused_edge :
    let source := "entry | |\n7 | | I\n3 | | F\n7 | |\n"
    let listing : Listing := ⟨{ pc := -1 },
      [{ pc := 7, stack := [.integer] }, { pc := 3, stack := [.float] }, { pc := 7 }]⟩
    let records : List PlacedFrame := [⟨3, .oneStackItem 3 .float⟩, ⟨7, .oneStackItem 3 .integer⟩]
    let resolved : List (CompressedFrame TypeEntry) :=
      [.oneStackItem 3 .float, .oneStackItem 3 .integer]
    ((Listing.read source).run.run {}).1 = .ok listing ∧
      (ofListing (fun _ _ => none) listing).encode.outcome = .ok records ∧
      (CompressedFrame.resolveAll (records.map (·.frame))).run.run .empty =
        (.ok resolved, .empty) ∧
      ¬ ∃ fault, (CompressedFrame.writeTable resolved).result = .error fault := by
  intro source listing records resolved
  have read : ((Listing.read source).run.run {}).1 = .ok listing := by decide
  have encoded : (ofListing (fun _ _ => none) listing).encode.outcome = .ok records := rfl
  have run : (CompressedFrame.resolveAll (records.map (·.frame))).run.run .empty =
    (.ok resolved, .empty) := rfl
  obtain ⟨found, success, _, _, fails⟩ := encode_ofListing read fun _ _ => none
  obtain rfl := Except.ok.inj (encoded.symm.trans success)
  refine ⟨read, encoded, run, ?_⟩
  rw [fails .empty .empty resolved .empty run]
  simp [records, CompressedFrame.Overlong]

end MethodFrames

end JvmFrames
