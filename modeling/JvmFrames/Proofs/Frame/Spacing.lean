import JvmFrames.Proofs.Frame.Memos
import Mathlib.Data.List.Chain

/-!
Which offsets can be compressed. A placeholder counts as the offset just before the first one, so
every frame, the first one included, must lie behind the one before it by at most the distance that
a word can state. The distances that are measured on the way fit into 32 bits; one that does not
would stand for another pair of offsets.
-/

namespace JvmFrames

def Follows (previous offset : Int) : Prop :=
  previous < offset ∧ offset - previous - 1 ≤ 65535

structure Spaced (offsets : List Int) : Prop where
  first : ∀ offset ∈ offsets.head?, 0 ≤ offset ∧ offset ≤ 65535
  ascending : offsets.Pairwise (· < ·)
  gaps : offsets.IsChain fun previous offset => offset - previous - 1 ≤ 65535

def faultAfter (previous offset : Int) : OrderFault :=
  if previous ≠ Frame.placeholderPc ∧ offset ≤ previous then .unordered offset previous
  else .deltaOverflow offset (offset - previous - 1)

def faultBehind (before : List Int) (offset : Int) : OrderFault :=
  match before.getLast? with
  | none => .deltaOverflow offset offset
  | some previous =>
    if offset ≤ previous then .unordered offset previous
    else .deltaOverflow offset (offset - previous - 1)

def IsInt32 (value : Int) : Prop :=
  -2147483648 ≤ value ∧ value ≤ 2147483647

theorem isChain_and_iff {first second : Int → Int → Prop} {offsets : List Int} :
    offsets.IsChain (fun previous offset => first previous offset ∧ second previous offset) ↔
      offsets.IsChain first ∧ offsets.IsChain second := by
  induction offsets with
  | nil => simp
  | cons offset rest ih =>
      simp only [List.isChain_cons, ih, forall₂_and]
      exact and_and_and_comm

theorem isChain_follows_iff {offsets : List Int} :
    (Frame.placeholderPc :: offsets).IsChain Follows ↔ Spaced offsets := by
  have start : (∀ offset ∈ offsets.head?, Follows Frame.placeholderPc offset) ↔
      ∀ offset ∈ offsets.head?, 0 ≤ offset ∧ offset ≤ 65535 := by
    simp only [Follows, Frame.placeholderPc]
    grind
  unfold Follows at start ⊢
  rw [List.isChain_cons, start, isChain_and_iff, List.isChain_iff_pairwise]
  constructor
  · rintro ⟨first, ascending, gaps⟩
    exact ⟨first, ascending, gaps⟩
  · rintro ⟨first, ascending, gaps⟩
    exact ⟨first, ascending, gaps⟩

namespace Frame

theorem offsetDelta_some (frame previous : Frame) :
    frame.offsetDelta (some previous) = frame.pc - previous.pc - 1 := by
  simp only [offsetDelta, isPlaceholder, decide_eq_true_eq]
  split
  · rename_i start
    rw [start, placeholderPc]
    omega
  · rfl

theorem wordDelta_of_follows {previous frame : Frame} (follows : Follows previous.pc frame.pc) :
    ∃ delta, frame.wordDelta previous = .ok delta := by
  obtain ⟨above, near⟩ := follows
  simp only [wordDelta, offsetDelta_some]
  exact ⟨_, if_pos (by omega)⟩

theorem wordDelta_of_not_follows {previous frame : Frame}
    (apart : ¬ Follows previous.pc frame.pc) :
    frame.wordDelta previous =
      .error (.deltaOverflow frame.pc (frame.pc - previous.pc - 1)) := by
  unfold Follows at apart
  simp only [wordDelta, offsetDelta_some]
  exact if_neg (by omega)

end Frame

namespace Encoding

open JvmFrames.Frame

variable {previous frame : Frame}

theorem outcome_of_follows (follows : Follows previous.pc frame.pc) (rest : List Frame) :
    ∃ delta, frame.wordDelta previous = .ok delta ∧
      (ofFrames previous (frame :: rest)).outcome =
        (ofFrames (frame.rememberChange (some previous)) rest).outcome.map
          (⟨frame.pc, frame.compressAs delta (frame.form (some previous))⟩ :: ·) := by
  obtain ⟨delta, fits⟩ := wordDelta_of_follows follows
  have ordered : ¬ ((!previous.isPlaceholder) = true ∧ frame.pc ≤ previous.pc) :=
    fun unordered => absurd follows.1 (by omega)
  refine ⟨delta, fits, ?_⟩
  rw [ofFrames, if_neg ordered, fits]

theorem outcome_of_not_follows (apart : ¬ Follows previous.pc frame.pc) (rest : List Frame) :
    (ofFrames previous (frame :: rest)).outcome = .error (faultAfter previous.pc frame.pc) := by
  rw [ofFrames, wordDelta_of_not_follows apart, faultAfter]
  by_cases unordered : previous.pc ≠ placeholderPc ∧ frame.pc ≤ previous.pc
  · rw [if_pos (by simpa [isPlaceholder] using unordered), if_pos unordered, stop]
  · rw [if_neg (by simpa [isPlaceholder] using unordered), if_neg unordered]
    rfl

/-- Frames are compressed up to the first one whose offset does not go with the one before it. -/
theorem outcome_cases (previous : Frame) (frames : List Frame) :
    ((previous.pc :: frames.map (·.pc)).IsChain Follows ∧
        ∃ records, (ofFrames previous frames).outcome = .ok records ∧
          records.map (·.pc) = frames.map (·.pc)) ∨
      ∃ before offset after, frames.map (·.pc) = before ++ offset :: after ∧
        (previous.pc :: before).IsChain Follows ∧
        ¬ Follows (before.getLastD previous.pc) offset ∧
        (ofFrames previous frames).outcome =
          .error (faultAfter (before.getLastD previous.pc) offset) := by
  induction frames generalizing previous with
  | nil => exact .inl ⟨.singleton _, [], rfl, rfl⟩
  | cons frame rest ih =>
      by_cases follows : Follows previous.pc frame.pc
      · obtain ⟨delta, _, step⟩ := outcome_of_follows follows rest
        -- The rest follows this frame with its change remembered, which keeps its offset.
        have following := ih (frame.rememberChange (some previous))
        rw [pc_rememberChange] at following
        rcases following with ⟨chain, records, success, pcs⟩ |
            ⟨before, offset, after, split, chain, apart, failure⟩
        · rw [success] at step
          exact .inl ⟨.cons_cons follows chain, _, step, by simp [pcs]⟩
        · refine .inr ⟨frame.pc :: before, offset, after, ?_, .cons_cons follows chain, ?_, ?_⟩
          · simp [split]
          · rwa [List.getLastD_cons]
          · rw [step, failure, List.getLastD_cons]
            rfl
      · exact .inr ⟨[], frame.pc, rest.map (·.pc), rfl, .singleton _, follows,
          outcome_of_not_follows follows rest⟩

theorem isChain_append_iff {start : Int} {before : List Int} {offset : Int} {after : List Int} :
    (start :: (before ++ offset :: after)).IsChain Follows ↔
      (start :: before).IsChain Follows ∧ (offset :: after).IsChain Follows ∧
        Follows (before.getLastD start) offset := by
  rw [← List.cons_append, List.isChain_append, List.getLastD_eq_getLast?]
  simp [List.getLast?_cons]

/-- The frames are compressed exactly if their offsets are spaced after the one before them. -/
theorem exists_outcome_iff {previous : Frame} {frames : List Frame} :
    (∃ records, (ofFrames previous frames).outcome = .ok records) ↔
      (previous.pc :: frames.map (·.pc)).IsChain Follows := by
  rcases outcome_cases previous frames with ⟨chain, records, success, _⟩ |
      ⟨before, offset, after, split, _, apart, failure⟩
  · exact ⟨fun _ => chain, fun _ => ⟨records, success⟩⟩
  · rw [failure, split, isChain_append_iff]
    exact ⟨fun ⟨_, same⟩ => by contradiction, fun chain => absurd chain.2.2 apart⟩

theorem pcs_of_outcome {previous : Frame} {frames : List Frame} {records : List PlacedFrame}
    (success : (ofFrames previous frames).outcome = .ok records) :
    records.map (·.pc) = frames.map (·.pc) := by
  rcases outcome_cases previous frames with ⟨_, found, same, pcs⟩ | ⟨_, _, _, _, _, _, failure⟩
  · obtain rfl := Except.ok.inj (success.symm.trans same)
    exact pcs
  · rw [failure] at success
    contradiction

end Encoding

theorem Spaced.nonneg {before : List Int} (spaced : Spaced before) {offset : Int}
    (member : offset ∈ before) : 0 ≤ offset := by
  cases before with
  | nil => simp at member
  | cons first rest =>
      obtain ⟨start, _⟩ := spaced.first first rfl
      obtain ⟨above, _⟩ := List.pairwise_cons.mp spaced.ascending
      rcases List.mem_cons.mp member with rfl | later
      · exact start
      · have order := above offset later
        omega

theorem spaced_of_words {offsets : List Int} (ascending : offsets.Pairwise (· < ·))
    (words : ∀ offset ∈ offsets, 0 ≤ offset ∧ offset ≤ 65535) : Spaced offsets := by
  refine ⟨fun offset first => words offset (List.mem_of_mem_head? first), ascending, ?_⟩
  refine ascending.isChain.imp_of_mem_imp fun previous offset previousMember member _ => ?_
  have start := words previous previousMember
  have stop := words offset member
  omega

theorem faultAfter_eq_faultBehind {before : List Int} (spaced : Spaced before) (offset : Int) :
    faultAfter (before.getLastD Frame.placeholderPc) offset = faultBehind before offset := by
  rw [List.getLastD_eq_getLast?, faultBehind, faultAfter]
  cases last : before.getLast? with
  | none => simp [Frame.placeholderPc]
  | some previous =>
      have inside := spaced.nonneg (List.mem_of_getLast? last)
      have real : previous ≠ Frame.placeholderPc := by
        unfold Frame.placeholderPc
        omega
      simp [real]

namespace Frame

def compressOver (frame previous : Frame) (delta : Int) :
    Except OrderFault (CompressedFrame VerificationType) :=
  if 0 ≤ delta ∧ delta < 65536 then
    .ok (frame.compressAs (UInt16.ofNat delta.toNat)
      (FrameForm.select (frame.change (some previous)) frame.stack.length delta))
  else
    .error (.deltaOverflow frame.pc delta)

def wrappedDelta (frame previous : Frame) : Int :=
  (frame.offsetDelta (some previous)).bmod 4294967296

theorem compress_eq_compressOver (frame previous : Frame) :
    frame.compress previous = frame.compressOver previous (frame.offsetDelta (some previous)) := by
  rw [compress_eq, wordDelta, compressOver]
  split <;> rfl

/-- Offsets matter to the form and to what is written through their distance only. Whatever it is,
also if 32 bits do not hold it and it wraps around, the frame is compressed as it is at offsets
that lie so far apart. -/
theorem compressOver_eq_moved (frame previous : Frame) (delta : Int) :
    let moved : Frame := { frame with pc := delta }
    let before : Frame := { previous with pc := placeholderPc }
    moved.offsetDelta (some before) = delta ∧
      moved.form (some before) =
        FrameForm.select (frame.change (some previous)) frame.stack.length delta ∧
      frame.compressOver previous delta =
        (moved.compress before).mapError fun _ => .deltaOverflow frame.pc delta := by
  intro moved before
  have distance : moved.offsetDelta (some before) = delta := rfl
  have change : moved.change (some before) = frame.change (some previous) := by
    unfold Frame.change
    cases frame.knownChange <;> rfl
  refine ⟨distance, ?_, ?_⟩
  · rw [form, change, distance]
  · rw [compress_eq_compressOver, distance, compressOver, compressOver, change]
    split <;> rfl

theorem isInt32_wrappedDelta (frame previous : Frame) : IsInt32 (frame.wrappedDelta previous) := by
  have lower := Int.le_bmod (x := frame.offsetDelta (some previous)) (m := 4294967296) (by decide)
  have upper := Int.bmod_lt (x := frame.offsetDelta (some previous)) (m := 4294967296) (by decide)
  unfold IsInt32 wrappedDelta
  omega

theorem compressOver_wrappedDelta {frame previous : Frame}
    (inside : IsInt32 (frame.offsetDelta (some previous))) :
    frame.compressOver previous (frame.wrappedDelta previous) = frame.compress previous := by
  unfold IsInt32 at inside
  have kept : frame.wrappedDelta previous = frame.offsetDelta (some previous) :=
    Int.bmod_eq_of_le (by omega) (by omega)
  rw [kept, compress_eq_compressOver]

end Frame

namespace Encoding

def Measures (entry : Frame) (before : List Frame) (frame : Frame) : Prop :=
  (∃ records, (ofFrames entry before).outcome = .ok records) ∧
    ((before.getLastD entry).isPlaceholder = true ∨ (before.getLastD entry).pc < frame.pc)

section Entry

variable {entry : Frame}

theorem exists_outcome_iff_spaced (onEntry : entry.pc = Frame.placeholderPc) {frames : List Frame} :
    (∃ records, (ofFrames entry frames).outcome = .ok records) ↔ Spaced (frames.map (·.pc)) := by
  rw [exists_outcome_iff, onEntry, isChain_follows_iff]

theorem outcome_of_not_spaced (onEntry : entry.pc = Frame.placeholderPc) {frames : List Frame}
    (crowded : ¬ Spaced (frames.map (·.pc))) :
    ∃ before offset after, frames.map (·.pc) = before ++ offset :: after ∧
      Spaced before ∧ ¬ Spaced (before ++ [offset]) ∧
      (ofFrames entry frames).outcome = .error (faultBehind before offset) := by
  rcases outcome_cases entry frames with ⟨chain, _⟩ |
      ⟨before, offset, after, split, chain, apart, failure⟩
  · rw [onEntry, isChain_follows_iff] at chain
    contradiction
  · rw [onEntry] at chain apart failure
    have spaced := isChain_follows_iff.mp chain
    refine ⟨before, offset, after, split, spaced, ?_, ?_⟩
    · rw [← isChain_follows_iff, isChain_append_iff]
      exact fun both => apart both.2.2
    · rw [failure, faultAfter_eq_faultBehind spaced]

theorem isInt32_of_measures (onEntry : entry.pc = Frame.placeholderPc) {before : List Frame}
    {frame : Frame} (measured : Measures entry before frame) (inside : IsInt32 frame.pc) :
    IsInt32 (frame.offsetDelta (some (before.getLastD entry))) ∧
      ((before.getLastD entry).isPlaceholder = false →
        IsInt32 (frame.pc - (before.getLastD entry).pc)) := by
  obtain ⟨arrived, inOrder⟩ := measured
  have spaced := (exists_outcome_iff_spaced onEntry).mp arrived
  rw [Frame.offsetDelta_some]
  rw [List.getLastD_eq_getLast?] at inOrder ⊢
  cases last : before.getLast? with
  | none =>
      simp only [Option.getD_none, onEntry, Frame.isPlaceholder, Frame.placeholderPc]
      unfold IsInt32 at inside ⊢
      refine ⟨by omega, fun real => by simp at real⟩
  | some previous =>
      rw [last, Option.getD_some] at inOrder
      have member := List.mem_of_getLast? last
      have positive := spaced.nonneg (List.mem_map_of_mem (f := (·.pc)) member)
      have above : previous.pc < frame.pc := by
        refine inOrder.resolve_left fun start => ?_
        have start : previous.pc = Frame.placeholderPc := by simpa [Frame.isPlaceholder] using start
        rw [start, Frame.placeholderPc] at positive
        contradiction
      rw [Option.getD_some]
      unfold IsInt32 at inside ⊢
      exact ⟨by omega, fun _ => by omega⟩

end Entry

/-- Frames are compressed after the frame on method entry exactly if their offsets are spaced. Else
the first offset that is not spaced is reported, with the offset before it if it does not lie behind
that one, and with its distance otherwise. Every distance that is measured between offsets of 32
bits has 32 bits. -/
theorem ofFrames_ok_iff_spaced {entry : Frame} (onEntry : entry.pc = Frame.placeholderPc)
    (frames : List Frame) :
    ((∃ records, (ofFrames entry frames).outcome = .ok records) ↔ Spaced (frames.map (·.pc))) ∧
      (¬ Spaced (frames.map (·.pc)) → ∃ before offset after,
        frames.map (·.pc) = before ++ offset :: after ∧
          Spaced before ∧ ¬ Spaced (before ++ [offset]) ∧
          (ofFrames entry frames).outcome = .error (faultBehind before offset)) ∧
      ((∀ frame ∈ frames, IsInt32 frame.pc) →
        ∀ before frame after, frames = before ++ frame :: after → Measures entry before frame →
          IsInt32 (frame.offsetDelta (some (before.getLastD entry))) ∧
            ((before.getLastD entry).isPlaceholder = false →
              IsInt32 (frame.pc - (before.getLastD entry).pc))) := by
  refine ⟨exists_outcome_iff_spaced onEntry, outcome_of_not_spaced onEntry, ?_⟩
  rintro inside before frame after rfl measured
  have here := inside frame (by simp)
  exact isInt32_of_measures onEntry measured here

/-- The last offset of 32 bits behind an early one. -/
theorem ofFrames_ok_iff_spaced_last :
    let entry : Frame := { pc := -1, locals := [some .integer] }
    let last : Frame := { pc := 2147483647 }
    (ofFrames entry [{ pc := 7 }, last]).outcome = .error (.deltaOverflow 2147483647 2147483639) ∧
      ¬ Spaced [7, 2147483647] ∧ IsInt32 (last.offsetDelta (some { pc := 7 })) := by
  intro entry last
  have onEntry : entry.pc = Frame.placeholderPc := rfl
  obtain ⟨spaced, _, measured⟩ := ofFrames_ok_iff_spaced onEntry [{ pc := 7 }, last]
  have failure : (ofFrames entry [{ pc := 7 }, last]).outcome =
      .error (.deltaOverflow 2147483647 2147483639) := rfl
  refine ⟨failure, ?_, ?_⟩
  · intro fits
    obtain ⟨records, success⟩ := spaced.mpr fits
    rw [failure] at success
    contradiction
  · have inside : ∀ frame ∈ [{ pc := 7 }, last], IsInt32 frame.pc := by
      simp [last, IsInt32]
    exact (measured inside [{ pc := 7 }] last [] rfl ⟨⟨_, rfl⟩, .inr (by decide)⟩).1

end Encoding

end JvmFrames
