import JvmFrames.Proofs.Frame.Reachable
import JvmFrames.Proofs.MethodFrames.Ordered
import Mathlib.Data.List.Dedup
import Mathlib.Data.List.Sort

/-!
A journal of the edges of a method, as the plainest account of its frames: the frame at an offset
is worked out from the edges into it when it is asked for, and frames are compressed without memory.
The main statement is that the table of frames, which merges edges as they come and remembers what
it found out, cannot be told from the journal by any sequence of calls.
-/

namespace JvmFrames

open JvmFrames.Frame Encoding

structure Edge where
  superTypes : SuperTypes
  frame : Frame

inductive TableCall where
  | record (edge : Edge)
  | encode

inductive TableAnswer where
  | recorded (outcome : Except FaultAt Unit)
  | encoded (outcome : Except OrderFault (List PlacedFrame))

namespace MethodFrames

def call (table : MethodFrames) : TableCall → TableAnswer × MethodFrames
  | .record edge =>
    let (outcome, left) := (MethodFramesM.record edge.superTypes edge.frame).run.run table
    (.recorded outcome, left)
  | .encode => (.encoded table.encode.outcome, table.afterEncode)

def run (table : MethodFrames) : List TableCall → List TableAnswer × MethodFrames
  | [] => ([], table)
  | call :: rest =>
    let (answer, next) := table.call call
    let (answers, last) := next.run rest
    (answer :: answers, last)

theorem run_record (table : MethodFrames) (superTypes : SuperTypes) (frame : Frame) :
    (MethodFramesM.record superTypes frame).run.run table =
      if frame.isPlaceholder then
        (.ok (), table)
      else
        match table.frameAt? frame.pc with
        | none => (.ok (), { table with frames := insertFrame frame table.frames })
        | some existing =>
          match existing.merge superTypes frame with
          | .ok merged => (.ok (), { table with frames := replaceFrame merged table.frames })
          | .error cause => (.error ⟨frame.pc, cause⟩, table) := by
  unfold MethodFramesM.record
  split
  · rfl
  · rw [run_get_bind]
    cases table.frameAt? frame.pc with
    | none => rfl
    | some existing =>
        dsimp only
        cases existing.merge superTypes frame <;> rfl

theorem atomic_record (superTypes : SuperTypes) (frame : Frame) :
    Atomic (MethodFramesM.record superTypes frame) := by
  unfold MethodFramesM.record
  split
  · exact fun _ _ _ => rfl
  · refine atomic_get_bind fun table => ?_
    cases table.frameAt? frame.pc with
    | none => exact .inr ⟨_, rfl⟩
    | some existing =>
        dsimp only
        cases existing.merge superTypes frame with
        | ok merged => exact .inr ⟨_, rfl⟩
        | error cause => exact .inl ⟨_, rfl⟩

end MethodFrames

structure Journal where
  entry : Frame
  edges : List Edge := []

namespace Journal

def absorb (found : Option Frame) (edge : Edge) : Option Frame :=
  match found with
  | none => some edge.frame
  | some frame =>
    match frame.merge edge.superTypes edge.frame with
    | .ok merged => some merged
    | .error _ => some frame

def edgesInto (journal : Journal) (pc : Int) : List Edge :=
  journal.edges.filter fun edge => edge.frame.pc = pc

def frameAt? (journal : Journal) (pc : Int) : Option Frame :=
  (journal.edgesInto pc).foldl absorb none

def offsets (journal : Journal) : List Int :=
  ((journal.edges.map (·.frame.pc)).filter (· ≠ placeholderPc)).dedup.insertionSort (· ≤ ·)

def frames (journal : Journal) : List Frame :=
  journal.offsets.filterMap journal.frameAt?

def verdict (journal : Journal) (edge : Edge) : Except FaultAt Unit :=
  if edge.frame.isPlaceholder then
    .ok ()
  else
    match journal.frameAt? edge.frame.pc with
    | none => .ok ()
    | some frame =>
      match frame.merge edge.superTypes edge.frame with
      | .ok _ => .ok ()
      | .error cause => .error ⟨edge.frame.pc, cause⟩

def call (journal : Journal) : TableCall → TableAnswer × Journal
  | .record edge =>
    (.recorded (journal.verdict edge), { journal with edges := journal.edges ++ [edge] })
  | .encode => (.encoded (compressAll journal.entry journal.frames), journal)

def run (journal : Journal) : List TableCall → List TableAnswer × Journal
  | [] => ([], journal)
  | call :: rest =>
    let (answer, next) := journal.call call
    let (answers, last) := next.run rest
    (answer :: answers, last)

theorem frameAt?_append (journal : Journal) (edge : Edge) (pc : Int) :
    frameAt? { journal with edges := journal.edges ++ [edge] } pc =
      if edge.frame.pc = pc then absorb (journal.frameAt? pc) edge else journal.frameAt? pc := by
  by_cases here : edge.frame.pc = pc
  · simp [frameAt?, edgesInto, here]
  · simp [frameAt?, edgesInto, here]

theorem mem_offsets {journal : Journal} {pc : Int} :
    pc ∈ journal.offsets ↔ pc ≠ placeholderPc ∧ ∃ edge ∈ journal.edges, edge.frame.pc = pc := by
  rw [offsets, List.mem_insertionSort, List.mem_dedup]
  simp [and_comm]

theorem offsets_ascending (journal : Journal) : journal.offsets.Pairwise (· < ·) := by
  have sorted : journal.offsets.Pairwise (· ≤ ·) := List.pairwise_insertionSort _ _
  have distinct : journal.offsets.Nodup :=
    (List.perm_insertionSort _ _).nodup_iff.mpr (List.nodup_dedup _)
  exact (sorted.and distinct).imp fun both => Int.lt_iff_le_and_ne.mpr both

/-- Absorbing an edge leaves the frame found so far or that of the edge, with a stack of its own. -/
theorem eq_of_absorb {found : Option Frame} {edge : Edge} {frame : Frame}
    (result : absorb found edge = some frame) :
    ∃ source, (source ∈ found ∨ source = edge.frame) ∧
      frame = { source with stack := frame.stack } := by
  unfold absorb at result
  split at result
  · obtain rfl := Option.some.inj result
    exact ⟨edge.frame, .inr rfl, rfl⟩
  · rename_i old
    split at result
    · rename_i merged success
      obtain rfl := Option.some.inj result
      rcases merge_cases success with ⟨_, rfl⟩ | kept
      · exact ⟨edge.frame, .inr rfl, rfl⟩
      · exact ⟨old, .inl rfl, kept⟩
    · obtain rfl := Option.some.inj result
      exact ⟨old, .inl rfl, rfl⟩

theorem eq_of_foldl_absorb {edges : List Edge} {found : Option Frame} {frame : Frame}
    (result : edges.foldl absorb found = some frame) :
    ∃ source, (source ∈ found ∨ ∃ edge ∈ edges, source = edge.frame) ∧
      frame = { source with stack := frame.stack } := by
  induction edges generalizing found with
  | nil => exact ⟨frame, .inl result, rfl⟩
  | cons edge rest ih =>
      obtain ⟨next, absorbed | ⟨later, member, same⟩, kept⟩ := ih result
      · obtain ⟨source, origin, same⟩ := eq_of_absorb absorbed
        rw [same] at kept
        refine ⟨source, origin.imp_right fun here => ?_, kept⟩
        exact ⟨edge, List.mem_cons_self, here⟩
      · exact ⟨next, .inr ⟨later, List.mem_cons_of_mem _ member, same⟩, kept⟩

theorem eq_of_frameAt? {journal : Journal} {pc : Int} {frame : Frame}
    (found : journal.frameAt? pc = some frame) :
    ∃ edge ∈ journal.edges, edge.frame.pc = pc ∧
      frame = { edge.frame with stack := frame.stack } := by
  obtain ⟨_, nothing | ⟨edge, member, rfl⟩, kept⟩ := eq_of_foldl_absorb found
  · contradiction
  · obtain ⟨edgeMember, into⟩ := List.mem_filter.mp member
    exact ⟨edge, edgeMember, by simpa using into, kept⟩

theorem pc_of_frameAt? {journal : Journal} {pc : Int} {frame : Frame}
    (found : journal.frameAt? pc = some frame) : frame.pc = pc := by
  obtain ⟨edge, _, into, kept⟩ := eq_of_frameAt? found
  rw [kept]
  exact into

theorem isSome_absorb (found : Option Frame) (edge : Edge) : (absorb found edge).isSome := by
  unfold absorb
  split
  · rfl
  · split <;> rfl

theorem isSome_foldl_absorb {edges : List Edge} {found : Option Frame}
    (start : found.isSome ∨ edges ≠ []) : (edges.foldl absorb found).isSome := by
  induction edges generalizing found with
  | nil => simpa using start
  | cons edge rest ih => exact ih (.inl (isSome_absorb found edge))

theorem frameAt?_isSome_iff {journal : Journal} {pc : Int} :
    (journal.frameAt? pc).isSome ↔ ∃ edge ∈ journal.edges, edge.frame.pc = pc := by
  have into : journal.edgesInto pc ≠ [] ↔ ∃ edge ∈ journal.edges, edge.frame.pc = pc := by
    simp [edgesInto]
  rw [← into]
  constructor
  · intro found empty
    rw [frameAt?, empty] at found
    contradiction
  · intro edges
    exact isSome_foldl_absorb (.inr edges)

theorem mem_frames {journal : Journal} {frame : Frame} :
    frame ∈ journal.frames ↔
      frame.pc ≠ placeholderPc ∧ journal.frameAt? frame.pc = some frame := by
  rw [frames, List.mem_filterMap]
  constructor
  · rintro ⟨pc, member, found⟩
    rw [pc_of_frameAt? found]
    exact ⟨(mem_offsets.mp member).1, found⟩
  · rintro ⟨real, found⟩
    refine ⟨frame.pc, mem_offsets.mpr ⟨real, ?_⟩, found⟩
    exact frameAt?_isSome_iff.mp (by rw [found]; rfl)

theorem frameAt?_of_mem_offsets {journal : Journal} {pc : Int} (member : pc ∈ journal.offsets) :
    ∃ frame, journal.frameAt? pc = some frame ∧ frame.pc = pc := by
  obtain ⟨frame, found⟩ :=
    Option.isSome_iff_exists.mp (frameAt?_isSome_iff.mpr (mem_offsets.mp member).2)
  exact ⟨frame, found, pc_of_frameAt? found⟩

theorem pcs_frames (journal : Journal) : journal.frames.map (·.pc) = journal.offsets := by
  have each {offsets : List Int} (real : ∀ pc ∈ offsets, pc ∈ journal.offsets) :
      (offsets.filterMap journal.frameAt?).map (·.pc) = offsets := by
    induction offsets with
    | nil => rfl
    | cons pc rest ih =>
        obtain ⟨frame, found, samePc⟩ := frameAt?_of_mem_offsets (real pc List.mem_cons_self)
        rw [List.filterMap_cons_some found, List.map_cons, samePc,
          ih fun other member => real other (List.mem_cons_of_mem _ member)]
  exact each fun _ member => member

theorem ascending_frames (journal : Journal) : MethodFrames.Ascending journal.frames := by
  rw [MethodFrames.Ascending, frames, List.pairwise_filterMap]
  refine journal.offsets_ascending.imp ?_
  intro before after order first firstFound second secondFound
  rw [pc_of_frameAt? firstFound, pc_of_frameAt? secondFound]
  exact order

theorem frameIn?_frames {journal : Journal} {pc : Int} (real : pc ≠ placeholderPc) :
    MethodFrames.frameIn? journal.frames pc = journal.frameAt? pc := by
  cases found : journal.frameAt? pc with
  | none =>
      rw [MethodFrames.frameIn?_eq_none_iff]
      intro frame member same
      have here := (mem_frames.mp member).2
      rw [same, found] at here
      contradiction
  | some frame =>
      have samePc := pc_of_frameAt? found
      refine (MethodFrames.frameIn?_eq_some_iff journal.ascending_frames).mpr
        ⟨mem_frames.mpr ?_, samePc⟩
      rw [samePc]
      exact ⟨real, found⟩

end Journal

namespace Frame

theorem merge_forget (superTypes : SuperTypes) (frame other : Frame) :
    (frame.forget.merge superTypes other).map forget =
      (frame.merge superTypes other).map forget := by
  have samePlaceholder : frame.forget.isPlaceholder = frame.isPlaceholder := rfl
  have sameStack : frame.forget.stack = frame.stack := rfl
  unfold Frame.merge
  rw [samePlaceholder, sameStack]
  by_cases silent : other.isPlaceholder = true
  · rw [if_pos silent, if_pos silent]
    rfl
  · rw [if_neg silent, if_neg silent]
    by_cases unreached : frame.isPlaceholder = true
    · rw [if_pos unreached, if_pos unreached]
    · rw [if_neg unreached, if_neg unreached]
      by_cases mismatch : frame.stack.length ≠ other.stack.length
      · rw [if_pos mismatch, if_pos mismatch]
      · rw [if_neg mismatch, if_neg mismatch]
        cases VerificationType.mergeAll superTypes frame.stack other.stack <;> rfl

theorem merge_congr {first second : Frame} (same : first.forget = second.forget)
    (superTypes : SuperTypes) (other : Frame) :
    (first.merge superTypes other).map forget = (second.merge superTypes other).map forget := by
  rw [← merge_forget, same, merge_forget]

end Frame

namespace MethodFrames

structure Agrees (journal : Journal) (table : MethodFrames) : Prop where
  entry : table.entry.forget = journal.entry.forget
  frames : table.frames.map forget = journal.frames.map forget
  truthful : Truthful table.entry table.frames

namespace Agrees

variable {journal : Journal} {table : MethodFrames}

theorem ascending (agrees : Agrees journal table) : Ascending table.frames := by
  rw [← ascending_map_forget, agrees.frames, ascending_map_forget]
  exact journal.ascending_frames

theorem found (agrees : Agrees journal table) {pc : Int} (real : pc ≠ placeholderPc) :
    (frameIn? table.frames pc).map forget = (journal.frameAt? pc).map forget := by
  rw [← frameIn?_map_forget, agrees.frames, frameIn?_map_forget, Journal.frameIn?_frames real]

theorem real (agrees : Agrees journal table) {frame : Frame} (member : frame ∈ table.frames) :
    frame.pc ≠ placeholderPc := by
  have forgotten : frame.forget ∈ journal.frames.map forget := by
    rw [← agrees.frames]
    exact List.mem_map_of_mem member
  obtain ⟨other, otherMember, same⟩ := List.mem_map.mp forgotten
  have samePc : other.pc = frame.pc := (Frame.mk.inj same).1
  rw [← samePc]
  exact (Journal.mem_frames.mp otherMember).1

theorem pcs (agrees : Agrees journal table) : table.frames.map (·.pc) = journal.offsets := by
  have same := congrArg (List.map Frame.pc) agrees.frames
  rw [List.map_map, List.map_map] at same
  exact same.trans journal.pcs_frames

theorem of_found (entry : table.entry.forget = journal.entry.forget)
    (truthful : Truthful table.entry table.frames) (ascending : Ascending table.frames)
    (real : ∀ frame ∈ table.frames, frame.pc ≠ placeholderPc)
    (found : ∀ pc, pc ≠ placeholderPc →
      (frameIn? table.frames pc).map forget = (journal.frameAt? pc).map forget) :
    Agrees journal table := by
  refine ⟨entry, ?_, truthful⟩
  refine eq_of_frameIn? (ascending_map_forget.mpr ascending)
    (ascending_map_forget.mpr journal.ascending_frames) ?_
  intro pc
  rw [frameIn?_map_forget, frameIn?_map_forget]
  by_cases placeholder : pc = placeholderPc
  · subst placeholder
    rw [frameIn?_eq_none_iff.mpr real, frameIn?_eq_none_iff.mpr]
    intro frame member
    exact (Journal.mem_frames.mp member).1
  · rw [found pc placeholder, Journal.frameIn?_frames placeholder]

theorem insert (agrees : Agrees journal table) {edge : Edge} (counted : edge.frame.CountTrue)
    (real : edge.frame.pc ≠ placeholderPc) (absent : frameIn? table.frames edge.frame.pc = none) :
    Agrees { journal with edges := journal.edges ++ [edge] }
      { table with frames := insertFrame edge.frame table.frames } := by
  have absent' := frameIn?_eq_none_iff.mp absent
  refine of_found agrees.entry (truthful_insertFrame agrees.truthful counted)
    (ascending_insertFrame agrees.ascending absent') ?_ ?_
  · intro frame member
    rcases mem_insertFrame member with same | ⟨old, oldMember, same⟩
    · rw [same]
      exact real
    · rw [← same]
      exact agrees.real oldMember
  · intro pc pcReal
    rw [frameIn?_insertFrame absent', Journal.frameAt?_append]
    by_cases here : edge.frame.pc = pc
    · subst here
      have nothing := agrees.found real
      rw [absent, Option.map_none, eq_comm, Option.map_eq_none_iff] at nothing
      rw [if_pos rfl, if_pos rfl, nothing]
      rfl
    · rw [if_neg here, if_neg here]
      exact agrees.found pcReal

theorem replace (agrees : Agrees journal table) {edge : Edge} {existing merged : Frame}
    (present : frameIn? table.frames edge.frame.pc = some existing)
    (success : existing.merge edge.superTypes edge.frame = .ok merged)
    (absorbed : (Journal.absorb (journal.frameAt? edge.frame.pc) edge).map forget =
      some merged.forget) :
    Agrees { journal with edges := journal.edges ++ [edge] }
      { table with frames := replaceFrame merged table.frames } := by
  obtain ⟨member, samePc⟩ := (frameIn?_eq_some_iff agrees.ascending).mp present
  have kept := merge_of_real (decide_eq_false (agrees.real member)) success
  have mergedPc : merged.pc = edge.frame.pc := by
    rw [kept]
    exact samePc
  have only {frame : Frame} (frameMember : frame ∈ table.frames) (here : frame.pc = merged.pc) :
      frame = existing := by
    have found := (frameIn?_eq_some_iff agrees.ascending).mpr ⟨frameMember, here.trans mergedPc⟩
    rw [present] at found
    exact (Option.some.inj found).symm
  refine of_found agrees.entry ?_ (ascending_replaceFrame merged agrees.ascending) ?_ ?_
  -- Merging keeps the locals, so neither the merged frame nor the one behind it becomes wrong.
  · refine truthful_map _ ?_ ?_ ?_ agrees.truthful
    all_goals
      intro frame frameMember
      split
      · rename_i here
        rw [only frameMember here, kept]
      · rfl
  · intro frame frameMember
    obtain ⟨old, oldMember, rfl⟩ := List.mem_map.mp frameMember
    split
    · rename_i here
      rw [← here]
      exact agrees.real oldMember
    · exact agrees.real oldMember
  · intro pc pcReal
    rw [frameIn?_replaceFrame, Journal.frameAt?_append, mergedPc]
    by_cases here : edge.frame.pc = pc
    · subst here
      rw [if_pos rfl, if_pos rfl, present, absorbed]
      rfl
    · rw [if_neg here, if_neg here]
      exact agrees.found pcReal

theorem keep (agrees : Agrees journal table) {edge : Edge}
    (absorbed : edge.frame.pc ≠ placeholderPc →
      Journal.absorb (journal.frameAt? edge.frame.pc) edge = journal.frameAt? edge.frame.pc) :
    Agrees { journal with edges := journal.edges ++ [edge] } table := by
  refine of_found agrees.entry agrees.truthful agrees.ascending (fun _ => agrees.real) ?_
  intro pc real
  rw [agrees.found real, Journal.frameAt?_append]
  by_cases here : edge.frame.pc = pc
  · subst here
    rw [if_pos rfl, absorbed real]
  · rw [if_neg here]

theorem record (agrees : Agrees journal table) {edge : Edge} (counted : edge.frame.CountTrue) :
    (table.call (.record edge)).1 = (journal.call (.record edge)).1 ∧
      Agrees (journal.call (.record edge)).2 (table.call (.record edge)).2 := by
  simp only [MethodFrames.call, Journal.call, Journal.verdict, run_record]
  by_cases placeholder : edge.frame.isPlaceholder = true
  · rw [if_pos placeholder, if_pos placeholder]
    refine ⟨rfl, agrees.keep ?_⟩
    intro real
    exact absurd (of_decide_eq_true placeholder) real
  · rw [if_neg placeholder, if_neg placeholder]
    have real : edge.frame.pc ≠ placeholderPc := fun same => placeholder (decide_eq_true same)
    have found := agrees.found real
    -- The frame at the offset is the journal's but for what it remembers, so both merge alike.
    cases present : frameIn? table.frames edge.frame.pc with
    | none =>
        rw [present, Option.map_none, eq_comm, Option.map_eq_none_iff] at found
        have atTable : table.frameAt? edge.frame.pc = none := present
        rw [atTable, found]
        exact ⟨rfl, agrees.insert counted real present⟩
    | some existing =>
        rw [present, Option.map_some, eq_comm, Option.map_eq_some_iff] at found
        obtain ⟨frame, frameFound, same⟩ := found
        have atTable : table.frameAt? edge.frame.pc = some existing := present
        have agree := merge_congr same edge.superTypes edge.frame
        simp only [atTable, frameFound]
        cases merging : existing.merge edge.superTypes edge.frame with
        | error cause =>
            cases other : frame.merge edge.superTypes edge.frame with
            | ok _ => simp [merging, other, Except.map] at agree
            | error otherCause =>
                rw [merging, other] at agree
                obtain rfl := Except.error.inj agree
                refine ⟨rfl, agrees.keep ?_⟩
                intro _
                simp only [frameFound, Journal.absorb, other]
        | ok merged =>
            cases other : frame.merge edge.superTypes edge.frame with
            | error _ => simp [merging, other, Except.map] at agree
            | ok otherMerged =>
                rw [merging, other] at agree
                have sameMerged : otherMerged.forget = merged.forget := Except.ok.inj agree
                refine ⟨rfl, agrees.replace present merging ?_⟩
                simp only [frameFound, Journal.absorb, other, Option.map_some, sameMerged]

theorem encode (agrees : Agrees journal table) :
    (table.call .encode).1 = (journal.call .encode).1 ∧
      Agrees (journal.call .encode).2 (table.call .encode).2 := by
  constructor
  · have outcome : table.encode.outcome = compressAll journal.entry journal.frames := by
      rw [MethodFrames.encode, outcome_ofFrames agrees.truthful, ← compressAll_forget,
        agrees.entry, agrees.frames, compressAll_forget]
    exact congrArg TableAnswer.encoded outcome
  · exact ⟨(forget_previous_ofFrames table.entry table.frames).trans agrees.entry,
      (forget_frames_ofFrames table.entry table.frames).trans agrees.frames,
      truthful_ofFrames agrees.truthful⟩

theorem run (agrees : Agrees journal table) {calls : List TableCall}
    (counted : ∀ edge, .record edge ∈ calls → edge.frame.CountTrue) :
    (table.run calls).1 = (journal.run calls).1 ∧
      Agrees (journal.run calls).2 (table.run calls).2 := by
  induction calls generalizing journal table with
  | nil => exact ⟨rfl, agrees⟩
  | cons call rest ih =>
      have step : (table.call call).1 = (journal.call call).1 ∧
          Agrees (journal.call call).2 (table.call call).2 := by
        cases call with
        | record edge => exact agrees.record (counted edge List.mem_cons_self)
        | encode => exact agrees.encode
      obtain ⟨sameAnswers, agreeing⟩ :=
        ih step.2 fun edge member => counted edge (List.mem_cons_of_mem _ member)
      refine ⟨?_, agreeing⟩
      rw [MethodFrames.run, Journal.run]
      simp only [step.1, sameAnswers]

end Agrees

theorem agrees_start (entry : Frame) (counted : entry.CountTrue) : Agrees { entry } { entry } :=
  ⟨rfl, rfl, counted⟩

end MethodFrames

namespace Journal

def recorded : List TableCall → List Edge
  | [] => []
  | .record edge :: rest => edge :: recorded rest
  | .encode :: rest => recorded rest

theorem mem_recorded {calls : List TableCall} {edge : Edge} :
    edge ∈ recorded calls ↔ .record edge ∈ calls := by
  induction calls with
  | nil => simp [recorded]
  | cons call rest ih => cases call <;> simp [recorded, ih]

theorem run_eq (journal : Journal) (calls : List TableCall) :
    (journal.run calls).2 = { journal with edges := journal.edges ++ recorded calls } := by
  induction calls generalizing journal with
  | nil => simp [run, recorded]
  | cons call rest ih => cases call <;> simp [run, recorded, Journal.call, ih]

end Journal

namespace MethodFrames

/-- An edge that is refused, or that says nothing, leaves the table as it was. -/
theorem call_record_unchanged {table : MethodFrames} {edge : Edge}
    (without : edge.frame.isPlaceholder = true ∨
      (table.call (.record edge)).1 ≠ .recorded (.ok ())) :
    (table.call (.record edge)).2 = table := by
  rcases without with placeholder | refused
  · rw [call, run_record, if_pos placeholder]
  · cases outcome : ((MethodFramesM.record edge.superTypes edge.frame).run.run table).1 with
    | error fault => exact atomic_record edge.superTypes edge.frame table fault outcome
    | ok _ => exact absurd (congrArg TableAnswer.recorded outcome) refused

theorem agrees_run {entry : Frame} {calls : List TableCall} (entryCounted : entry.CountTrue)
    (counted : ∀ edge, .record edge ∈ calls → edge.frame.CountTrue) :
    (run { entry } calls).1 = (Journal.run { entry } calls).1 ∧
      Agrees { entry, edges := Journal.recorded calls } (run { entry } calls).2 := by
  have both := (agrees_start entry entryCounted).run counted
  rwa [Journal.run_eq, List.nil_append] at both

/-- Whatever is recorded and compressed in whatever order, the table answers every call as the
journal does, holds its frames, one at each offset that an edge leads to, and is not changed by an
edge that is refused or says nothing. -/
theorem run_refines_journal {entry : Frame} {calls : List TableCall}
    (entryReachable : entry.Reachable)
    (reachable : ∀ edge, .record edge ∈ calls → edge.frame.Reachable) :
    let table := (run { entry } calls).2
    let journal : Journal := { entry, edges := Journal.recorded calls }
    (run { entry } calls).1 = (Journal.run { entry } calls).1 ∧
      table.entry.forget = entry.forget ∧
      table.frames.map forget = journal.frames.map forget ∧
      table.frames.map (·.pc) = journal.offsets ∧
      Ascending table.frames ∧
      (∀ pc, pc ≠ placeholderPc →
        (table.frameAt? pc).map forget = (journal.frameAt? pc).map forget) ∧
      ∀ edge : Edge, edge.frame.isPlaceholder = true ∨
          (table.call (.record edge)).1 ≠ .recorded (.ok ()) →
        (table.call (.record edge)).2 = table := by
  intro table journal
  obtain ⟨sameAnswers, agrees⟩ := agrees_run entryReachable.countTrue
    fun edge member => (reachable edge member).countTrue
  exact ⟨sameAnswers, agrees.entry, agrees.frames, agrees.pcs, agrees.ascending,
    fun pc real => agrees.found real, fun edge => call_record_unchanged⟩

/-- Between two compressions, an edge of another depth is refused and one leads to an earlier
offset. -/
theorem run_refines_journal_earlier_edge :
    let entry : Frame := { pc := -1 }
    let deep : Frame := { pc := 5, stack := [.integer, .null] }
    let calls : List TableCall := [.record ⟨fun _ _ => none, deep⟩, .encode,
      .record ⟨fun _ _ => none, { pc := 5 }⟩, .record ⟨fun _ _ => none, { pc := 3 }⟩, .encode]
    entry.Reachable ∧ (∀ edge, .record edge ∈ calls → edge.frame.Reachable) ∧
      (run { entry } calls).1 = (Journal.run { entry } calls).1 ∧
      (run { entry } calls).2.frames.map (·.pc) = [3, 5] := by
  intro entry deep calls
  have entryReachable : entry.Reachable := .new (-1)
  have reachable : ∀ edge, .record edge ∈ calls → edge.frame.Reachable := by
    intro edge member
    rw [← Journal.mem_recorded] at member
    rcases member with _ | ⟨_, _ | ⟨_, _ | ⟨_, ⟨⟩⟩⟩⟩
    · have made : Frame.ofSnapshot 5 [] [.integer, .null] = .ok deep := rfl
      exact .ofSnapshot made
    · exact .new 5
    · exact .new 3
  have refined := run_refines_journal entryReachable reachable
  refine ⟨entryReachable, reachable, refined.1, ?_⟩
  rw [refined.2.2.2.1]
  decide

end MethodFrames

end JvmFrames
