import JvmFrames.Proofs.Frame.Bare
import JvmFrames.Proofs.Frame.Cover
import JvmFrames.Proofs.Frame.Merge
import JvmFrames.Proofs.MethodFrames.Journal
import Mathlib.Data.List.Forall2

/-!
The order in which edges are recorded. Of a table only the stacks at the offsets depend on it, and
in a hierarchy that is grounded in the library types two edges change these stacks alike in either
order. The main statement lifts this to all orders of any number of edges.
-/

namespace JvmFrames

open VerificationType JvmFrames.Frame

namespace MethodFrames

def stackAt? (table : MethodFrames) (pc : Int) : Option (List VerificationType) :=
  (table.frameAt? pc).map fun frame => erase frame.stack

def flow? (superTypes : SuperTypes) : Option (List VerificationType) → List VerificationType →
    Option (List VerificationType)
  | none, stack => some (erase stack)
  | some old, stack => coverAll? superTypes old stack

def recordStack? (superTypes : SuperTypes) (known : Int → Option (List VerificationType))
    (frame : Frame) : Option (Int → Option (List VerificationType)) :=
  (flow? superTypes (known frame.pc) frame.stack).map fun stack =>
    Function.update known frame.pc (some stack)

variable {hierarchy : Hierarchy}

theorem flow?_right_comm (grounded : hierarchy.Grounded) (old : Option (List VerificationType))
    (first second : List VerificationType) :
    (flow? hierarchy.commonSuperclass? old first).bind
        (fun stack => flow? hierarchy.commonSuperclass? (some stack) second) =
      (flow? hierarchy.commonSuperclass? old second).bind
        fun stack => flow? hierarchy.commonSuperclass? (some stack) first := by
  cases old with
  | none =>
      simp only [flow?, Option.bind_some, coverAll?_erase_left]
      exact coverAll?_comm grounded first second
  | some old => exact coverAll?_right_comm grounded old first second

theorem bind_recordStack?_same (superTypes : SuperTypes)
    (known : Int → Option (List VerificationType)) {first second : Frame}
    (samePc : first.pc = second.pc) :
    (recordStack? superTypes known first).bind (recordStack? superTypes · second) =
      ((flow? superTypes (known first.pc) first.stack).bind
        fun stack => flow? superTypes (some stack) second.stack).map fun stack =>
          Function.update known first.pc (some stack) := by
  rw [recordStack?]
  cases flow? superTypes (known first.pc) first.stack with
  | none => rfl
  | some stack => simp [recordStack?, ← samePc]

theorem bind_recordStack?_apart (superTypes : SuperTypes)
    (known : Int → Option (List VerificationType)) {first second : Frame}
    (apart : first.pc ≠ second.pc) :
    (recordStack? superTypes known first).bind (recordStack? superTypes · second) =
      (flow? superTypes (known first.pc) first.stack).bind fun firstStack =>
        (flow? superTypes (known second.pc) second.stack).map fun secondStack =>
          Function.update (Function.update known first.pc (some firstStack)) second.pc
            (some secondStack) := by
  rw [recordStack?]
  cases flow? superTypes (known first.pc) first.stack with
  | none => rfl
  | some stack => simp [recordStack?, Function.update_of_ne (Ne.symm apart)]

theorem recordStack?_right_comm (grounded : hierarchy.Grounded)
    (known : Int → Option (List VerificationType)) (first second : Frame) :
    (recordStack? hierarchy.commonSuperclass? known first).bind
        (recordStack? hierarchy.commonSuperclass? · second) =
      (recordStack? hierarchy.commonSuperclass? known second).bind
        (recordStack? hierarchy.commonSuperclass? · first) := by
  by_cases samePc : first.pc = second.pc
  · rw [bind_recordStack?_same _ _ samePc, bind_recordStack?_same _ _ samePc.symm, ← samePc,
      flow?_right_comm grounded]
  · rw [bind_recordStack?_apart _ _ samePc, bind_recordStack?_apart _ _ (Ne.symm samePc)]
    cases flow? hierarchy.commonSuperclass? (known first.pc) first.stack with
    | none =>
        cases flow? hierarchy.commonSuperclass? (known second.pc) second.stack <;> rfl
    | some firstStack =>
        cases flow? hierarchy.commonSuperclass? (known second.pc) second.stack with
        | none => rfl
        | some secondStack =>
            simp only [Option.bind_some, Option.map_some]
            rw [Function.update_comm samePc]

theorem stackAt?_eq (table : MethodFrames) (pc : Int) :
    table.stackAt? pc =
      ((frameIn? table.frames pc).map forget).map fun frame => erase frame.stack := by
  rw [Option.map_map]
  rfl

theorem stack_merge (superTypes : SuperTypes) {frame other : Frame}
    (frameReal : frame.isPlaceholder = false) (otherReal : other.isPlaceholder = false) :
    (frame.merge superTypes other).toOption.map (fun merged => erase merged.stack) =
      coverAll? superTypes frame.stack other.stack := by
  by_cases sameDepth : frame.stack.length = other.stack.length
  · rw [merge_of_sameDepth superTypes frameReal otherReal sameDepth,
      coverAll?_eq_mergeAll sameDepth]
    cases mergeAll superTypes frame.stack other.stack <;> rfl
  · rw [merge_of_mismatch superTypes frameReal otherReal sameDepth,
      coverAll?_of_length_ne sameDepth]
    rfl

theorem stackAt?_insertFrame {table : MethodFrames} {frame : Frame}
    (absent : frameIn? table.frames frame.pc = none) :
    stackAt? { table with frames := insertFrame frame table.frames } =
      Function.update table.stackAt? frame.pc (some (erase frame.stack)) := by
  funext pc
  rw [stackAt?_eq, frameIn?_insertFrame (frameIn?_eq_none_iff.mp absent)]
  by_cases here : frame.pc = pc
  · subst here
    rw [if_pos rfl, Function.update_self]
    rfl
  · rw [if_neg here, Function.update_of_ne (Ne.symm here), stackAt?_eq]

theorem stackAt?_replaceFrame {table : MethodFrames} {merged existing : Frame}
    (present : frameIn? table.frames merged.pc = some existing) :
    stackAt? { table with frames := replaceFrame merged table.frames } =
      Function.update table.stackAt? merged.pc (some (erase merged.stack)) := by
  funext pc
  rw [stackAt?, MethodFrames.frameAt?, ← frameIn?, frameIn?_replaceFrame]
  by_cases here : merged.pc = pc
  · subst here
    rw [if_pos rfl, Function.update_self, present]
    rfl
  · rw [if_neg here, Function.update_of_ne (Ne.symm here)]
    rfl

/-- Recording an edge changes the stacks of the table as it does without the table. -/
theorem stackAt?_record {journal : Journal} {table : MethodFrames} (agrees : Agrees journal table)
    (superTypes : SuperTypes) {frame : Frame} (real : frame.isPlaceholder = false) :
    (table.record superTypes frame).toOption.map stackAt? =
      recordStack? superTypes table.stackAt? frame := by
  rw [MethodFrames.record, resultOf, run_record, if_neg (Bool.eq_false_iff.mp real), recordStack?]
  cases present : table.frameAt? frame.pc with
  | none =>
      have nothing : table.stackAt? frame.pc = none := by rw [stackAt?, present, Option.map_none]
      rw [nothing]
      exact congrArg some (stackAt?_insertFrame present)
  | some existing =>
      obtain ⟨member, samePc⟩ := (frameIn?_eq_some_iff agrees.ascending).mp present
      have existingReal : existing.isPlaceholder = false := decide_eq_false (agrees.real member)
      have old : table.stackAt? frame.pc = some (erase existing.stack) := by
        rw [stackAt?, present, Option.map_some]
      have merging := stack_merge superTypes existingReal real
      simp only [old, flow?]
      rw [coverAll?_erase_left, ← merging]
      cases success : existing.merge superTypes frame with
      | error fault => rfl
      | ok merged =>
          have mergedPc : merged.pc = frame.pc := by
            rw [merge_of_real existingReal success]
            exact samePc
          rw [← mergedPc] at present ⊢
          exact congrArg some (stackAt?_replaceFrame present)

theorem Agrees.grow {journal : Journal} {table grown : MethodFrames} (agrees : Agrees journal table)
    {superTypes : SuperTypes} {frame : Frame} (counted : frame.CountTrue)
    (success : table.record superTypes frame = .ok grown) :
    Agrees { journal with edges := journal.edges ++ [⟨superTypes, frame⟩] } grown := by
  have edgeCounted : (Edge.mk superTypes frame).frame.CountTrue := counted
  have after := (agrees.record edgeCounted).2
  simp only [MethodFrames.call, map_snd_resultOf_eq_ok_iff.mp success] at after
  exact after

theorem Agrees.growAll {journal : Journal} {table last : MethodFrames}
    (agrees : Agrees journal table) {superTypes : SuperTypes} {frames : List Frame}
    (counted : ∀ frame ∈ frames, frame.CountTrue)
    (success : table.recordAll superTypes frames = .ok last) :
    Agrees { journal with edges := journal.edges ++ frames.map (Edge.mk superTypes) } last := by
  induction frames generalizing journal table with
  | nil =>
      obtain rfl := Except.ok.inj success
      simpa using agrees
  | cons frame rest ih =>
      rw [recordAll] at success
      cases recorded : table.record superTypes frame with
      | error fault =>
          rw [recorded] at success
          contradiction
      | ok grown =>
          rw [recorded] at success
          have grownAgrees := agrees.grow (counted frame List.mem_cons_self) recorded
          have lastAgrees := ih grownAgrees
            (fun other member => counted other (List.mem_cons_of_mem _ member)) success
          simpa using lastAgrees

theorem foldl_recordStack?_none (superTypes : SuperTypes) (frames : List Frame) :
    frames.foldl (fun known frame => known.bind (recordStack? superTypes · frame)) none = none := by
  induction frames with
  | nil => rfl
  | cons frame rest ih => exact ih

theorem stackAt?_recordAll {journal : Journal} {table : MethodFrames}
    (agrees : Agrees journal table) (superTypes : SuperTypes) {frames : List Frame}
    (counted : ∀ frame ∈ frames, frame.CountTrue)
    (real : ∀ frame ∈ frames, frame.isPlaceholder = false) :
    (table.recordAll superTypes frames).toOption.map stackAt? =
      frames.foldl (fun known frame => known.bind (recordStack? superTypes · frame))
        (some table.stackAt?) := by
  induction frames generalizing journal table with
  | nil => rfl
  | cons frame rest ih =>
      have step := stackAt?_record agrees superTypes (real frame List.mem_cons_self)
      rw [recordAll, List.foldl_cons, Option.bind_some, ← step]
      cases recorded : table.record superTypes frame with
      | error fault => exact (foldl_recordStack?_none superTypes rest).symm
      | ok grown =>
          exact ih (agrees.grow (counted frame List.mem_cons_self) recorded)
            (fun other member => counted other (List.mem_cons_of_mem _ member))
            (fun other member => real other (List.mem_cons_of_mem _ member))

theorem Agrees.locals {journal : Journal} {table : MethodFrames} (agrees : Agrees journal table)
    {frame : Frame} (member : frame ∈ table.frames) :
    ∃ edge ∈ journal.edges, edge.frame.pc = frame.pc ∧ edge.frame.locals = frame.locals := by
  have forgotten : frame.forget ∈ journal.frames.map forget := by
    rw [← agrees.frames]
    exact List.mem_map_of_mem member
  obtain ⟨other, otherMember, same⟩ := List.mem_map.mp forgotten
  obtain ⟨samePc, sameLocals, _⟩ := Frame.mk.inj same
  obtain ⟨edge, edgeMember, into, kept⟩ :=
    Journal.eq_of_frameAt? (Journal.mem_frames.mp otherMember).2
  rw [kept] at sameLocals
  exact ⟨edge, edgeMember, into.trans samePc, sameLocals⟩

theorem bare_frames_eq {first second : MethodFrames} (firstAscending : Ascending first.frames)
    (secondAscending : Ascending second.frames) (sameStacks : first.stackAt? = second.stackAt?)
    (sameLocals : ∀ left ∈ first.frames, ∀ right ∈ second.frames, left.pc = right.pc →
      left.locals.bare = right.locals.bare) :
    first.frames.map bare = second.frames.map bare := by
  have samePc (frame : Frame) : frame.bare.pc = frame.pc := rfl
  refine eq_of_frameIn? ((ascending_map bare samePc).mpr firstAscending)
    ((ascending_map bare samePc).mpr secondAscending) ?_
  intro pc
  rw [frameIn?_map bare samePc, frameIn?_map bare samePc]
  have sameStack : (frameIn? first.frames pc).map (fun frame => erase frame.stack) =
      (frameIn? second.frames pc).map fun frame => erase frame.stack := congrFun sameStacks pc
  cases left : frameIn? first.frames pc with
  | none =>
      rw [left, Option.map_none, eq_comm, Option.map_eq_none_iff] at sameStack
      rw [sameStack]
  | some leftFrame =>
      rw [left, Option.map_some, eq_comm, Option.map_eq_some_iff] at sameStack
      obtain ⟨rightFrame, right, sameStack⟩ := sameStack
      obtain ⟨leftMember, leftPc⟩ := (frameIn?_eq_some_iff firstAscending).mp left
      obtain ⟨rightMember, rightPc⟩ := (frameIn?_eq_some_iff secondAscending).mp right
      have pcs := leftPc.trans rightPc.symm
      have bareLocals := sameLocals leftFrame leftMember rightFrame rightMember pcs
      rw [right, Option.map_some, Option.map_some]
      simp only [bare, pcs, bareLocals, sameStack]

def Alike (first second : Except FaultAt MethodFrames) : Prop :=
  match first, second with
  | .ok first, .ok second =>
    List.Forall₂ (fun left right => left.same right = true) first.frames second.frames ∧
      first.encode.outcome.map (List.map PlacedFrame.forgetCopies) =
        second.encode.outcome.map (List.map PlacedFrame.forgetCopies)
  | .error _, .error _ => True
  | _, _ => False

theorem Agrees.outcome {journal : Journal} {table : MethodFrames} (agrees : Agrees journal table) :
    table.encode.outcome.map (List.map PlacedFrame.forgetCopies) =
      compressAll journal.entry.bare (table.frames.map bare) := by
  have sameEntry : table.entry.bare = journal.entry.bare := by
    change table.entry.forget.bare = journal.entry.forget.bare
    rw [agrees.entry]
  rw [MethodFrames.encode, Encoding.outcome_ofFrames agrees.truthful, ← compressAll_bare, sameEntry]

theorem Agrees.alike {firstJournal secondJournal : Journal} {first second : MethodFrames}
    (firstAgrees : Agrees firstJournal first) (secondAgrees : Agrees secondJournal second)
    (sameEntry : firstJournal.entry = secondJournal.entry)
    (sameStacks : first.stackAt? = second.stackAt?)
    (sameLocals : ∀ left ∈ firstJournal.edges, ∀ right ∈ secondJournal.edges,
      left.frame.pc = right.frame.pc → left.frame.locals.bare = right.frame.locals.bare) :
    Alike (.ok first) (.ok second) := by
  have bareFrames : first.frames.map bare = second.frames.map bare := by
    refine bare_frames_eq firstAgrees.ascending secondAgrees.ascending sameStacks ?_
    intro left leftMember right rightMember samePc
    obtain ⟨leftEdge, leftIn, leftPc, leftLocals⟩ := firstAgrees.locals leftMember
    obtain ⟨rightEdge, rightIn, rightPc, rightLocals⟩ := secondAgrees.locals rightMember
    rw [← leftLocals, ← rightLocals]
    exact sameLocals leftEdge leftIn rightEdge rightIn
      (leftPc.trans (samePc.trans rightPc.symm))
  constructor
  · have alike := List.forall₂_eq_eq_eq ▸ bareFrames
    rw [List.forall₂_map_left_iff, List.forall₂_map_right_iff] at alike
    exact alike.imp fun left right => same_iff_bare.mpr
  · rw [firstAgrees.outcome, secondAgrees.outcome, sameEntry, bareFrames]

/-- The stacks after recording, or that some edge is refused, do not depend on the order. -/
theorem stackAt?_recordAll_perm {hierarchy : Hierarchy} (grounded : hierarchy.Grounded)
    {journal : Journal} {table : MethodFrames} (agrees : Agrees journal table) {first second : List Frame}
    (reordered : first.Perm second) (counted : ∀ frame ∈ first, frame.CountTrue)
    (real : ∀ frame ∈ first, frame.isPlaceholder = false) :
    (table.recordAll hierarchy.commonSuperclass? first).toOption.map stackAt? =
      (table.recordAll hierarchy.commonSuperclass? second).toOption.map stackAt? := by
  rw [stackAt?_recordAll agrees _ counted real, stackAt?_recordAll agrees _
    (fun frame member => counted frame (reordered.mem_iff.mpr member))
    fun frame member => real frame (reordered.mem_iff.mpr member)]
  apply reordered.foldl_eq'
  intro left _ right _ known
  cases known with
  | none => rfl
  | some known => exact recordStack?_right_comm grounded known left right

/-- In whatever order edges with the same locals at each offset are recorded, some edge is refused
or none is, and if none is the table has the same frames and compresses alike. -/
theorem recordAll_perm {hierarchy : Hierarchy} (grounded : hierarchy.Grounded) {entry : Frame}
    {first second : List Frame} (reordered : first.Perm second) (entryReachable : entry.Reachable)
    (reachable : ∀ frame ∈ first, frame.Reachable)
    (real : ∀ frame ∈ first, frame.isPlaceholder = false)
    (sameLocals : ∀ left ∈ first, ∀ right ∈ first, left.pc = right.pc →
      left.locals.bare = right.locals.bare) :
    Alike (recordAll hierarchy.commonSuperclass? { entry } first)
      (recordAll hierarchy.commonSuperclass? { entry } second) := by
  have start := agrees_start entry entryReachable.countTrue
  have counted : ∀ frame ∈ first, frame.CountTrue :=
    fun frame member => (reachable frame member).countTrue
  -- The locals at an offset are the same in any order, so the stacks decide.
  have sameStacks := stackAt?_recordAll_perm grounded start reordered counted real
  cases firstDone : recordAll hierarchy.commonSuperclass? { entry } first with
  | error firstFault =>
      cases secondDone : recordAll hierarchy.commonSuperclass? { entry } second with
      | error secondFault => trivial
      | ok secondTable => simp [firstDone, secondDone, Except.toOption] at sameStacks
  | ok firstTable =>
      cases secondDone : recordAll hierarchy.commonSuperclass? { entry } second with
      | error secondFault => simp [firstDone, secondDone, Except.toOption] at sameStacks
      | ok secondTable =>
          rw [firstDone, secondDone] at sameStacks
          have firstAgrees := start.growAll counted firstDone
          have secondAgrees := start.growAll
            (fun frame member => counted frame (reordered.mem_iff.mpr member)) secondDone
          refine firstAgrees.alike secondAgrees rfl (Option.some.inj sameStacks) ?_
          intro left leftIn right rightIn samePc
          obtain ⟨leftFrame, leftMember, rfl⟩ := List.mem_map.mp leftIn
          obtain ⟨rightFrame, rightMember, rfl⟩ := List.mem_map.mp rightIn
          exact sameLocals leftFrame leftMember rightFrame (reordered.mem_iff.mpr rightMember) samePc

/-- A null reference and a text meet at one offset, with an edge to an earlier one in between. -/
theorem recordAll_perm_null_first :
    let unknown : Frame := { pc := 5, stack := [.null] }
    let earlier : Frame := { pc := 3 }
    let text : Frame := { pc := 5, stack := [.object .string] }
    let frames := [unknown, earlier, text]
    Hierarchy.library.Grounded ∧ frames.Perm frames.reverse ∧ placeholder.Reachable ∧
      (∀ frame ∈ frames, frame.Reachable) ∧ (∀ frame ∈ frames, frame.isPlaceholder = false) ∧
      (∀ left ∈ frames, ∀ right ∈ frames, left.pc = right.pc →
        left.locals.bare = right.locals.bare) ∧
      recordAll Hierarchy.library.commonSuperclass? { entry := placeholder } frames =
        .ok ⟨placeholder, [earlier, text]⟩ ∧
      Alike (recordAll Hierarchy.library.commonSuperclass? { entry := placeholder } frames)
        (recordAll Hierarchy.library.commonSuperclass? { entry := placeholder }
          frames.reverse) := by
  intro unknown earlier text frames
  have reordered : frames.Perm frames.reverse := (List.reverse_perm frames).symm
  have entryReachable : placeholder.Reachable := .new (-1)
  have unknownMade : ofSnapshot 5 [] [.null] = .ok unknown := rfl
  have textMade : ofSnapshot 5 [] [.object .string] = .ok text := rfl
  have reachable : ∀ frame ∈ frames, frame.Reachable := by
    intro frame member
    have cases : frame = unknown ∨ frame = earlier ∨ frame = text := by
      simpa [frames] using member
    rcases cases with same | same | same <;> rw [same]
    · exact .ofSnapshot unknownMade
    · exact .new 3
    · exact .ofSnapshot textMade
  have real : ∀ frame ∈ frames, frame.isPlaceholder = false := by decide
  have sameLocals : ∀ left ∈ frames, ∀ right ∈ frames, left.pc = right.pc →
      left.locals.bare = right.locals.bare := by decide
  refine ⟨Hierarchy.grounded_library, reordered, entryReachable, reachable, real, sameLocals, ?_,
    recordAll_perm Hierarchy.grounded_library reordered entryReachable reachable real sameLocals⟩
  rfl

end MethodFrames

end JvmFrames
