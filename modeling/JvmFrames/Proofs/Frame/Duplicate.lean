import JvmFrames.Proofs.Frame.Bare
import JvmFrames.Proofs.Marker.Renaming

/-!
Duplicates of frames. A supply hands out every copy number once, so a marker that came from it is
known by its copy number. Duplicating a frame of such markers therefore keeps apart what was apart
in the frame and together what was together, and its copies are shared with nothing that was there
before.
-/

namespace JvmFrames

open VerificationType

def Determined (markers : List Marker) : Prop :=
  ∀ marker ∈ markers, ∀ other ∈ markers, marker.copy = other.copy → marker = other

theorem Determined.subset {markers fewer : List Marker} (determined : Determined markers)
    (among : fewer ⊆ markers) : Determined fewer :=
  fun marker member other otherMember => determined marker (among member) other (among otherMember)

namespace Renaming

variable {before after : MarkerSupply} {markers : List Marker} {change : Marker → Marker}

theorem origin_eq (renamed : Renaming before after markers change)
    (determined : Determined markers) {marker : Marker} (member : marker ∈ markers) :
    (change marker).origin = marker.origin := by
  obtain ⟨source, sourceMember, sameNumber, origin⟩ := renamed.origin marker member
  rw [← origin, determined source sourceMember marker member sameNumber]

theorem eq_iff (renamed : Renaming before after markers change) (determined : Determined markers)
    {marker other : Marker} (member : marker ∈ markers) (otherMember : other ∈ markers) :
    change marker = change other ↔ marker = other := by
  constructor
  · intro same
    exact determined marker member other otherMember
      (renamed.apart marker member other otherMember (congrArg Marker.copy same))
  · rintro rfl
    rfl

theorem sameCopy_rename (renamed : Renaming before after markers change)
    (determined : Determined markers) {left right : VerificationType}
    (leftAmong : left.markers ⊆ markers) (rightAmong : right.markers ⊆ markers) :
    (left.rename change).sameCopy (right.rename change) = left.sameCopy right := by
  unfold VerificationType.markers at leftAmong rightAmong
  rw [sameCopy, sameCopy, marker?_rename, marker?_rename]
  cases leftFound : left.marker? with
  | none => rfl
  | some leftMarker =>
      cases rightFound : right.marker? with
      | none => rfl
      | some rightMarker =>
          have leftMember : leftMarker ∈ markers := leftAmong (by simp [leftFound])
          have rightMember : rightMarker ∈ markers := rightAmong (by simp [rightFound])
          simp [renamed.eq_iff determined leftMember rightMember]

theorem determined_map (renamed : Renaming before after markers change) :
    Determined (markers.map change) := by
  intro marker member other otherMember same
  obtain ⟨source, sourceMember, rfl⟩ := List.mem_map.mp member
  obtain ⟨otherSource, otherSourceMember, rfl⟩ := List.mem_map.mp otherMember
  exact renamed.together source sourceMember otherSource otherSourceMember
    (renamed.apart source sourceMember otherSource otherSourceMember same)

end Renaming

def Locals.cellMarkers : Option VerificationType → List Marker
  | none => []
  | some type => type.markers

namespace Frame

def carried (frame : Frame) : Frame :=
  { frame with stack := if frame.adoptsStack then frame.stack else [] }

def markers (frame : Frame) : List Marker :=
  frame.locals.flatMap Locals.cellMarkers ++ frame.stack.flatMap VerificationType.markers

def rename (change : Marker → Marker) (frame : Frame) : Frame :=
  { frame with
    locals := frame.locals.map (Option.map (VerificationType.rename change))
    stack := frame.stack.map (VerificationType.rename change) }

def typeAt? (frame : Frame) (position : Nat) : Option VerificationType :=
  ((frame.locals ++ frame.stack.map some)[position]?).join

def sameCopyAt (frame : Frame) (left right : Nat) : Bool :=
  match frame.typeAt? left, frame.typeAt? right with
  | some leftType, some rightType => leftType.sameCopy rightType
  | _, _ => false

/-- Changing all types changes the one in every position. -/
theorem typeAt?_of_map {frame changed : Frame} {change : VerificationType → VerificationType}
    (locals : changed.locals = frame.locals.map (Option.map change))
    (stack : changed.stack = frame.stack.map change) (position : Nat) :
    changed.typeAt? position = (frame.typeAt? position).map change := by
  have whole : changed.locals ++ changed.stack.map some =
      (frame.locals ++ frame.stack.map some).map (Option.map change) := by
    simp [locals, stack]
  rw [typeAt?, typeAt?, whole, List.getElem?_map]
  cases (frame.locals ++ frame.stack.map some)[position]? <;> rfl

theorem typeAt?_rename (change : Marker → Marker) (frame : Frame) (position : Nat) :
    (frame.rename change).typeAt? position =
      (frame.typeAt? position).map (VerificationType.rename change) :=
  typeAt?_of_map rfl rfl position

theorem markers_typeAt? {frame : Frame} {position : Nat} {type : VerificationType}
    (found : frame.typeAt? position = some type) : type.markers ⊆ frame.markers := by
  rw [typeAt?, Option.join_eq_some_iff] at found
  intro marker member
  rcases List.mem_append.mp (List.mem_of_getElem? found) with inLocals | onStack
  · exact List.mem_append_left _ (List.mem_flatMap.mpr ⟨_, inLocals, member⟩)
  · obtain ⟨item, itemMember, same⟩ := List.mem_map.mp onStack
    rw [Option.some.inj same] at itemMember
    exact List.mem_append_right _ (List.mem_flatMap.mpr ⟨type, itemMember, member⟩)

theorem sameCopyAt_rename {before after : MarkerSupply} {change : Marker → Marker} {frame : Frame}
    (renamed : Renaming before after frame.markers change) (determined : Determined frame.markers)
    (left right : Nat) :
    (frame.rename change).sameCopyAt left right = frame.sameCopyAt left right := by
  rw [sameCopyAt, sameCopyAt, typeAt?_rename, typeAt?_rename]
  cases leftFound : frame.typeAt? left with
  | none => rfl
  | some leftType =>
      cases rightFound : frame.typeAt? right with
      | none => rfl
      | some rightType =>
          exact renamed.sameCopy_rename determined (markers_typeAt? leftFound)
            (markers_typeAt? rightFound)

theorem markers_rename (change : Marker → Marker) (frame : Frame) :
    (frame.rename change).markers = frame.markers.map change := by
  have cell (cell : Option VerificationType) :
      Locals.cellMarkers (cell.map (VerificationType.rename change)) =
        (Locals.cellMarkers cell).map change := by
    cases cell with
    | none => rfl
    | some type => exact VerificationType.markers_rename change type
  simp [markers, rename, List.flatMap_map, List.map_flatMap, cell,
    VerificationType.markers_rename]

theorem markers_carried_subset (frame : Frame) : frame.carried.markers ⊆ frame.markers := by
  intro marker member
  rcases List.mem_append.mp member with inLocals | onStack
  · exact List.mem_append_left _ inLocals
  · by_cases adopts : frame.adoptsStack = true
    · rw [carried, if_pos adopts] at onStack
      exact List.mem_append_right _ onStack
    · simp [carried, if_neg adopts] at onStack

theorem bare_rename {change : Marker → Marker} {frame : Frame}
    (origins : ∀ marker ∈ frame.markers, (change marker).origin = marker.origin) :
    (frame.rename change).locals.bare = frame.locals.bare ∧
      erase (frame.rename change).stack = erase frame.stack := by
  constructor
  · rw [Locals.bare, Locals.bare, rename, List.map_map]
    refine List.map_congr_left fun cell inLocals => ?_
    cases cell with
    | none => rfl
    | some type =>
        refine congrArg some (forgetCopy_rename fun marker member => origins marker ?_)
        exact List.mem_append_left _ (List.mem_flatMap.mpr ⟨_, inLocals, member⟩)
  · rw [erase, erase, rename, List.map_map]
    refine List.map_congr_left fun type onStack => ?_
    refine forgetCopy_rename fun marker member => origins marker ?_
    exact List.mem_append_right _ (List.mem_flatMap.mpr ⟨type, onStack, member⟩)

open Copying in
theorem renames_copyLocal {sources : List Marker} {start : Nat} {cell : Option VerificationType}
    (among : Locals.cellMarkers cell ⊆ sources) :
    Renames start sources (Locals.cellMarkers cell) (copyLocal cell)
      fun change => cell.map (VerificationType.rename change) := by
  cases cell with
  | none => exact renames_pure none
  | some type => exact (renames_type among).map some

open Copying in
theorem renames_copy (frame : Frame) (start : Nat) :
    Renames start frame.carried.markers frame.carried.markers frame.copy
      fun change => (frame.carried.rename change).forget := by
  have locals : Renames start frame.carried.markers (frame.locals.flatMap Locals.cellMarkers)
      (frame.locals.mapM copyLocal)
      fun change => frame.locals.map (Option.map (VerificationType.rename change)) :=
    renames_mapM fun cell inLocals => renames_copyLocal fun marker member =>
      List.mem_append_left _ (List.mem_flatMap.mpr ⟨cell, inLocals, member⟩)
  have stack : Renames start frame.carried.markers
      (frame.carried.stack.flatMap VerificationType.markers)
      (frame.carried.stack.mapM VerificationType.copy)
      fun change => frame.carried.stack.map (VerificationType.rename change) :=
    renames_mapM fun type onStack => renames_type fun marker member =>
      List.mem_append_right _ (List.mem_flatMap.mpr ⟨type, onStack, member⟩)
  let assemble (locals : Locals) (stack : List VerificationType) : Frame :=
    { pc := frame.pc, locals, stack, adoptsStack := frame.adoptsStack }
  exact locals.combine stack assemble

/-- A duplicate is the frame with renamed markers, less a stack that is not let go and less what the
frame remembers. -/
theorem duplicate_eq (frame : Frame) (supply : MarkerSupply) :
    ∃ change, (frame.duplicate.run supply).1 = (frame.carried.rename change).forget ∧
      Renaming supply (frame.duplicate.run supply).2 frame.carried.markers change :=
  (frame.renames_copy supply.nextCopy).whole

/-- A duplicate is the same as what it takes over, if copy numbers tell the frame's markers. -/
theorem bare_duplicate {frame : Frame} (determined : Determined frame.markers)
    (supply : MarkerSupply) : (frame.duplicate.run supply).1.bare = frame.carried.bare := by
  obtain ⟨change, copied, renamed⟩ := frame.duplicate_eq supply
  have carriedDetermined := determined.subset frame.markers_carried_subset
  obtain ⟨sameLocals, sameStack⟩ :=
    bare_rename fun marker member => renamed.origin_eq carriedDetermined member
  have forgotten : (frame.carried.rename change).forget.bare = (frame.carried.rename change).bare :=
    rfl
  rw [copied, forgotten, Frame.bare, sameLocals, sameStack]
  rfl

end Frame

inductive SupplyCall where
  | fresh
  | copyOf (marker : Marker)
  | duplicate (frame : Frame)

inductive Supplied where
  | marker (marker : Marker)
  | frame (frame : Frame)

namespace Supplied

def markers : Supplied → List Marker
  | .marker made => [made]
  | .frame made => made.markers

def Apart (earlier later : Supplied) : Prop :=
  ∀ marker ∈ earlier.markers, ∀ other ∈ later.markers, marker.copy ≠ other.copy

structure Between (before after : MarkerSupply) (answers : List Supplied) : Prop where
  grown : before.nextCopy ≤ after.nextCopy
  fresh : ∀ marker ∈ answers.flatMap markers,
    before.nextCopy ≤ marker.copy ∧ marker.copy < after.nextCopy
  determined : Determined (answers.flatMap markers)
  apart : answers.Pairwise Apart

theorem between_singleton {before after : MarkerSupply} {answer : Supplied}
    (grown : before.nextCopy ≤ after.nextCopy)
    (fresh : ∀ marker ∈ answer.markers,
      before.nextCopy ≤ marker.copy ∧ marker.copy < after.nextCopy)
    (determined : Determined answer.markers) : Between before after [answer] := by
  have whole : [answer].flatMap markers = answer.markers := by simp
  exact ⟨grown, whole ▸ fresh, whole ▸ determined, List.pairwise_singleton _ _⟩

theorem between_marker {before after : MarkerSupply} {made : Marker}
    (number : made.copy = before.nextCopy) (next : after.nextCopy = before.nextCopy + 1) :
    Between before after [.marker made] := by
  refine between_singleton (by omega) ?_ ?_
  · intro marker member
    rw [List.mem_singleton.mp member]
    omega
  · intro marker member other otherMember _
    rw [List.mem_singleton.mp member, List.mem_singleton.mp otherMember]

theorem Between.append {before middle after : MarkerSupply} {answers later : List Supplied}
    (first : Between before middle answers) (second : Between middle after later) :
    Between before after (answers ++ later) := by
  have differ : ∀ marker ∈ answers.flatMap markers, ∀ other ∈ later.flatMap markers,
      marker.copy ≠ other.copy := by
    intro marker member other otherMember
    exact Nat.ne_of_lt (Nat.lt_of_lt_of_le (first.fresh marker member).2
      (second.fresh other otherMember).1)
  refine ⟨Nat.le_trans first.grown second.grown, ?_, ?_, ?_⟩
  · intro marker member
    rw [List.flatMap_append, List.mem_append] at member
    rcases member with early | late
    · have bounds := first.fresh marker early
      exact ⟨bounds.1, Nat.lt_of_lt_of_le bounds.2 second.grown⟩
    · have bounds := second.fresh marker late
      exact ⟨Nat.le_trans first.grown bounds.1, bounds.2⟩
  · intro marker member other otherMember same
    rw [List.flatMap_append, List.mem_append] at member otherMember
    rcases member with early | late
    · rcases otherMember with otherEarly | otherLate
      · exact first.determined marker early other otherEarly same
      · exact absurd same (differ marker early other otherLate)
    · rcases otherMember with otherEarly | otherLate
      · exact absurd same.symm (differ other otherEarly marker late)
      · exact second.determined marker late other otherLate same
  · refine List.pairwise_append.mpr ⟨first.apart, second.apart, ?_⟩
    intro answer member other otherMember marker inAnswer otherMarker inOther
    exact differ marker (List.mem_flatMap.mpr ⟨answer, member, inAnswer⟩) otherMarker
      (List.mem_flatMap.mpr ⟨other, otherMember, inOther⟩)

end Supplied

namespace MarkerSupply

def answer : SupplyCall → StateM MarkerSupply Supplied
  | .fresh => do
    let marker ← MarkerSupply.fresh
    pure (.marker marker)
  | .copyOf marker => do
    let copied ← MarkerSupply.copyOf marker
    pure (.marker copied)
  | .duplicate frame => do
    let copied ← frame.duplicate
    pure (.frame copied)

def answerAll (calls : List SupplyCall) : StateM MarkerSupply (List Supplied) :=
  calls.mapM answer

theorem between_answer (supply : MarkerSupply) (call : SupplyCall) :
    Supplied.Between supply ((answer call).run supply).2 [((answer call).run supply).1] := by
  cases call with
  | fresh => exact Supplied.between_marker rfl rfl
  | copyOf source => exact Supplied.between_marker rfl rfl
  | duplicate frame =>
      have run : (answer (.duplicate frame)).run supply =
          (.frame (frame.duplicate.run supply).1, (frame.duplicate.run supply).2) := rfl
      obtain ⟨change, copied, renamed⟩ := frame.duplicate_eq supply
      have markers : (Supplied.frame (frame.duplicate.run supply).1).markers =
          frame.carried.markers.map change := by
        rw [copied]
        exact Frame.markers_rename change frame.carried
      rw [run]
      refine Supplied.between_singleton renamed.grown ?_ ?_
      · rw [markers]
        intro marker member
        obtain ⟨source, sourceMember, rfl⟩ := List.mem_map.mp member
        exact renamed.fresh source sourceMember
      · rw [markers]
        exact renamed.determined_map

/-- All answers of a run are apart from one another, and in each a copy number tells the marker. -/
theorem between_answerAll (supply : MarkerSupply) (calls : List SupplyCall) :
    Supplied.Between supply ((answerAll calls).run supply).2 ((answerAll calls).run supply).1 := by
  induction calls generalizing supply with
  | nil =>
      have run : (answerAll []).run supply = ([], supply) := rfl
      rw [run]
      exact ⟨Nat.le_refl _, by simp, by simp [Determined], List.Pairwise.nil⟩
  | cons call rest ih =>
      have run : (answerAll (call :: rest)).run supply =
          ([((answer call).run supply).1] ++
              ((answerAll rest).run ((answer call).run supply).2).1,
            ((answerAll rest).run ((answer call).run supply).2).2) := by
        rw [answerAll, List.mapM_cons]
        rfl
      rw [run]
      exact (between_answer supply call).append (ih ((answer call).run supply).2)

theorem determined_of_owned {start supply : MarkerSupply} {calls : List SupplyCall}
    {answers : List Supplied} {markers : List Marker}
    (run : (answerAll calls).run start = (answers, supply))
    (owned : markers ⊆ answers.flatMap Supplied.markers) : Determined markers := by
  have handedOut := between_answerAll start calls
  rw [run] at handedOut
  exact handedOut.determined.subset owned

/-- However markers and duplicates are made, a frame whose markers all came from the supply is
duplicated with its offset, its locals and its stack or none. Two positions of the duplicate hold
the same copy exactly if they did in the frame, and no copy is shared with the frame, with anything
made before, or between two things made before. -/
theorem duplicate_keeps_copies_apart {start supply : MarkerSupply} {calls : List SupplyCall}
    {answers : List Supplied} {frame : Frame}
    (run : (answerAll calls).run start = (answers, supply))
    (owned : frame.markers ⊆ answers.flatMap Supplied.markers) :
    let duplicate := (frame.duplicate.run supply).1
    duplicate.pc = frame.pc ∧ duplicate.adoptsStack = frame.adoptsStack ∧
      duplicate.locals.bare = frame.locals.bare ∧
      erase duplicate.stack = (if frame.adoptsStack then erase frame.stack else []) ∧
      (∀ left right, duplicate.sameCopyAt left right = frame.carried.sameCopyAt left right) ∧
      (∀ marker ∈ duplicate.markers,
        (∀ earlier ∈ answers.flatMap Supplied.markers, marker.copy ≠ earlier.copy) ∧
        ∀ own ∈ frame.markers, marker.copy ≠ own.copy) ∧
      answers.Pairwise Supplied.Apart := by
  intro duplicate
  have handedOut : Supplied.Between start supply answers := by
    have whole := between_answerAll start calls
    rwa [run] at whole
  obtain ⟨change, copied, renamed⟩ := frame.duplicate_eq supply
  have among : frame.carried.markers ⊆ answers.flatMap Supplied.markers :=
    List.Subset.trans frame.markers_carried_subset owned
  have determined : Determined frame.carried.markers := fun marker member other otherMember =>
    handedOut.determined marker (among member) other (among otherMember)
  obtain ⟨sameLocals, sameStack⟩ :=
    Frame.bare_rename fun marker member => renamed.origin_eq determined member
  have beyond : ∀ marker ∈ (frame.carried.rename change).markers,
      ∀ earlier ∈ answers.flatMap Supplied.markers, marker.copy ≠ earlier.copy := by
    intro marker member earlier earlierMember
    rw [Frame.markers_rename] at member
    obtain ⟨source, sourceMember, rfl⟩ := List.mem_map.mp member
    have new := (renamed.fresh source sourceMember).1
    have old := (handedOut.fresh earlier earlierMember).2
    omega
  simp only [duplicate, copied]
  refine ⟨rfl, rfl, sameLocals, ?_, ?_, ?_, handedOut.apart⟩
  · refine sameStack.trans ?_
    unfold Frame.carried
    split <;> rfl
  · intro left right
    exact Frame.sameCopyAt_rename renamed determined left right
  · intro marker member
    exact ⟨beyond marker member, fun own ownMember => beyond marker member own (owned ownMember)⟩

def constructing : Frame where
  pc := 7
  locals := [some (.uninitialized 3 ⟨0, 0⟩), some .long, none]
  stack := [.uninitialized 3 ⟨0, 1⟩, .uninitialized 3 ⟨0, 0⟩]

/-- Two objects made by one instruction, the older one in a local and on top of the stack. -/
theorem duplicate_constructing :
    let calls := [.fresh, .copyOf ⟨0, 0⟩, .duplicate constructing]
    let answers := ((answerAll calls).run {}).1
    let duplicate := (constructing.duplicate.run ⟨1, 4⟩).1
    (answerAll calls).run {} = (answers, ⟨1, 4⟩) ∧
      constructing.markers ⊆ answers.flatMap Supplied.markers ∧
      duplicate.locals.bare = constructing.locals.bare ∧
      duplicate.sameCopyAt 0 4 = true ∧ duplicate.sameCopyAt 0 3 = false ∧
      answers.Pairwise Supplied.Apart := by
  intro calls answers duplicate
  have run : (answerAll calls).run {} = (answers, ⟨1, 4⟩) := rfl
  have owned : constructing.markers ⊆ answers.flatMap Supplied.markers := by decide
  obtain ⟨_, _, sameLocals, _, sameCopies, _, apart⟩ := duplicate_keeps_copies_apart run owned
  exact ⟨run, owned, sameLocals, (sameCopies 0 4).trans (by decide),
    (sameCopies 0 3).trans (by decide), apart⟩

end MarkerSupply

end JvmFrames
