import JvmFrames.Proofs.Frame.Sound
import JvmFrames.Proofs.Locals.Slots

/-!
Initialization of objects. An object that was made is known by its origin, so all its copies become
initialized together, wherever they are in the frame and whichever copy the constructor was called
on. Nothing else changes, and it makes no difference whether the frame is duplicated before or
after.
-/

namespace JvmFrames

namespace VerificationType

def initializing (source : VerificationType) (name : BinaryName) (type : VerificationType) :
    VerificationType :=
  if type.same source then .object name else type

variable {type source other : VerificationType} {name otherName : BinaryName}

theorem initializing_of_same (same : type.same source = true) :
    initializing source name type = .object name :=
  if_pos same

theorem initializing_of_different (different : type.same source = false) :
    initializing source name type = type :=
  if_neg (by simp [different])

theorem initializing_cases (source : VerificationType) (name : BinaryName)
    (type : VerificationType) :
    type.same source = true ∧ initializing source name type = .object name ∨
      type.same source = false ∧ initializing source name type = type := by
  cases same : type.same source with
  | true => exact .inl ⟨rfl, initializing_of_same same⟩
  | false => exact .inr ⟨rfl, initializing_of_different same⟩

theorem object_same_eq_false (uninitialized : source.marker?.isSome = true) :
    (object name).same source = false := by
  cases source <;> simp_all [same, forgetCopy, marker?]

theorem same_initializing_eq_false (uninitialized : source.marker?.isSome = true) :
    (initializing source name type).same source = false := by
  rcases initializing_cases source name type with ⟨_, replaced⟩ | ⟨different, kept⟩
  · rw [replaced, object_same_eq_false uninitialized]
  · rw [kept, different]

theorem same_congr_right (agree : other.same source = true) :
    type.same other = type.same source := by
  rw [same, same, same_iff.mp agree]

theorem initializing_congr (agree : other.same source = true) :
    initializing other name = initializing source name := by
  funext type
  rw [initializing, initializing, same_congr_right agree]

theorem initializing_comm (uninitialized : source.marker?.isSome = true)
    (otherUninitialized : other.marker?.isSome = true) (different : other.same source = false) :
    initializing other otherName (initializing source name type) =
      initializing source name (initializing other otherName type) := by
  -- A type stands for at most one of two different objects, and once initialized for neither.
  rcases initializing_cases source name type with ⟨same, replaced⟩ | ⟨_, kept⟩
  · have apart : type.same other = false := by
      refine Bool.eq_false_iff.mpr fun both => ?_
      have agree := same_trans (same_symm both) same
      rw [different] at agree
      contradiction
    rw [replaced, initializing_of_different apart, replaced,
      initializing_of_different (object_same_eq_false otherUninitialized)]
  · rw [kept]
    rcases initializing_cases other otherName type with ⟨_, replaced⟩ | ⟨_, otherKept⟩
    · rw [replaced, initializing_of_different (object_same_eq_false uninitialized)]
    · rw [otherKept, kept]

theorem forgetCopy_initializing :
    (initializing source name type).forgetCopy = initializing source name type.forgetCopy := by
  have agree : type.forgetCopy.same source = type.same source := by simp [same]
  rw [initializing, initializing, agree]
  split <;> rfl

theorem markers_initializing_subset : (initializing source name type).markers ⊆ type.markers := by
  rcases initializing_cases source name type with ⟨_, replaced⟩ | ⟨_, kept⟩
  · rw [replaced]
    exact List.nil_subset _
  · rw [kept]
    exact List.Subset.refl _

end VerificationType

namespace Frame

open VerificationType

variable {source copy other : VerificationType} {name otherName : BinaryName}

theorem markInitialized_eq (frame : Frame) (source : VerificationType) (name : BinaryName) :
    frame.markInitialized source name =
      { frame with
        locals := frame.locals.map (Option.map (initializing source name))
        stack := frame.stack.map (initializing source name) }.forget :=
  rfl

theorem typeAt?_markInitialized (frame : Frame) (position : Nat) :
    (frame.markInitialized source name).typeAt? position =
      (frame.typeAt? position).map (initializing source name) :=
  typeAt?_of_map rfl rfl position

structure Initialized (source : VerificationType) (name : BinaryName) (before after : Frame) :
    Prop where
  pc : after.pc = before.pc
  slots : after.locals.length = before.locals.length
  depth : after.stack.length = before.stack.length
  count : after.localsCount = before.localsCount
  replaced : ∀ position type, before.typeAt? position = some type → type.same source = true →
    after.typeAt? position = some (.object name)
  kept : ∀ position, (∀ type, before.typeAt? position = some type → type.same source = false) →
    after.typeAt? position = before.typeAt? position
  gone : ∀ position type, after.typeAt? position = some type → type.same source = false

theorem localsCount_markInitialized {frame : Frame} (reachable : frame.Reachable)
    (source : VerificationType) (name : BinaryName) :
    (frame.markInitialized source name).localsCount = frame.localsCount := by
  have after := Reachable.markInitialized source name reachable
  rw [localsCount_eq reachable.countTrue, localsCount_eq after.countTrue,
    Locals.count_eq_countP reachable.sound.holes, Locals.count_eq_countP after.sound.holes,
    markInitialized_eq, forget, List.countP_map]
  exact List.countP_congr fun cell _ => by simp

theorem initialized_markInitialized {frame : Frame} (reachable : frame.Reachable)
    (uninitialized : source.marker?.isSome = true) (name : BinaryName) :
    Initialized source name frame (frame.markInitialized source name) where
  pc := rfl
  slots := List.length_map _
  depth := List.length_map _
  count := localsCount_markInitialized reachable source name
  replaced position type found same := by
    rw [typeAt?_markInitialized, found, Option.map_some, initializing_of_same same]
  kept position different := by
    rw [typeAt?_markInitialized]
    cases found : frame.typeAt? position with
    | none => rfl
    | some type => rw [Option.map_some, initializing_of_different (different type found)]
  gone position type found := by
    rw [typeAt?_markInitialized, Option.map_eq_some_iff] at found
    obtain ⟨before, _, rfl⟩ := found
    exact same_initializing_eq_false uninitialized

theorem markInitialized_congr (frame : Frame) (agree : copy.same source = true)
    (name : BinaryName) : frame.markInitialized copy name = frame.markInitialized source name := by
  rw [markInitialized_eq, markInitialized_eq, initializing_congr agree]

theorem markInitialized_comm (frame : Frame) (uninitialized : source.marker?.isSome = true)
    (otherUninitialized : other.marker?.isSome = true) (different : other.same source = false)
    (name otherName : BinaryName) :
    (frame.markInitialized source name).markInitialized other otherName =
      (frame.markInitialized other otherName).markInitialized source name := by
  have change : initializing other otherName ∘ initializing source name =
      initializing source name ∘ initializing other otherName :=
    funext fun _ => initializing_comm uninitialized otherUninitialized different
  simp only [markInitialized_eq, forget, List.map_map, Option.map_comp_map, change]

theorem markers_markInitialized_subset (frame : Frame) (source : VerificationType)
    (name : BinaryName) : (frame.markInitialized source name).markers ⊆ frame.markers := by
  intro marker member
  rcases List.mem_append.mp member with inLocals | onStack
  · obtain ⟨_, changed, found⟩ := List.mem_flatMap.mp inLocals
    obtain ⟨cell, inFrame, rfl⟩ := List.mem_map.mp changed
    refine List.mem_append_left _ (List.mem_flatMap.mpr ⟨cell, inFrame, ?_⟩)
    cases cell with
    | none => exact found
    | some type => exact markers_initializing_subset found
  · obtain ⟨_, changed, found⟩ := List.mem_flatMap.mp onStack
    obtain ⟨type, inFrame, rfl⟩ := List.mem_map.mp changed
    exact List.mem_append_right _
      (List.mem_flatMap.mpr ⟨type, inFrame, markers_initializing_subset found⟩)

theorem carried_markInitialized (frame : Frame) (source : VerificationType) (name : BinaryName) :
    (frame.markInitialized source name).carried = frame.carried.markInitialized source name := by
  cases adopts : frame.adoptsStack <;>
    simp [carried, markInitialized_eq, forget, adopts]

/-- Which copies there are does not matter to what is replaced. -/
theorem bare_markInitialized (frame : Frame) (source : VerificationType) (name : BinaryName) :
    (frame.markInitialized source name).bare = frame.bare.markInitialized source name := by
  have change : forgetCopy ∘ initializing source name = initializing source name ∘ forgetCopy :=
    funext fun _ => forgetCopy_initializing
  simp only [bare, Locals.bare, erase, markInitialized_eq, forget, ← Locals.map_forgetCopy,
    List.map_map, Option.map_comp_map, change]

theorem same_duplicate_markInitialized {frame : Frame} (determined : Determined frame.markers)
    (agree : copy.same source = true) (name : BinaryName) (supply : MarkerSupply) :
    ((frame.markInitialized copy name).duplicate.run supply).1.same
      ((frame.duplicate.run supply).1.markInitialized source name) = true := by
  have determinedAfter := determined.subset (frame.markers_markInitialized_subset copy name)
  -- The two duplicates differ in copy numbers only, which bare frames are without.
  rw [same_iff_bare]
  calc ((frame.markInitialized copy name).duplicate.run supply).1.bare
    _ = (frame.markInitialized copy name).carried.bare := bare_duplicate determinedAfter supply
    _ = (frame.carried.markInitialized copy name).bare := by rw [carried_markInitialized]
    _ = frame.carried.bare.markInitialized source name := by
      rw [bare_markInitialized, markInitialized_congr _ agree]
    _ = (frame.duplicate.run supply).1.bare.markInitialized source name := by
      rw [bare_duplicate determined]
    _ = ((frame.duplicate.run supply).1.markInitialized source name).bare :=
      (bare_markInitialized _ source name).symm

/-- Initializing an object by any of its copies replaces all its copies in the frame and nothing
else. Different objects may be initialized in either order, and a frame whose markers all came from
the supply may be duplicated before or after. -/
theorem markInitialized_all_copies {frame : Frame} (reachable : frame.Reachable)
    (uninitialized : source.marker?.isSome = true) (agree : copy.same source = true)
    (name : BinaryName) :
    Initialized source name frame (frame.markInitialized copy name) ∧
      (∀ other otherName, other.marker?.isSome = true → other.same source = false →
        (frame.markInitialized copy name).markInitialized other otherName =
          (frame.markInitialized other otherName).markInitialized copy name) ∧
      ∀ start calls answers supply,
        (MarkerSupply.answerAll calls).run start = (answers, supply) →
        frame.markers ⊆ answers.flatMap Supplied.markers →
        ((frame.markInitialized copy name).duplicate.run supply).1.same
          ((frame.duplicate.run supply).1.markInitialized source name) = true := by
  refine ⟨?_, ?_, ?_⟩
  · rw [markInitialized_congr frame agree]
    exact initialized_markInitialized reachable uninitialized name
  · intro other otherName otherUninitialized different
    simp only [markInitialized_congr _ agree]
    exact frame.markInitialized_comm uninitialized otherUninitialized different name otherName
  · intro start calls answers supply run owned
    exact same_duplicate_markInitialized (MarkerSupply.determined_of_owned run owned) agree name
      supply

/-- One object in a local and, as another copy, on the stack, below a second object that the same
instruction made. -/
theorem markInitialized_all_copies_constructing :
    let first : VerificationType := .uninitialized 3 ⟨0, 0⟩
    let copy : VerificationType := .uninitialized 3 ⟨0, 1⟩
    let second : VerificationType := .uninitialized 3 ⟨1, 2⟩
    let frame : Frame :=
      { pc := 7, locals := [some first, some .long, none], stack := [copy, second] }
    let name : BinaryName := ⟨"p/A"⟩
    let initialized : Frame :=
      { pc := 7
        locals := [some (.object name), some .long, none]
        stack := [.object name, second] }
    let answers : List Supplied := [.marker ⟨0, 0⟩, .marker ⟨0, 1⟩, .marker ⟨1, 2⟩]
    frame.Reachable ∧ first.marker?.isSome = true ∧ copy.same first = true ∧
      frame.markInitialized copy name = initialized ∧ Initialized first name frame initialized ∧
      second.marker?.isSome = true ∧ second.same first = false ∧
      initialized.markInitialized second name =
        (frame.markInitialized second name).markInitialized copy name ∧
      (MarkerSupply.answerAll [.fresh, .copyOf ⟨0, 0⟩, .fresh]).run {} = (answers, ⟨2, 3⟩) ∧
      frame.markers ⊆ answers.flatMap Supplied.markers ∧
      (initialized.duplicate.run ⟨2, 3⟩).1.same
        ((frame.duplicate.run ⟨2, 3⟩).1.markInitialized first name) = true := by
  intro first copy second frame name initialized answers
  have made : ofSnapshot 7 frame.locals frame.stack = .ok frame := rfl
  have reachable : frame.Reachable := .ofSnapshot made
  have replaced : frame.markInitialized copy name = initialized := by decide
  have run : (MarkerSupply.answerAll [.fresh, .copyOf ⟨0, 0⟩, .fresh]).run {} = (answers, ⟨2, 3⟩) :=
    rfl
  have owned : frame.markers ⊆ answers.flatMap Supplied.markers := by decide
  have uninitialized : first.marker?.isSome = true := rfl
  have agree : copy.same first = true := rfl
  have different : second.same first = false := rfl
  obtain ⟨everywhere, commutes, duplicates⟩ :=
    markInitialized_all_copies reachable uninitialized agree name
  have inTurn := commutes second name rfl different
  have copied := duplicates {} _ answers ⟨2, 3⟩ run owned
  rw [replaced] at everywhere inTurn copied
  exact ⟨reachable, uninitialized, agree, replaced, everywhere, rfl, different, inTurn, run, owned,
    copied⟩

end Frame

end JvmFrames
