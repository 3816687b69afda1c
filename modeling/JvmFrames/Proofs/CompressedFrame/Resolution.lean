import JvmFrames.CompressedFrame.Resolution
import JvmFrames.Proofs.ConstantPool.Interning

/-!
Resolved frames. They are the frames with each class replaced by its number, and the numbers that
were handed out early are still right in the pool in the end.
-/

namespace JvmFrames

open ConstantPool

namespace VerificationType

def classNames : VerificationType → List BinaryName
  | .object name => [name]
  | _ => []

def entry (number : BinaryName → UInt16) : VerificationType → TypeEntry
  | .top => .top
  | .integer => .integer
  | .float => .float
  | .double => .double
  | .long => .long
  | .null => .null
  | .uninitializedThis _ => .uninitializedThis
  | .object name => .object (number name)
  | .uninitialized offset _ => .uninitialized offset

theorem internsClasses_resolve (type : VerificationType) :
    InternsClasses type.classNames (fun number => type.entry number) type.resolve := by
  cases type with
  | object name => exact (internsClasses_classOf name).map TypeEntry.object
  | _ => exact internsClasses_pure _

end VerificationType

namespace CompressedFrame

open VerificationType

variable {α β : Type}

def map (change : α → β) : CompressedFrame α → CompressedFrame β
  | .same delta => .same delta
  | .oneStackItem delta item => .oneStackItem delta (change item)
  | .chop delta count => .chop delta count
  | .append delta locals => .append delta (locals.map change)
  | .full delta locals stack => .full delta (locals.map change) (stack.map change)

def types : CompressedFrame α → List α
  | .same _ | .chop _ _ => []
  | .oneStackItem _ item => [item]
  | .append _ locals => locals
  | .full _ locals stack => locals ++ stack

def classNames (frame : CompressedFrame VerificationType) : List BinaryName :=
  frame.types.flatMap VerificationType.classNames

theorem internsClasses_resolve (frame : CompressedFrame VerificationType) :
    InternsClasses frame.classNames (fun number => frame.map (VerificationType.entry number))
      frame.resolve := by
  have list := internsClasses_mapM VerificationType.internsClasses_resolve
  cases frame with
  | same delta => exact internsClasses_pure _
  | chop delta count => exact internsClasses_pure _
  | oneStackItem delta item =>
      have whole := (VerificationType.internsClasses_resolve item).map (oneStackItem delta)
      rwa [classNames, types, List.flatMap_singleton]
  | append delta locals => exact (list locals).map (append delta)
  | full delta locals stack =>
      rw [classNames, types, List.flatMap_append]
      exact (list locals).bind fun locals => (list stack).map (full delta locals)

/-- Whatever the pool holds, a frame is resolved type by type. -/
theorem exists_map_of_resolve {pool after : ConstantPool} (reachable : pool.Reachable)
    {frame : CompressedFrame VerificationType} {resolved : CompressedFrame TypeEntry}
    (run : frame.resolve.run.run pool = (.ok resolved, after)) :
    ∃ number, resolved = frame.map (VerificationType.entry number) := by
  have interned := (internsClasses_resolve frame).run pool reachable.numbered
  rw [run] at interned
  cases interned with
  | done => exact ⟨_, rfl⟩

/-- The resolved frames mean in the later pool what the frames mean, and the later pool is the
earlier one with the constants that were missing for them. -/
structure Resolves (pool after : ConstantPool) (frames : List (CompressedFrame VerificationType))
    (resolved : List (CompressedFrame TypeEntry)) : Prop where
  entries : resolved = frames.map (map (VerificationType.entry (classIndex after.toList)))
  named : ∀ name ∈ frames.flatMap classNames, ∃ nameIndex,
    after.get? (classIndex after.toList name) = some (.classRef nameIndex) ∧
      after.get? nameIndex = some (.utf8 name.text)
  apart : ∀ name ∈ frames.flatMap classNames, ∀ other ∈ frames.flatMap classNames,
    classIndex after.toList name = classIndex after.toList other ↔ name = other
  kept : ∀ number constant, pool.get? number = some constant → after.get? number = some constant
  added : after.toList = pool.toList ++
    missing pool.toList ((frames.flatMap classNames).flatMap (classConstants after.toList))

theorem internsClasses_resolveAll (frames : List (CompressedFrame VerificationType)) :
    InternsClasses (frames.flatMap classNames)
      (fun number => frames.map (map (VerificationType.entry number))) (resolveAll frames) :=
  internsClasses_mapM internsClasses_resolve frames

theorem resolves_of_interned {pool after : ConstantPool}
    {frames : List (CompressedFrame VerificationType)}
    (numbered : after.Numbered)
    (added : after.toList = pool.toList ++
      missing pool.toList ((frames.flatMap classNames).flatMap (classConstants after.toList))) :
    Resolves pool after frames
      (frames.map (map (VerificationType.entry (classIndex after.toList)))) := by
  have present (name) (member : name ∈ frames.flatMap classNames) :
      classConstants after.toList name ⊆ after.toList := by
    intro constant needed
    exact subset_of_added added (List.mem_flatMap.mpr ⟨name, member, needed⟩)
  refine ⟨rfl, ?_, ?_, ?_, added⟩
  · intro name member
    exact numbered.get?_classIndex (present name member)
  · intro name member other otherMember
    exact numbered.classIndex_inj (present name member) (present other otherMember)
  · intro number constant found
    exact get?_of_prefix ⟨_, added.symm⟩ found

/-- Resolving frames from a pool that can be made either gives frames that mean the same, or fails
because there is no room for two constants for each class. Each constant that was there keeps its
number in either case. -/
theorem resolveAll_means {pool : ConstantPool} (reachable : pool.Reachable)
    (frames : List (CompressedFrame VerificationType)) :
    (∀ resolved after, (resolveAll frames).run.run pool = (.ok resolved, after) →
      Resolves pool after frames resolved) ∧
    ∀ fault after, (resolveAll frames).run.run pool = (.error fault, after) →
      (∀ number constant, pool.get? number = some constant → after.get? number = some constant) ∧
        65534 < pool.size + 2 * (frames.flatMap classNames).length := by
  have interned := (internsClasses_resolveAll frames).run pool reachable.numbered
  constructor
  · intro resolved after run
    rw [run] at interned
    cases interned with
    | done numbered added => exact resolves_of_interned numbered added
  · intro fault after run
    rw [run] at interned
    cases interned with
    | full numbered grown overrun => exact ⟨fun _ _ found => get?_of_prefix grown found, overrun⟩

/-- A class that is known already, listed between two occurrences of one that is not. -/
theorem resolveAll_means_known_class :
    let shape : BinaryName := ⟨"Shape"⟩
    let circle : BinaryName := ⟨"Circle"⟩
    let pool := ((classOf shape).run.run .empty).2
    let frames : List (CompressedFrame VerificationType) :=
      [.oneStackItem 3 (.object circle), .full 0 [.object shape, .uninitialized 5 ⟨0, 0⟩]
        [.object circle]]
    pool.Reachable ∧ ∃ after shapeIndex circleIndex,
      (resolveAll frames).run.run pool =
        (.ok [.oneStackItem 3 (.object circleIndex),
          .full 0 [.object shapeIndex, .uninitialized 5] [.object circleIndex]], after) ∧
      shapeIndex ≠ circleIndex ∧
      ∃ nameIndex, after.get? circleIndex = some (.classRef nameIndex) ∧
        after.get? nameIndex = some (.utf8 "Circle") := by
  intro shape circle pool frames
  have reachable : pool.Reachable := .classOf shape .empty
  have size : pool.size ≤ 2 := by
    have interned := (interns_classOf shape).run .empty Reachable.empty.numbered
    simp only [pool]
    generalize (classOf shape).run.run .empty = outcome at interned ⊢
    cases interned with
    | done _ _ size => exact size
    | full _ _ overrun => contradiction
  have classes : (frames.flatMap classNames).length = 3 := rfl
  obtain ⟨succeeds, fails⟩ := resolveAll_means reachable frames
  obtain ⟨resolved, after, run⟩ : ∃ resolved after,
      (resolveAll frames).run.run pool = (.ok resolved, after) := by
    rcases run : (resolveAll frames).run.run pool with ⟨fault | resolved, after⟩
    · have overrun := (fails fault after run).2
      omega
    · exact ⟨resolved, after, rfl⟩
  have means := succeeds resolved after run
  have circleListed : circle ∈ frames.flatMap classNames := by decide
  have shapeListed : shape ∈ frames.flatMap classNames := by decide
  refine ⟨reachable, after, classIndex after.toList shape, classIndex after.toList circle, ?_, ?_,
    means.named circle circleListed⟩
  · rw [run, means.entries]
    rfl
  · intro same
    exact absurd ((means.apart shape shapeListed circle circleListed).mp same) (by decide)

end CompressedFrame

end JvmFrames
