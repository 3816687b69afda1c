import JvmFrames.Proofs.Frame.Sound

/-!
Operations on frames, one after the other. Each either does its work or fails, and leaves behind a
frame that can be made; one that fails has checked everything before it changed anything. A clone of
a frame is that frame, so cloning is no operation here.
-/

namespace JvmFrames

namespace Frame

abbrev Made := { frame : Frame // frame.Reachable }

inductive Operation where
  | setPc (pc : Int)
  | setAdoptsStack (adoptsStack : Bool)
  | push (item : Option VerificationType)
  | pop
  | put (slot : Nat) (type : VerificationType)
  | loadElement
  | markInitialized (uninitialized : VerificationType) (name : BinaryName)
  | duplicate (supply : MarkerSupply)
  | merge (superTypes : SuperTypes) (other : Made)
  | askCount
  | askChange (previous : Option Made)
  | askCompressed (previous : Made)
  | precede (frame : Made)
  | forgetChange

inductive OperationFault where
  | frame (fault : FrameFault)
  | order (fault : OrderFault)

def settle {ε α : Type} (frame : Frame) (fault : ε → OperationFault) (action : FrameM ε α) :
    Option OperationFault × Frame :=
  match action.run.run frame with
  | (.ok _, left) => (none, left)
  | (.error cause, left) => (some (fault cause), left)

def perform (frame : Frame) : Operation → Option OperationFault × Frame
  | .setPc pc => (none, { frame with pc })
  | .setAdoptsStack adoptsStack => (none, { frame with adoptsStack })
  | .push item => frame.settle .frame (FrameM.push item)
  | .pop => frame.settle .frame FrameM.pop
  | .put slot type => (none, frame.put slot type)
  | .loadElement => frame.settle .frame FrameM.loadElement
  | .markInitialized source name => (none, frame.markInitialized source name)
  | .duplicate supply => (none, (frame.duplicate.run supply).1)
  | .merge superTypes other => frame.settle .frame (FrameM.merge superTypes other)
  | .askCount => (none, frame.rememberCount)
  | .askChange previous => (none, frame.rememberChange (previous.map Subtype.val))
  | .askCompressed previous => frame.settle .order (FrameM.compress previous)
  | .precede following => (none, frame.rememberAsPrevious following)
  | .forgetChange => (none, frame.forgetChange)

def performAll (frame : Frame) (operations : List Operation) : Frame :=
  operations.foldl (fun frame operation => (frame.perform operation).2) frame

theorem atomic_push (item : Option VerificationType) : Atomic (FrameM.push item) := by
  intro frame fault failed
  cases item with
  | none => rfl
  | some type =>
      cases type with
      | top => rfl
      | _ => contradiction

theorem atomic_pop : Atomic FrameM.pop := by
  refine atomic_get_bind fun frame => ?_
  cases frame.stack.getLast? with
  | none => exact .inl ⟨_, rfl⟩
  | some type => exact .inr ⟨_, rfl⟩

theorem atomic_loadElement : Atomic FrameM.loadElement := by
  refine atomic_get_bind fun frame => ?_
  cases frame.stack.getLast? with
  | none => exact .inl ⟨_, rfl⟩
  | some type =>
      dsimp only
      cases type.element? with
      | none => exact .inl ⟨_, rfl⟩
      | some element => exact .inr ⟨_, rfl⟩

theorem atomic_merge (superTypes : SuperTypes) (other : Frame) :
    Atomic (FrameM.merge superTypes other) := by
  refine atomic_get_bind fun frame => ?_
  cases frame.merge superTypes other with
  | error fault => exact .inl ⟨_, rfl⟩
  | ok merged => exact .inr ⟨_, rfl⟩

theorem atomic_compress (previous : Frame) : Atomic (FrameM.compress previous) := by
  refine atomic_get_bind fun frame => ?_
  cases frame.wordDelta previous with
  | error fault => exact .inl ⟨_, rfl⟩
  | ok delta => exact .inr ⟨_, rfl⟩

theorem run_merge (frame other : Frame) (superTypes : SuperTypes) :
    (FrameM.merge superTypes other).run.run frame =
      match frame.merge superTypes other with
      | .error fault => (.error fault, frame)
      | .ok merged => (.ok (), merged) := by
  rw [FrameM.merge, run_get_bind]
  cases frame.merge superTypes other <;> rfl

section Settle

variable {ε α : Type} {frame : Frame} {fault : ε → OperationFault} {action : FrameM ε α}

theorem settle_of_fault (atomic : Atomic action) {cause : OperationFault}
    (failed : (frame.settle fault action).1 = some cause) :
    (frame.settle fault action).2 = frame := by
  have kept := atomic frame
  unfold settle at failed ⊢
  rcases outcome : action.run.run frame with ⟨_ | _, left⟩
  · rw [outcome] at kept
    exact kept _ rfl
  · rw [outcome] at failed
    contradiction

theorem reachable_settle (reachable : frame.Reachable) (atomic : Atomic action)
    (made : ∀ value next, action.run.run frame = (.ok value, next) → next.Reachable) :
    (frame.settle fault action).2.Reachable := by
  have kept := atomic frame
  unfold settle
  rcases outcome : action.run.run frame with ⟨_ | value, left⟩
  · rw [outcome] at kept
    obtain rfl : left = frame := kept _ rfl
    exact reachable
  · exact made value left outcome

end Settle

theorem Reachable.perform {frame : Frame} (reachable : frame.Reachable) (operation : Operation) :
    (frame.perform operation).2.Reachable := by
  cases operation with
  | setPc pc => exact .setPc pc reachable
  | setAdoptsStack adoptsStack => exact .setAdoptsStack adoptsStack reachable
  | push item =>
      exact reachable_settle reachable (atomic_push item) fun _ _ pushed =>
        .push reachable (map_snd_resultOf_eq_ok_iff.mpr pushed)
  | pop =>
      exact reachable_settle reachable atomic_pop fun _ _ popped =>
        .pop reachable (resultOf_eq_ok_iff.mpr popped)
  | put slot type => exact .put slot type reachable
  | loadElement =>
      exact reachable_settle reachable atomic_loadElement fun _ _ loaded =>
        .loadElement reachable (map_snd_resultOf_eq_ok_iff.mpr loaded)
  | markInitialized source name => exact .markInitialized source name reachable
  | duplicate supply => exact .duplicate supply reachable
  | merge superTypes other =>
      refine reachable_settle reachable (atomic_merge superTypes other) fun _ next merged => ?_
      rw [run_merge] at merged
      split at merged
      · exact absurd (congrArg Prod.fst merged) nofun
      · rename_i success
        obtain rfl := congrArg Prod.snd merged
        exact .merge superTypes reachable other.property success
  | askCount => exact .rememberCount reachable
  | askChange previous =>
      cases previous with
      | none => exact .rememberNoChange reachable
      | some previous => exact .rememberChange reachable previous.property
  | askCompressed previous =>
      refine reachable_settle reachable (atomic_compress previous) fun _ next compressed => ?_
      rw [run_compress] at compressed
      split at compressed
      · exact absurd (congrArg Prod.fst compressed) nofun
      · obtain rfl := congrArg Prod.snd compressed
        exact .rememberChange reachable previous.property
  | precede following =>
      simp only [Frame.perform]
      rcases frame.rememberAsPrevious_cases following with same | same <;> rw [same]
      · exact reachable
      · exact .rememberCount reachable
  | forgetChange => exact .forgetChange reachable

theorem Reachable.performAll {frame : Frame} (reachable : frame.Reachable)
    (operations : List Operation) : (frame.performAll operations).Reachable := by
  induction operations generalizing frame with
  | nil => exact reachable
  | cons operation rest ih => exact ih (reachable.perform operation)

theorem perform_of_fault {frame : Frame} {operation : Operation} {fault : OperationFault}
    (failed : (frame.perform operation).1 = some fault) : (frame.perform operation).2 = frame := by
  cases operation with
  | push item => exact settle_of_fault (atomic_push item) failed
  | pop => exact settle_of_fault atomic_pop failed
  | loadElement => exact settle_of_fault atomic_loadElement failed
  | merge superTypes other => exact settle_of_fault (atomic_merge superTypes other) failed
  | askCompressed previous => exact settle_of_fault (atomic_compress previous) failed
  | _ => contradiction

/-- Every run of operations, of which any may fail, leaves a frame sound: its wide locals have their
holes, nothing unusable is on its stack, and what it remembers is so. An operation that fails leaves
it as it was. -/
theorem sound_performAll {frame : Frame} (reachable : frame.Reachable)
    (operations : List Operation) :
    (frame.performAll operations).Sound ∧
      ∀ operation fault, ((frame.performAll operations).perform operation).1 = some fault →
        ((frame.performAll operations).perform operation).2 = frame.performAll operations :=
  ⟨(reachable.performAll operations).sound, fun _ _ failed => perform_of_fault failed⟩

/-- A store over the hole of a wide local, between operations that fail. -/
theorem sound_performAll_overlap :
    let operations : List Operation :=
      [.put 0 .long, .push (some .top), .put 1 .integer, .loadElement,
        .askChange (some ⟨placeholder, .new placeholderPc⟩)]
    let frame := performAll { pc := 0 } operations
    Reachable { pc := 0 } ∧ frame.locals = [some .top, some .integer] ∧
      frame.knownCount = some 2 ∧ frame.knownChange = some (.atEnd 2) ∧ frame.Sound ∧
      (frame.perform .pop).1 = some (.frame .emptyStack) ∧ (frame.perform .pop).2 = frame := by
  intro operations frame
  obtain ⟨sound, kept⟩ := sound_performAll (.new 0) operations
  exact ⟨.new 0, rfl, rfl, rfl, sound, rfl, kept .pop (.frame .emptyStack) rfl⟩

end Frame

end JvmFrames
