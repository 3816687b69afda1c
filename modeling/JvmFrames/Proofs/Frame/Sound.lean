import JvmFrames.Frame.Compression
import JvmFrames.Proofs.Frame.Duplicate
import JvmFrames.Proofs.Frame.Reachable
import JvmFrames.Proofs.Locals.Storing

/-!
What is true of every frame that can be made, through whatever operations it went, and whichever of
them failed.
-/

namespace JvmFrames

open VerificationType

namespace VerificationType

theorem ofField_ne_top (field : FieldType) : ofField field ≠ .top := by
  rcases field with base | name
  · cases base <;> simp [ofField]
  · simp [ofField]

theorem element?_ne_top {type element : VerificationType} (found : type.element? = some element) :
    element ≠ .top := by
  unfold element? at found
  split at found
  · rw [← Option.some.inj found]
    simp
  · obtain ⟨field, _, rfl⟩ := Option.map_eq_some_iff.mp found
    exact ofField_ne_top field
  · contradiction

theorem merge_ne_top {superTypes : SuperTypes} {left right merged : VerificationType}
    (leftUsable : left ≠ .top) (rightUsable : right ≠ .top)
    (success : merge superTypes left right = .ok merged) : merged ≠ .top := by
  unfold merge at success
  split at success
  · rwa [← Except.ok.inj success]
  · split at success
    · rwa [← Except.ok.inj success]
    · rwa [← Except.ok.inj success]
    · rw [← Except.ok.inj success]
      simp
    · contradiction

theorem top_notMem_mergeAll {superTypes : SuperTypes} {lefts rights merged : List VerificationType}
    (leftsUsable : .top ∉ lefts) (rightsUsable : .top ∉ rights)
    (success : mergeAll superTypes lefts rights = .ok merged) : .top ∉ merged := by
  induction lefts generalizing rights merged with
  | nil =>
      rw [← Except.ok.inj success]
      exact leftsUsable
  | cons left lefts ih =>
      cases rights with
      | nil =>
          rw [← Except.ok.inj success]
          exact leftsUsable
      | cons right rights =>
          rw [List.mem_cons, not_or] at leftsUsable rightsUsable
          rw [mergeAll] at success
          cases first : merge superTypes left right with
          | error fault => rw [first] at success; contradiction
          | ok item =>
              cases following : mergeAll superTypes lefts rights with
              | error fault => rw [first, following] at success; contradiction
              | ok items =>
                  rw [first, following] at success
                  rw [← Except.ok.inj success, List.mem_cons, not_or]
                  exact ⟨(merge_ne_top (Ne.symm leftsUsable.1) (Ne.symm rightsUsable.1) first).symm,
                    ih leftsUsable.2 rightsUsable.2 following⟩

end VerificationType

namespace Frame

/-- The change that the frame remembers, if any, is none at all, or what comparing the frame with
one that can be made finds out when neither remembers anything. -/
def ChangeFounded (frame : Frame) : Prop :=
  ∀ change, frame.knownChange = some change →
    change = .atEnd 0 ∨
      ∃ previous : Frame, previous.Reachable ∧ change = frame.forget.change (some previous.forget)

structure Sound (frame : Frame) : Prop extends frame.WellFormed where
  usable : .top ∉ frame.stack
  founded : frame.ChangeFounded

theorem changeFounded_of_forgotten {frame : Frame} (forgotten : frame.knownChange = none) :
    frame.ChangeFounded := by
  intro change known
  rw [forgotten] at known
  contradiction

theorem change_forget (frame previous : Frame) :
    frame.forget.change (some previous.forget) = Locals.change previous.locals frame.locals := rfl

theorem Sound.forgotten {frame : Frame} (holes : frame.locals.WellFormed)
    (usable : .top ∉ frame.stack) (noCount : frame.knownCount = none)
    (noChange : frame.knownChange = none) : frame.Sound where
  holes
  counted := countTrue_of_forgotten noCount
  usable
  founded := changeFounded_of_forgotten noChange

/-- What a frame remembers is about its locals, so nothing else that changes makes it wrong. -/
theorem Sound.congr {frame other : Frame} (sound : frame.Sound)
    (sameLocals : other.locals = frame.locals) (usable : .top ∉ other.stack)
    (counted : other.CountTrue) (sameChange : other.knownChange = frame.knownChange) :
    other.Sound where
  holes := sameLocals ▸ sound.holes
  counted
  usable
  founded change known := by
    rcases sound.founded change (sameChange ▸ known) with same | ⟨previous, reachable, rfl⟩
    · exact .inl same
    · refine .inr ⟨previous, reachable, ?_⟩
      rw [change_forget, change_forget, sameLocals]

theorem Sound.withStack {frame : Frame} (sound : frame.Sound) {stack : List VerificationType}
    (usable : .top ∉ stack) : Sound { frame with stack } :=
  sound.congr rfl usable (countTrue_congr sound.counted rfl rfl) rfl

theorem Sound.push {frame pushed : Frame} {item : Option VerificationType} (sound : frame.Sound)
    (success : frame.push item = .ok pushed) : pushed.Sound := by
  obtain ⟨type, usable, rfl⟩ := push_eq_ok success
  refine sound.withStack ?_
  rw [List.mem_append, List.mem_singleton, not_or]
  exact ⟨sound.usable, usable.symm⟩

theorem Sound.pushAll {frame pushed : Frame} {types : List VerificationType} (sound : frame.Sound)
    (success : frame.pushAll types = .ok pushed) : pushed.Sound := by
  induction types generalizing frame with
  | nil => exact Except.ok.inj success ▸ sound
  | cons type rest ih =>
      rw [Frame.pushAll] at success
      split at success
      · contradiction
      · rename_i first firstPushed
        exact ih (sound.push firstPushed) success

theorem sound_ofSnapshot {pc : Int} {locals : Locals} {stack : List VerificationType}
    {frame : Frame} (success : ofSnapshot pc locals stack = .ok frame) : frame.Sound := by
  unfold ofSnapshot at success
  split at success
  · contradiction
  · rename_i holes
    have empty : Sound { pc, locals } :=
      .forgotten (Locals.missingHole?_eq_none_iff.mp holes) List.not_mem_nil rfl rfl
    exact empty.pushAll success

theorem sound_methodEntry (owner : BinaryName) (method : MethodDescriptor)
    (isStatic isConstructor : Bool) (supply : MarkerSupply) :
    ((Frame.methodEntry owner method isStatic isConstructor).run supply).1.Sound :=
  .forgotten (Locals.wellFormed_putAll Locals.wellFormed_nil 0 _) List.not_mem_nil rfl rfl

theorem Sound.put {frame : Frame} (sound : frame.Sound) (slot : Nat) (type : VerificationType) :
    (frame.put slot type).Sound :=
  .forgotten (Locals.wellFormed_put sound.holes slot type) sound.usable rfl rfl

theorem Sound.pop {frame popped : Frame} {item : VerificationType} (sound : frame.Sound)
    (success : frame.pop = .ok (item, popped)) : popped.Sound := by
  obtain rfl := pop_eq_ok success
  exact sound.withStack fun member => sound.usable (List.dropLast_subset _ member)

theorem Sound.loadElement {frame loaded : Frame} (sound : frame.Sound)
    (success : frame.loadElement = .ok loaded) : loaded.Sound := by
  obtain ⟨type, element, found, rfl⟩ := loadElement_eq_ok success
  refine sound.withStack ?_
  rw [List.mem_append, List.mem_singleton, not_or]
  exact ⟨fun member => sound.usable (List.dropLast_subset _ member), (element?_ne_top found).symm⟩

theorem Sound.markInitialized {frame : Frame} (sound : frame.Sound)
    (uninitialized : VerificationType) (name : BinaryName) :
    (frame.markInitialized uninitialized name).Sound := by
  refine .forgotten (Locals.wellFormed_map ?_ sound.holes) ?_ rfl rfl
  · intro type wide
    split at wide
    · contradiction
    · exact wide
  · intro member
    obtain ⟨type, onStack, changed⟩ := List.mem_map.mp member
    split at changed
    · contradiction
    · exact sound.usable (changed ▸ onStack)

theorem Sound.duplicate {frame : Frame} (sound : frame.Sound) (supply : MarkerSupply) :
    (frame.duplicate.run supply).1.Sound := by
  obtain ⟨change, copied, _⟩ := frame.duplicate_eq supply
  rw [copied]
  refine .forgotten (Locals.wellFormed_map ?_ sound.holes) ?_ rfl rfl
  · intro type wide
    rwa [isWide_rename] at wide
  · intro member
    obtain ⟨type, onStack, changed⟩ := List.mem_map.mp member
    obtain rfl := rename_eq_top_iff.mp changed
    refine sound.usable ?_
    unfold carried at onStack
    split at onStack
    · exact onStack
    · contradiction

theorem Sound.merge {superTypes : SuperTypes} {frame other merged : Frame} (sound : frame.Sound)
    (otherSound : other.Sound) (success : frame.merge superTypes other = .ok merged) :
    merged.Sound := by
  rcases merge_eq_ok success with ⟨_, rfl⟩ | ⟨_, rfl⟩ | ⟨stack, found, rfl⟩
  · exact sound
  · exact otherSound
  · exact sound.withStack (top_notMem_mergeAll sound.usable otherSound.usable found)

theorem Sound.rememberCount {frame : Frame} (sound : frame.Sound) : frame.rememberCount.Sound :=
  sound.congr rfl sound.usable (countTrue_rememberCount sound.counted) rfl

theorem Sound.rememberChange {frame : Frame} {previous : Option Frame} (sound : frame.Sound)
    (reachable : ∀ before ∈ previous, before.Reachable) :
    (frame.rememberChange previous).Sound := by
  unfold Frame.rememberChange
  split
  · exact sound
  · refine ⟨⟨sound.holes, sound.counted⟩, sound.usable, ?_⟩
    intro change known
    exact .inl (Option.some.inj known).symm
  · rename_i previous _
    have made := reachable previous rfl
    have counted := sound.rememberCount
    refine ⟨⟨counted.holes, counted.counted⟩, counted.usable, ?_⟩
    intro change known
    refine .inr ⟨previous, made, ?_⟩
    rw [← Option.some.inj known, compareWith_eq made.countTrue sound.counted]
    rfl

theorem Sound.forgetChange {frame : Frame} (sound : frame.Sound) : frame.forgetChange.Sound where
  holes := sound.holes
  counted := countTrue_congr sound.counted rfl rfl
  usable := sound.usable
  founded _ known := by contradiction

theorem Reachable.sound {frame : Frame} (reachable : frame.Reachable) : frame.Sound := by
  induction reachable with
  | new pc => exact .forgotten Locals.wellFormed_nil List.not_mem_nil rfl rfl
  | ofSnapshot made => exact sound_ofSnapshot made
  | methodEntry owner method isStatic isConstructor supply =>
      exact sound_methodEntry owner method isStatic isConstructor supply
  | listed read member =>
      obtain ⟨_, _, _, made⟩ := Listing.read_ok read _ member
      exact sound_ofSnapshot made
  | setPc pc _ ih => exact ih.congr rfl ih.usable (countTrue_congr ih.counted rfl rfl) rfl
  | setAdoptsStack adoptsStack _ ih =>
      exact ih.congr rfl ih.usable (countTrue_congr ih.counted rfl rfl) rfl
  | push _ pushed ih => exact ih.push pushed
  | pop _ popped ih => exact ih.pop popped
  | put slot type _ ih => exact ih.put slot type
  | loadElement _ loaded ih => exact ih.loadElement loaded
  | markInitialized uninitialized name _ ih => exact ih.markInitialized uninitialized name
  | duplicate supply _ ih => exact ih.duplicate supply
  | merge superTypes _ _ merged ih ihOther => exact ih.merge ihOther merged
  | rememberCount _ ih => exact ih.rememberCount
  | rememberNoChange _ ih => exact ih.rememberChange (by simp)
  | rememberChange _ reachable ih _ =>
      refine ih.rememberChange ?_
      rintro before same
      exact Option.some.inj same ▸ reachable
  | forgetChange _ ih => exact ih.forgetChange

end Frame

end JvmFrames
