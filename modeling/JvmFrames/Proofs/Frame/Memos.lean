import JvmFrames.Frame.Compression

/-!
Compression without memory, and why remembering does not change it: as long as what frames remember
is true, compressing them gives what comparing their locals anew would give, and what they remember
afterwards is true again.
-/

namespace JvmFrames

namespace Frame

def CountTrue (frame : Frame) : Prop :=
  ∀ number, frame.knownCount = some number → number = frame.locals.count

theorem countTrue_iff {frame : Frame} :
    frame.CountTrue ↔ frame.knownCount = none ∨ frame.knownCount = some frame.locals.count := by
  unfold CountTrue
  cases frame.knownCount <;> simp

instance : DecidablePred CountTrue := fun _ => decidable_of_iff _ countTrue_iff.symm

structure WellFormed (frame : Frame) : Prop where
  holes : frame.locals.WellFormed
  counted : frame.CountTrue

instance : DecidablePred Locals.WellFormed := fun _ =>
  decidable_of_iff (Locals.missingHole? 0 _ = none) Locals.missingHole?_eq_none_iff

instance : DecidablePred WellFormed := fun frame =>
  decidable_of_iff (frame.locals.WellFormed ∧ frame.CountTrue)
    ⟨fun both => ⟨both.1, both.2⟩, fun wellFormed => ⟨wellFormed.holes, wellFormed.counted⟩⟩

def ChangeTrue (previous frame : Frame) : Prop :=
  ∀ change, frame.knownChange = some change → change = Locals.change previous.locals frame.locals

theorem changeTrue_of_forgotten {previous frame : Frame} (forgotten : frame.knownChange = none) :
    ChangeTrue previous frame := by
  intro change known
  rw [forgotten] at known
  contradiction

theorem localsCount_eq {frame : Frame} (counted : frame.CountTrue) :
    frame.localsCount = frame.locals.count := by
  unfold localsCount
  cases known : frame.knownCount with
  | none => rfl
  | some number => exact counted number known

theorem countTrue_rememberCount {frame : Frame} (counted : frame.CountTrue) :
    frame.rememberCount.CountTrue := by
  intro number known
  simp only [rememberCount, Option.some.injEq] at known
  rw [← known, localsCount_eq counted]
  rfl

theorem countTrue_rememberChange {frame : Frame} (previous : Option Frame)
    (counted : frame.CountTrue) : (frame.rememberChange previous).CountTrue := by
  unfold rememberChange
  split
  · exact counted
  · exact counted
  · exact countTrue_rememberCount counted

theorem rememberAsPrevious_cases (previous frame : Frame) :
    previous.rememberAsPrevious frame = previous ∨
      previous.rememberAsPrevious frame = previous.rememberCount := by
  unfold rememberAsPrevious
  split
  · exact .inl rfl
  · exact .inr rfl

theorem countTrue_rememberAsPrevious {previous : Frame} (frame : Frame)
    (counted : previous.CountTrue) : (previous.rememberAsPrevious frame).CountTrue := by
  rcases previous.rememberAsPrevious_cases frame with same | same <;> rw [same]
  · exact counted
  · exact countTrue_rememberCount counted

@[simp] theorem locals_rememberAsPrevious (previous frame : Frame) :
    (previous.rememberAsPrevious frame).locals = previous.locals := by
  rcases previous.rememberAsPrevious_cases frame with same | same
  · rw [same]
  · rw [same]
    rfl

theorem compareWith_eq {previous frame : Frame} (previousCounted : previous.CountTrue)
    (counted : frame.CountTrue) :
    frame.compareWith previous = Locals.change previous.locals frame.locals := by
  rw [compareWith, localsCount_eq previousCounted, localsCount_eq counted]
  rfl

theorem change_eq {previous frame : Frame} (previousCounted : previous.CountTrue)
    (counted : frame.CountTrue) (changed : ChangeTrue previous frame) :
    frame.change (some previous) = Locals.change previous.locals frame.locals := by
  unfold change
  cases known : frame.knownChange with
  | none => exact compareWith_eq previousCounted counted
  | some change => exact changed change known

@[simp] theorem pc_rememberChange (frame : Frame) (previous : Option Frame) :
    (frame.rememberChange previous).pc = frame.pc := by
  unfold rememberChange
  split <;> rfl

@[simp] theorem locals_rememberChange (frame : Frame) (previous : Option Frame) :
    (frame.rememberChange previous).locals = frame.locals := by
  unfold rememberChange
  split <;> rfl

@[simp] theorem forget_rememberChange (frame : Frame) (previous : Option Frame) :
    (frame.rememberChange previous).forget = frame.forget := by
  unfold rememberChange
  split <;> rfl

theorem changeTrue_rememberChange {previous frame : Frame} (previousCounted : previous.CountTrue)
    (counted : frame.CountTrue) (changed : ChangeTrue previous frame) :
    ChangeTrue previous (frame.rememberChange (some previous)) := by
  unfold rememberChange
  cases known : frame.knownChange with
  | some change => exact changed
  | none =>
      intro change remembered
      obtain rfl := Option.some.inj remembered
      exact compareWith_eq previousCounted counted

def formAfter (frame previous : Frame) : FrameForm :=
  FrameForm.select (Locals.change previous.locals frame.locals) frame.stack.length
    (frame.offsetDelta (some previous))

theorem form_eq_formAfter {previous frame : Frame} (previousCounted : previous.CountTrue)
    (counted : frame.CountTrue) (changed : ChangeTrue previous frame) :
    frame.form (some previous) = frame.formAfter previous := by
  rw [form, formAfter, change_eq previousCounted counted changed]

def compressAll (previous : Frame) : List Frame → Except OrderFault (List PlacedFrame)
  | [] => .ok []
  | frame :: rest =>
    if !previous.isPlaceholder ∧ frame.pc ≤ previous.pc then
      .error (.unordered frame.pc previous.pc)
    else
      match frame.wordDelta previous with
      | .error fault => .error fault
      | .ok delta =>
        (compressAll frame rest).map
          (⟨frame.pc, frame.compressAs delta (frame.formAfter previous)⟩ :: ·)

theorem compressAll_congr {first second : Frame} (samePc : first.pc = second.pc)
    (sameLocals : first.locals = second.locals) (frames : List Frame) :
    compressAll first frames = compressAll second frames := by
  cases frames with
  | nil => rfl
  | cons frame rest =>
      have placeholder : first.isPlaceholder = second.isPlaceholder := by
        rw [isPlaceholder, isPlaceholder, samePc]
      have delta : frame.offsetDelta (some first) = frame.offsetDelta (some second) := by
        simp only [offsetDelta, placeholder, samePc]
      have word : frame.wordDelta first = frame.wordDelta second := by
        rw [wordDelta, wordDelta, delta]
      have form : frame.formAfter first = frame.formAfter second := by
        rw [formAfter, formAfter, sameLocals, delta]
      simp only [compressAll, placeholder, samePc, word, form]

theorem compressAll_forget (previous : Frame) (frames : List Frame) :
    compressAll previous.forget (frames.map forget) = compressAll previous frames := by
  induction frames generalizing previous with
  | nil => rfl
  | cons frame rest ih =>
      rw [List.map_cons, compressAll, compressAll, ih frame]
      rfl

end Frame

namespace Encoding

open JvmFrames.Frame

def Truthful (previous : Frame) : List Frame → Prop
  | [] => previous.CountTrue
  | frame :: rest => previous.CountTrue ∧ ChangeTrue previous frame ∧ Truthful frame rest

theorem Truthful.previousCounted {previous : Frame} {frames : List Frame}
    (truthful : Truthful previous frames) : previous.CountTrue := by
  cases frames with
  | nil => exact truthful
  | cons frame rest => exact truthful.1

theorem truthful_of_forgotten {previous : Frame} {frames : List Frame}
    (previousCounted : previous.CountTrue) (counted : ∀ frame ∈ frames, frame.CountTrue)
    (forgotten : ∀ frame ∈ frames, frame.knownChange = none) : Truthful previous frames := by
  induction frames generalizing previous with
  | nil => exact previousCounted
  | cons frame rest ih =>
      exact ⟨previousCounted, changeTrue_of_forgotten (forgotten frame List.mem_cons_self),
        ih (counted frame List.mem_cons_self)
          (fun other member => counted other (List.mem_cons_of_mem _ member))
          (fun other member => forgotten other (List.mem_cons_of_mem _ member))⟩

theorem Truthful.congr {first second : Frame} {frames : List Frame}
    (truthful : Truthful first frames) (sameLocals : first.locals = second.locals)
    (counted : second.CountTrue) : Truthful second frames := by
  cases frames with
  | nil => exact counted
  | cons frame rest =>
      obtain ⟨_, changed, rest⟩ := truthful
      unfold ChangeTrue at changed
      rw [sameLocals] at changed
      exact ⟨counted, changed, rest⟩

theorem Truthful.rememberChange {frame : Frame} {rest : List Frame} (truthful : Truthful frame rest)
    (previous : Option Frame) : Truthful (frame.rememberChange previous) rest :=
  truthful.congr (locals_rememberChange frame previous).symm
    (countTrue_rememberChange previous truthful.previousCounted)

/-- Compressing truthful frames gives what compressing them without memory gives. -/
theorem outcome_ofFrames {previous : Frame} {frames : List Frame}
    (truthful : Truthful previous frames) :
    (ofFrames previous frames).outcome = compressAll previous frames := by
  induction frames generalizing previous with
  | nil => rfl
  | cons frame rest ih =>
      obtain ⟨previousCounted, changed, following⟩ := truthful
      rw [ofFrames, compressAll]
      by_cases unordered : (!previous.isPlaceholder) = true ∧ frame.pc ≤ previous.pc
      · rw [if_pos unordered, if_pos unordered]
        rfl
      · rw [if_neg unordered, if_neg unordered]
        cases frame.wordDelta previous with
        | error fault => rfl
        | ok delta =>
            simp only
            rw [ih (following.rememberChange (some previous)),
              form_eq_formAfter previousCounted following.previousCounted changed,
              compressAll_congr (pc_rememberChange frame _) (locals_rememberChange frame _)]

theorem previous_ofFrames (previous : Frame) (frames : List Frame) :
    (ofFrames previous frames).previous = previous ∨
      (ofFrames previous frames).previous = previous.rememberCount := by
  cases frames with
  | nil => exact .inl rfl
  | cons frame rest =>
      rw [ofFrames]
      split
      · exact .inl rfl
      · split
        · exact .inl rfl
        · exact previous.rememberAsPrevious_cases frame

theorem locals_previous_ofFrames (previous : Frame) (frames : List Frame) :
    (ofFrames previous frames).previous.locals = previous.locals := by
  rcases previous_ofFrames previous frames with same | same
  · rw [same]
  · rw [same]
    rfl

theorem knownChange_previous_ofFrames (previous : Frame) (frames : List Frame) :
    (ofFrames previous frames).previous.knownChange = previous.knownChange := by
  rcases previous_ofFrames previous frames with same | same
  · rw [same]
  · rw [same]
    rfl

theorem forget_previous_ofFrames (previous : Frame) (frames : List Frame) :
    (ofFrames previous frames).previous.forget = previous.forget := by
  rcases previous_ofFrames previous frames with same | same
  · rw [same]
  · rw [same]
    rfl

theorem forget_frames_ofFrames (previous : Frame) (frames : List Frame) :
    (ofFrames previous frames).frames.map forget = frames.map forget := by
  induction frames generalizing previous with
  | nil => rfl
  | cons frame rest ih =>
      rw [ofFrames]
      split
      · rfl
      · split
        · rfl
        · simp only [List.map_cons]
          rw [forget_previous_ofFrames, forget_rememberChange, ih]

/-- Compressing leaves truthful frames truthful, wherever it stops. -/
theorem truthful_ofFrames {previous : Frame} {frames : List Frame}
    (truthful : Truthful previous frames) :
    Truthful (ofFrames previous frames).previous (ofFrames previous frames).frames := by
  induction frames generalizing previous with
  | nil => exact truthful
  | cons frame rest ih =>
      have unchanged := truthful
      obtain ⟨previousCounted, changed, following⟩ := truthful
      rw [ofFrames]
      -- A fault leaves the frames from here on as they are.
      split
      · exact unchanged
      · split
        · exact unchanged
        · refine ⟨countTrue_rememberAsPrevious frame previousCounted, ?_,
            ih (following.rememberChange (some previous))⟩
          have remembered :=
            changeTrue_rememberChange previousCounted following.previousCounted changed
          unfold ChangeTrue at remembered ⊢
          rw [locals_rememberAsPrevious, locals_previous_ofFrames, knownChange_previous_ofFrames]
          exact remembered

end Encoding

end JvmFrames
