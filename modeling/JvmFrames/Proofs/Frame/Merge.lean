import JvmFrames.Proofs.Frame.Reachable
import Mathlib.Data.List.Forall2

/-!
What merging two frames means, whatever is known about the classes above others. Stacks of one depth
merge pair by pair, up to the lowest pair that has nothing in common.
-/

namespace JvmFrames

namespace VerificationType

def IsFinished : VerificationType → Prop
  | .null | .object _ => True
  | _ => False

def Mergeable (left right : VerificationType) : Prop :=
  left.same right = true ∨ left.IsFinished ∧ right.IsFinished

/-- What two types become. The left one stays if they are the same, and with it its own copy of a
marker; null gives way to an object; two objects become one of a class that is above both, which is
the root if no other is known. -/
inductive Becomes (superTypes : SuperTypes) :
    VerificationType → VerificationType → VerificationType → Prop
  | same {left right} : left.same right = true → Becomes superTypes left right left
  | objectNull (name) : Becomes superTypes (.object name) .null (.object name)
  | nullObject (name) : Becomes superTypes .null (.object name) (.object name)
  | above {left right name} : left ≠ right → superTypes left right = some name →
      Becomes superTypes (.object left) (.object right) (.object name)
  | unknown {left right} : left ≠ right → superTypes left right = none →
      Becomes superTypes (.object left) (.object right) (.object .object)

variable (superTypes : SuperTypes) {left right : VerificationType}

theorem becomes_objects {left right : BinaryName} (different : left ≠ right) :
    Becomes superTypes (.object left) (.object right)
      (.object ((superTypes left right).getD .object)) := by
  cases known : superTypes left right with
  | none => exact .unknown different known
  | some name => exact .above different known

theorem merge_of_mergeable (mergeable : Mergeable left right) :
    ∃ item, merge superTypes left right = .ok item ∧ Becomes superTypes left right item := by
  by_cases agree : left.same right = true
  · exact ⟨left, merge_of_same superTypes agree, .same agree⟩
  · obtain ⟨finished, otherFinished⟩ := mergeable.resolve_left agree
    unfold merge
    rw [if_neg agree]
    cases left with
    | null =>
        cases right with
        | null => exact absurd (same_refl .null) agree
        | object name => exact ⟨_, rfl, .nullObject name⟩
        | _ => contradiction
    | object name =>
        cases right with
        | null => exact ⟨_, rfl, .objectNull name⟩
        | object other =>
            have different : name ≠ other := by
              rintro rfl
              exact agree (same_refl _)
            exact ⟨_, rfl, becomes_objects superTypes different⟩
        | _ => contradiction
    | _ => contradiction

theorem merge_of_not_mergeable (apart : ¬ Mergeable left right) :
    merge superTypes left right = .error (.incompatible left right) := by
  rw [Mergeable, not_or] at apart
  unfold merge
  rw [if_neg apart.1]
  split
  · exact absurd ⟨trivial, trivial⟩ apart.2
  · exact absurd ⟨trivial, trivial⟩ apart.2
  · exact absurd ⟨trivial, trivial⟩ apart.2
  · rfl

theorem mergeAll_of_mergeable {lefts rights : List VerificationType}
    (mergeable : List.Forall₂ Mergeable lefts rights) :
    ∃ merged, mergeAll superTypes lefts rights = .ok merged ∧
      List.Forall₂ (fun pair item => Becomes superTypes pair.1 pair.2 item)
        (lefts.zip rights) merged := by
  induction mergeable with
  | nil => exact ⟨[], rfl, .nil⟩
  | cons first _ ih =>
      obtain ⟨item, here, becomes⟩ := merge_of_mergeable superTypes first
      obtain ⟨items, following, others⟩ := ih
      refine ⟨item :: items, ?_, .cons becomes others⟩
      rw [mergeAll, here, following]
      rfl

theorem mergeAll_of_clash {below otherBelow : List VerificationType}
    (mergeable : List.Forall₂ Mergeable below otherBelow) (apart : ¬ Mergeable left right)
    (rest otherRest : List VerificationType) :
    mergeAll superTypes (below ++ left :: rest) (otherBelow ++ right :: otherRest) =
      .error (.incompatible left right) := by
  induction mergeable with
  | nil =>
      rw [List.nil_append, List.nil_append, mergeAll, merge_of_not_mergeable superTypes apart]
      rfl
  | cons first _ ih =>
      obtain ⟨item, here, _⟩ := merge_of_mergeable superTypes first
      rw [List.cons_append, List.cons_append, mergeAll, here, ih]
      rfl

def Clash (lefts rights : List VerificationType) (left right : VerificationType) : Prop :=
  ∃ below otherBelow rest otherRest, List.Forall₂ Mergeable below otherBelow ∧
    ¬ Mergeable left right ∧ lefts = below ++ left :: rest ∧
      rights = otherBelow ++ right :: otherRest

theorem exists_clash {lefts rights : List VerificationType}
    (sameDepth : lefts.length = rights.length) (apart : ¬ List.Forall₂ Mergeable lefts rights) :
    ∃ left right, Clash lefts rights left right := by
  induction lefts generalizing rights with
  | nil =>
      cases rights with
      | nil => exact absurd .nil apart
      | cons right rights => contradiction
  | cons left lefts ih =>
      cases rights with
      | nil => contradiction
      | cons right rights =>
          by_cases first : Mergeable left right
          · have others : ¬ List.Forall₂ Mergeable lefts rights :=
              fun all => apart (.cons first all)
            obtain ⟨left, right, below, otherBelow, rest, otherRest, mergeable, clash, rfl, rfl⟩ :=
              ih (Nat.succ.inj sameDepth) others
            exact ⟨left, right, _ :: below, _ :: otherBelow, rest, otherRest, .cons first mergeable,
              clash, rfl, rfl⟩
          · exact ⟨left, right, [], [], lefts, rights, .nil, first, rfl, rfl⟩

end VerificationType

namespace Frame

open VerificationType

section Real

variable (superTypes : SuperTypes) {frame other : Frame}

theorem merge_of_mismatch (real : frame.isPlaceholder = false)
    (otherReal : other.isPlaceholder = false)
    (mismatch : frame.stack.length ≠ other.stack.length) :
    frame.merge superTypes other =
      .error (.depthMismatch frame.stack.length other.stack.length) := by
  rw [merge, if_neg (Bool.eq_false_iff.mp otherReal), if_neg (Bool.eq_false_iff.mp real),
    if_pos mismatch]

theorem merge_of_sameDepth (real : frame.isPlaceholder = false)
    (otherReal : other.isPlaceholder = false)
    (sameDepth : frame.stack.length = other.stack.length) :
    frame.merge superTypes other =
      (mergeAll superTypes frame.stack other.stack).map fun stack => { frame with stack } := by
  rw [merge, if_neg (Bool.eq_false_iff.mp otherReal), if_neg (Bool.eq_false_iff.mp real),
    if_neg (not_not.mpr sameDepth)]

theorem merge_of_mergeable (real : frame.isPlaceholder = false)
    (otherReal : other.isPlaceholder = false)
    (mergeable : List.Forall₂ Mergeable frame.stack other.stack) :
    ∃ stack, frame.merge superTypes other = .ok { frame with stack } ∧
      List.Forall₂ (fun pair item => Becomes superTypes pair.1 pair.2 item)
        (frame.stack.zip other.stack) stack := by
  obtain ⟨stack, merged, becomes⟩ := mergeAll_of_mergeable superTypes mergeable
  rw [merge_of_sameDepth superTypes real otherReal mergeable.length_eq, merged]
  exact ⟨stack, rfl, becomes⟩

theorem merge_of_clash (real : frame.isPlaceholder = false)
    (otherReal : other.isPlaceholder = false)
    (sameDepth : frame.stack.length = other.stack.length) {left right : VerificationType}
    (clash : Clash frame.stack other.stack left right) :
    frame.merge superTypes other = .error (.incompatible left right) := by
  obtain ⟨below, otherBelow, rest, otherRest, mergeable, apart, stack, otherStack⟩ := clash
  rw [merge_of_sameDepth superTypes real otherReal sameDepth, stack, otherStack,
    mergeAll_of_clash superTypes mergeable apart]
  rfl

theorem merge_three_ways (real : frame.isPlaceholder = false)
    (otherReal : other.isPlaceholder = false) :
    frame.stack.length ≠ other.stack.length ∧ frame.merge superTypes other =
        .error (.depthMismatch frame.stack.length other.stack.length) ∨
      (frame.stack.length = other.stack.length ∧ ∃ left right,
        Clash frame.stack other.stack left right ∧
          frame.merge superTypes other = .error (.incompatible left right)) ∨
      List.Forall₂ Mergeable frame.stack other.stack ∧ ∃ stack,
        frame.merge superTypes other = .ok { frame with stack } ∧
          List.Forall₂ (fun pair item => Becomes superTypes pair.1 pair.2 item)
            (frame.stack.zip other.stack) stack := by
  by_cases sameDepth : frame.stack.length = other.stack.length
  · by_cases mergeable : List.Forall₂ Mergeable frame.stack other.stack
    · exact .inr (.inr ⟨mergeable, merge_of_mergeable superTypes real otherReal mergeable⟩)
    · obtain ⟨left, right, clash⟩ := exists_clash sameDepth mergeable
      exact .inr (.inl ⟨sameDepth, left, right, clash,
        merge_of_clash superTypes real otherReal sameDepth clash⟩)
  · exact .inl ⟨sameDepth, merge_of_mismatch superTypes real otherReal sameDepth⟩

/-- Frames merge exactly if their stacks have one depth and merge pair by pair. Otherwise the fault
is the difference of the depths, or the lowest pair that does not merge. The merged frame differs
from the first one in its stack only. -/
theorem merge_outcome (real : frame.isPlaceholder = false)
    (otherReal : other.isPlaceholder = false) :
    ((∃ merged, frame.merge superTypes other = .ok merged) ↔
        List.Forall₂ Mergeable frame.stack other.stack) ∧
      (∀ fault, frame.merge superTypes other = .error fault →
        frame.stack.length ≠ other.stack.length ∧
            fault = .depthMismatch frame.stack.length other.stack.length ∨
          frame.stack.length = other.stack.length ∧ ∃ left right,
            Clash frame.stack other.stack left right ∧ fault = .incompatible left right) ∧
      ∀ merged, frame.merge superTypes other = .ok merged →
        merged = { frame with stack := merged.stack } ∧
          List.Forall₂ (fun pair item => Becomes superTypes pair.1 pair.2 item)
            (frame.stack.zip other.stack) merged.stack := by
  refine ⟨⟨?_, ?_⟩, ?_, ?_⟩
  · rintro ⟨merged, success⟩
    rcases merge_three_ways superTypes real otherReal with
      ⟨_, failure⟩ | ⟨_, _, _, _, failure⟩ | ⟨mergeable, _⟩
    · rw [failure] at success
      contradiction
    · rw [failure] at success
      contradiction
    · exact mergeable
  · intro mergeable
    obtain ⟨stack, success, _⟩ := merge_of_mergeable superTypes real otherReal mergeable
    exact ⟨_, success⟩
  · intro fault failure
    rcases merge_three_ways superTypes real otherReal with
      ⟨mismatch, outcome⟩ | ⟨sameDepth, left, right, clash, outcome⟩ | ⟨_, _, success, _⟩
    · exact .inl ⟨mismatch, Except.error.inj (failure.symm.trans outcome)⟩
    · exact .inr ⟨sameDepth, left, right, clash, Except.error.inj (failure.symm.trans outcome)⟩
    · rw [success] at failure
      contradiction
  · intro merged success
    rcases merge_three_ways superTypes real otherReal with
      ⟨_, failure⟩ | ⟨_, _, _, _, failure⟩ | ⟨_, stack, outcome, becomes⟩
    · rw [failure] at success
      contradiction
    · rw [failure] at success
      contradiction
    · obtain rfl := Except.ok.inj (outcome.symm.trans success)
      exact ⟨rfl, becomes⟩

end Real

/-- The first frame keeps its own copy of the marker, and the second one has the object where the
first has null. -/
theorem merge_outcome_references :
    let superTypes : SuperTypes := fun left right =>
      if left.text = "p/Left" ∧ right.text = "p/Right" then some ⟨"p/Base"⟩ else none
    let frame : Frame :=
      { pc := 8, stack := [.object ⟨"p/Left"⟩, .null, .uninitialized 2 ⟨0, 0⟩, .object ⟨"[I"⟩] }
    let other : Frame :=
      { pc := 8
        stack := [.object ⟨"p/Right"⟩, .object ⟨"p/A"⟩, .uninitialized 2 ⟨0, 1⟩, .object ⟨"p/A"⟩] }
    let merged : Frame :=
      { pc := 8
        stack := [.object ⟨"p/Base"⟩, .object ⟨"p/A"⟩, .uninitialized 2 ⟨0, 0⟩, .object .object] }
    frame.isPlaceholder = false ∧ other.isPlaceholder = false ∧
      frame.merge superTypes other = .ok merged ∧
      List.Forall₂ Mergeable frame.stack other.stack ∧
      List.Forall₂ (fun pair item => Becomes superTypes pair.1 pair.2 item)
        (frame.stack.zip other.stack) merged.stack := by
  intro superTypes frame other merged
  have success : frame.merge superTypes other = .ok merged := by decide
  obtain ⟨mergesIff, _, kept⟩ := @merge_outcome superTypes frame other rfl rfl
  exact ⟨rfl, rfl, success, mergesIff.mp ⟨merged, success⟩, (kept merged success).2⟩

end Frame

end JvmFrames
