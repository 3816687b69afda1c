import JvmFrames.FrameForm

/-!
What the choice of a form says about the change of the locals, the depth of the stack and the
offset delta.
-/

namespace JvmFrames.FrameForm

inductive Expresses : FrameForm → LocalsChange → Nat → Prop
  | same : Expresses .same (.atEnd 0) 0
  | sameExtended : Expresses .sameExtended (.atEnd 0) 0
  | oneStackItem : Expresses .oneStackItem (.atEnd 0) 1
  | oneStackItemExtended : Expresses .oneStackItemExtended (.atEnd 0) 1
  | chop (count : Nat) : 1 ≤ count → count ≤ 3 →
      Expresses (.chop (UInt8.ofNat count)) (.atEnd (-count)) 0
  | append (count : Nat) : 1 ≤ count → count ≤ 3 →
      Expresses (.append (UInt8.ofNat count)) (.atEnd count) 0
  | full {change : LocalsChange} {depth : Nat} : Expresses .full change depth

theorem expresses_select (change : LocalsChange) (depth : Nat) (delta : Int) :
    Expresses (select change depth delta) change depth := by
  unfold select maxDifference
  split
  · rename_i difference
    split
    · rename_i unchanged
      subst unchanged
      split
      · exact .same
      · exact .sameExtended
    · split
      · rename_i appended
        obtain ⟨count, rfl⟩ := Int.eq_ofNat_of_zero_le (by omega : 0 ≤ difference)
        exact .append count (by omega) (by omega)
      · split
        · rename_i chopped
          obtain ⟨count, negated⟩ := Int.eq_ofNat_of_zero_le (by omega : 0 ≤ -difference)
          obtain rfl : difference = -count := by omega
          rw [negated]
          exact .chop count (by omega) (by omega)
        · exact .full
  · rename_i difference
    split
    · rename_i unchanged
      subst unchanged
      split
      · exact .oneStackItem
      · exact .oneStackItemExtended
    · exact .full
  · exact .full

theorem toNat_ofNat_of_small {count : Nat} (small : count ≤ 3) :
    (UInt8.ofNat count).toNat = count := by
  rw [UInt8.toNat_ofNat']
  omega

theorem select_appended {count : Nat} {delta : Int} (positive : 1 ≤ count) (small : count ≤ 3) :
    select (.atEnd count) 0 delta = .append (UInt8.ofNat count) := by
  unfold select maxDifference
  simp only
  rw [if_neg (by omega), if_pos (by omega), Int.toNat_natCast]

theorem select_chopped {count : Nat} {delta : Int} (positive : 1 ≤ count) (small : count ≤ 3) :
    select (.atEnd (-count)) 0 delta = .chop (UInt8.ofNat count) := by
  unfold select maxDifference
  simp only
  rw [if_neg (by omega), if_neg (by omega), if_pos (by omega), Int.neg_neg, Int.toNat_natCast]

def Fits (delta : Int) : FrameForm → Prop
  | .same | .oneStackItem => delta ≤ maxShortDelta
  | .sameExtended | .oneStackItemExtended => maxShortDelta < delta
  | .chop _ | .append _ | .full => True

theorem fits_select (change : LocalsChange) (depth : Nat) (delta : Int) :
    (select change depth delta).Fits delta := by
  unfold select
  split
  · split
    · split
      · rename_i short
        exact short
      · rename_i long
        exact Int.not_le.mp long
    · split
      · trivial
      · split <;> trivial
  · split
    · split
      · rename_i short
        exact short
      · rename_i long
        exact Int.not_le.mp long
    · trivial
  · trivial

end JvmFrames.FrameForm
