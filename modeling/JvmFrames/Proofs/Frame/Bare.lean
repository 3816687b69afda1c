import JvmFrames.Proofs.Frame.Memos
import JvmFrames.Proofs.Locals.Comparison

/-!
Frames without the copy numbers of their markers and without memory. Compression looks at neither:
bare frames compress to what the frames compress to, but for the copies in what is listed.
-/

namespace JvmFrames

open VerificationType

namespace Locals

def bareCell : Option VerificationType → Option VerificationType
  | none => none
  | some type => some type.forgetCopy

theorem map_forgetCopy : Option.map forgetCopy = bareCell := by
  funext cell
  cases cell <;> rfl

def bare (locals : Locals) : Locals :=
  locals.map bareCell

theorem same_forgetCopy (left right : VerificationType) :
    left.forgetCopy.same right.forgetCopy = left.same right := by
  simp [same]

theorem isWide_bareCell (cell : Option VerificationType) :
    isWide (bareCell cell) = isWide cell := by
  rcases cell with _ | type
  · rfl
  · cases type <;> rfl

theorem isSome_bareCell (cell : Option VerificationType) :
    (bareCell cell).isSome = cell.isSome := by
  cases cell <;> rfl

theorem cells_bare (locals : Locals) : locals.bare.cells = locals.cells.map bareCell := by
  fun_induction cells locals with
  | case1 => rfl
  | case2 last => rfl
  | case3 first second rest wide ih =>
      rw [bare, List.map_cons, List.map_cons, cells, isWide_bareCell, if_pos wide, ← bare, ih]
      rfl
  | case4 first second rest narrow ih =>
      rw [bare, List.map_cons, List.map_cons, cells, isWide_bareCell, if_neg narrow,
        ← List.map_cons, ← bare, ih]
      rfl

theorem countP_bareCell (cells : List (Option VerificationType)) :
    (cells.map bareCell).countP Option.isSome = cells.countP Option.isSome := by
  rw [List.countP_map]
  exact List.countP_congr fun cell _ => by simp [isSome_bareCell]

theorem count_bare (locals : Locals) : locals.bare.count = locals.count := by
  rw [count, count, cells_bare, countP_bareCell]

theorem upToLast_bare (locals : Locals) : locals.bare.upToLast = locals.upToLast.bare := by
  rw [upToLast, upToLast, bare, bare, ← List.map_reverse, List.dropWhile_map, List.map_reverse]
  congr 3
  funext cell
  cases cell <;> rfl

theorem entries_bare (locals : Locals) : locals.bare.entries = erase locals.entries := by
  rw [entries, entries, upToLast_bare, cells_bare, erase, List.map_map, List.map_map]
  apply List.map_congr_left
  intro cell _
  cases cell <;> rfl

theorem slotsInUse_bare (slot : Nat) (locals : Locals) :
    slotsInUse slot locals.bare = slotsInUse slot locals := by
  induction locals generalizing slot with
  | nil => rfl
  | cons first rest ih =>
      cases first with
      | none => exact ih (slot + 1)
      | some type => exact congrArg (slot :: ·) (ih (slot + 1))

theorem slotFromEnd?_bare (locals : Locals) (number : Nat) :
    locals.bare.slotFromEnd? number = locals.slotFromEnd? number := by
  rw [slotFromEnd?, slotFromEnd?, slotsInUse_bare]

theorem startsWithValues_bareCell (cells : List (Option VerificationType)) (number : Nat) :
    startsWithValues (cells.map bareCell) number = startsWithValues cells number := by
  simp only [startsWithValues, List.length_map, ← List.map_take, List.all_map]
  congr 2
  funext cell
  exact isSome_bareCell cell

theorem compare?_bareCell (previous current : List (Option VerificationType))
    (previousCount currentCount : Nat) :
    compare? (previous.map bareCell) previousCount (current.map bareCell) currentCount =
      compare? previous previousCount current currentCount := by
  induction previous generalizing previousCount current currentCount with
  | nil =>
      cases previousCount with
      | zero => cases currentCount <;> simp [compare?, startsWithValues_bareCell]
      | succ dropped =>
          cases currentCount with
          | zero => simp [compare?]
          | succ added => simp [compare?]
  | cons before previous ih =>
      cases previousCount with
      | zero =>
          cases currentCount with
          | zero => simp [compare?]
          | succ added => simp [compare?, startsWithValues_bareCell]
      | succ dropped =>
          cases currentCount with
          | zero => simp only [compare?, startsWithValues_bareCell]
          | succ added =>
              cases current with
              | nil => simp [compare?]
              | cons now current =>
                  cases before with
                  | none => simp [compare?, bareCell]
                  | some before =>
                      cases now with
                      | none => simp [compare?, bareCell]
                      | some now => simp [compare?, bareCell, same_forgetCopy, ih]

theorem change_bare (previous current : Locals) :
    change previous.bare current.bare = change previous current := by
  rw [change, change, changeFrom, changeFrom, cells_bare, cells_bare, count_bare, count_bare,
    compare?_bareCell]

end Locals

def CompressedFrame.forgetCopies :
    CompressedFrame VerificationType → CompressedFrame VerificationType
  | .same delta => .same delta
  | .oneStackItem delta item => .oneStackItem delta item.forgetCopy
  | .chop delta count => .chop delta count
  | .append delta locals => .append delta (erase locals)
  | .full delta locals stack => .full delta (erase locals) (erase stack)

def PlacedFrame.forgetCopies (placed : PlacedFrame) : PlacedFrame :=
  ⟨placed.pc, placed.frame.forgetCopies⟩

namespace Frame

def bare (frame : Frame) : Frame :=
  { pc := frame.pc, locals := frame.locals.bare, stack := erase frame.stack }

theorem same_iff_bare {left right : Frame} : left.same right = true ↔ left.bare = right.bare := by
  simp [same, bare, Locals.bare, Locals.map_forgetCopy, erase, and_assoc]

theorem compressAs_bare (frame : Frame) (delta : UInt16) (form : FrameForm) :
    frame.bare.compressAs delta form = (frame.compressAs delta form).forgetCopies := by
  have full : frame.bare.compressFull delta = (frame.compressFull delta).forgetCopies :=
    congrArg (CompressedFrame.full delta · (erase frame.stack)) (Locals.entries_bare frame.locals)
  have oneItem : frame.bare.compressAs delta .oneStackItem =
      (frame.compressAs delta .oneStackItem).forgetCopies := by
    cases items : frame.stack with
    | nil => simpa [compressAs, bare, items, erase] using full
    | cons item rest => simp [compressAs, bare, items, erase, CompressedFrame.forgetCopies]
  cases form with
  | same => rfl
  | sameExtended => rfl
  | oneStackItem => exact oneItem
  | oneStackItemExtended => exact oneItem
  | chop count => rfl
  | append count =>
      have slots : frame.bare.locals.slotFromEnd? count.toNat =
          frame.locals.slotFromEnd? count.toNat :=
        Locals.slotFromEnd?_bare frame.locals count.toNat
      cases found : frame.locals.slotFromEnd? count.toNat with
      | none => simpa only [compressAs, slots, found] using full
      | some slot =>
          have dropped : frame.bare.locals.drop slot = Locals.bare (frame.locals.drop slot) :=
            (List.map_drop).symm
          simp only [compressAs, slots, found, dropped, Locals.entries_bare]
          rfl
  | full => exact full

theorem formAfter_bare (frame previous : Frame) :
    frame.bare.formAfter previous.bare = frame.formAfter previous := by
  have change : Locals.change previous.bare.locals frame.bare.locals =
      Locals.change previous.locals frame.locals :=
    Locals.change_bare previous.locals frame.locals
  have depth : frame.bare.stack.length = frame.stack.length := List.length_map _
  rw [formAfter, formAfter, change, depth]
  rfl

/-- Bare frames compress to the same, or fail alike. -/
theorem compressAll_bare (previous : Frame) (frames : List Frame) :
    compressAll previous.bare (frames.map bare) =
      (compressAll previous frames).map (List.map PlacedFrame.forgetCopies) := by
  induction frames generalizing previous with
  | nil => rfl
  | cons frame rest ih =>
      have placeholder : previous.bare.isPlaceholder = previous.isPlaceholder := rfl
      have samePc : frame.bare.pc = frame.pc := rfl
      have previousPc : previous.bare.pc = previous.pc := rfl
      have word : frame.bare.wordDelta previous.bare = frame.wordDelta previous := rfl
      rw [List.map_cons, compressAll, compressAll, placeholder, samePc, previousPc, word, ih,
        formAfter_bare]
      by_cases unordered : (!previous.isPlaceholder) = true ∧ frame.pc ≤ previous.pc
      · rw [if_pos unordered, if_pos unordered]
        rfl
      · rw [if_neg unordered, if_neg unordered]
        cases frame.wordDelta previous with
        | error fault => rfl
        | ok delta =>
            simp only [compressAs_bare]
            cases compressAll frame rest <;> rfl

end Frame

end JvmFrames
