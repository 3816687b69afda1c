import JvmFrames.Proofs.CompressedFrame.Size
import JvmFrames.Proofs.Frame.Form

/-!
Why the written form is the shortest. The number of bytes of a frame that a reader understands
depends on its form only; no form takes more bytes than the full one; and at most one form other
than the full one is understood. If the locals have no unused slot among them, that form is chosen.
-/

namespace JvmFrames

open VerificationType

theorem VerificationType.totalSize_erase (types : List VerificationType) :
    totalSize (erase types) = totalSize types := by
  induction types with
  | nil => rfl
  | cons type types ih =>
      have same : type.forgetCopy.size = type.size := by
        cases type <;> rfl
      rw [totalSize, ← ih, ← same]
      rfl

theorem VerificationType.totalSize_eq {first second : List VerificationType}
    (same : erase first = erase second) : totalSize first = totalSize second := by
  rw [← totalSize_erase first, same, totalSize_erase]

theorem VerificationType.totalSize_drop_le (types : List VerificationType) (number : Nat) :
    totalSize (types.drop number) ≤ totalSize types := by
  have whole := totalSize_append (types.take number) (types.drop number)
  rw [List.take_append_drop] at whole
  omega

namespace Locals.EndsApart

variable {before added now : List VerificationType}

theorem of_erase_eq (same : erase before = erase now) : EndsApart before now 0 := by
  have length := length_eq_of_erase_eq same
  exact ⟨.inl (same ▸ List.prefix_rfl), by omega⟩

theorem of_erase_append (same : erase (before ++ added) = erase now) :
    EndsApart before now added.length := by
  have length := length_eq_of_erase_eq same
  rw [List.length_append] at length
  rw [erase_append] at same
  exact ⟨.inl (same ▸ List.prefix_append _ _), by omega⟩

theorem of_erase_take {count : Nat} (enough : count ≤ before.length)
    (same : erase (before.take (before.length - count)) = erase now) :
    EndsApart before now (-count) := by
  have length := length_eq_of_erase_eq same
  rw [List.length_take] at length
  rw [erase_take] at same
  exact ⟨.inr (same ▸ List.take_prefix _ _), by omega⟩

end Locals.EndsApart

namespace Frame

def sizeAs (frame : Frame) : FrameForm → Nat
  | .same => 1
  | .sameExtended => 3
  | .oneStackItem => 1 + totalSize frame.stack
  | .oneStackItemExtended => 3 + totalSize frame.stack
  | .chop _ => 3
  | .append count =>
    3 + totalSize (frame.locals.entries.drop (frame.locals.entries.length - count.toNat))
  | .full => 7 + totalSize frame.locals.entries + totalSize frame.stack

theorem sizeAs_le_full (frame : Frame) (form : FrameForm) :
    frame.sizeAs form ≤ frame.sizeAs .full := by
  cases form with
  | append count =>
      have added := totalSize_drop_le frame.locals.entries
        (frame.locals.entries.length - count.toNat)
      simp only [sizeAs]
      omega
  | _ =>
      simp only [sizeAs]
      omega

end Frame

namespace CompressedFrame

/-- With the entries of the frame before, a reader makes of the compressed frame the offset, the
entries and the stack of the frame, but perhaps with other copies of uninitialized objects. -/
structure Conveys (compressed : CompressedFrame VerificationType) (previous frame : Frame) :
    Prop where
  delta : frame.offsetDelta (some previous) = compressed.delta.toNat
  expands : ∃ entries stack, compressed.expand? previous.locals.entries = some (entries, stack) ∧
    erase entries = erase frame.locals.entries ∧ erase stack = erase frame.stack

variable {compressed : CompressedFrame VerificationType} {previous frame : Frame}

theorem Conveys.size_eq_sizeAs (conveys : compressed.Conveys previous frame) :
    compressed.size = frame.sizeAs compressed.form := by
  obtain ⟨_, entries, stack, expanded, sameEntries, sameStack⟩ := conveys
  cases compressed with
  | same delta =>
      simp only [size, form]
      split <;> rfl
  | oneStackItem delta item =>
      obtain ⟨rfl, rfl⟩ : previous.locals.entries = entries ∧ [item] = stack := by
        simpa [expand?] using expanded
      have total : item.size = totalSize frame.stack := totalSize_eq sameStack
      simp only [size, form, total]
      split <;> rfl
  | chop delta count => rfl
  | append delta locals =>
      simp only [expand?, Option.ite_none_right_eq_some, Option.some.injEq, Prod.mk.injEq]
        at expanded
      obtain ⟨⟨positive, small⟩, rfl, rfl⟩ := expanded
      have length := length_eq_of_erase_eq sameEntries
      rw [List.length_append] at length
      have cut : frame.locals.entries.length - locals.length = previous.locals.entries.length := by
        omega
      have word : (UInt8.ofNat (min locals.length 255)).toNat = locals.length := by
        rw [UInt8.toNat_ofNat']
        omega
      have added : erase locals =
          erase (frame.locals.entries.drop previous.locals.entries.length) := by
        have width : (erase previous.locals.entries).length = previous.locals.entries.length := by
          simp [erase]
        rw [erase_drop, ← sameEntries, erase_append, ← width, List.drop_left]
      simp only [size, form, Frame.sizeAs, word, cut, totalSize_eq added]
  | full delta locals others =>
      obtain ⟨rfl, rfl⟩ : locals = entries ∧ others = stack := by simpa [expand?] using expanded
      simp only [size, form, Frame.sizeAs, totalSize_eq sameEntries, totalSize_eq sameStack]

/-- A frame that is understood without being full says that the locals differ at their end only, and
is written in the form that would be chosen for that. -/
theorem Conveys.form_eq_select (conveys : compressed.Conveys previous frame)
    (compact : compressed.form ≠ .full) :
    ∃ difference,
      Locals.EndsApart previous.locals.entries frame.locals.entries difference ∧
        compressed.form = .select (.atEnd difference) frame.stack.length
          (frame.offsetDelta (some previous)) := by
  obtain ⟨distance, entries, stack, expanded, sameEntries, sameStack⟩ := conveys
  have depth : frame.stack.length = stack.length := (length_eq_of_erase_eq sameStack).symm
  rw [distance, depth]
  cases compressed with
  | same delta =>
      obtain ⟨rfl, rfl⟩ : previous.locals.entries = entries ∧ [] = stack := by
        simpa [expand?] using expanded
      refine ⟨0, Locals.EndsApart.of_erase_eq sameEntries, ?_⟩
      simp only [form, isShort, CompressedFrame.delta, FrameForm.select, FrameForm.maxShortDelta,
        List.length_nil, if_true]
      grind
  | oneStackItem delta item =>
      obtain ⟨rfl, rfl⟩ : previous.locals.entries = entries ∧ [item] = stack := by
        simpa [expand?] using expanded
      refine ⟨0, Locals.EndsApart.of_erase_eq sameEntries, ?_⟩
      simp only [form, isShort, CompressedFrame.delta, FrameForm.select, FrameForm.maxShortDelta,
        List.length_singleton, if_true]
      grind
  | chop delta count =>
      simp only [expand?, Option.ite_none_right_eq_some, Option.some.injEq, Prod.mk.injEq,
        UInt8.le_iff_toNat_le] at expanded
      obtain ⟨⟨positive, small, enough⟩, rfl, rfl⟩ := expanded
      refine ⟨-count.toNat, Locals.EndsApart.of_erase_take enough sameEntries, ?_⟩
      have atLeast : 1 ≤ count.toNat := positive
      have atMost : count.toNat ≤ 3 := small
      rw [List.length_nil, FrameForm.select_chopped atLeast atMost, UInt8.ofNat_toNat]
      rfl
  | append delta locals =>
      simp only [expand?, Option.ite_none_right_eq_some, Option.some.injEq, Prod.mk.injEq]
        at expanded
      obtain ⟨⟨positive, small⟩, rfl, rfl⟩ := expanded
      have clamped : min locals.length 255 = locals.length := by omega
      refine ⟨locals.length, Locals.EndsApart.of_erase_append sameEntries, ?_⟩
      simp only [form, clamped, List.length_nil, FrameForm.select_appended positive small]
  | full delta locals others => exact absurd rfl compact

end CompressedFrame

namespace Frame

open CompressedFrame

variable {previous frame : Frame}

theorem conveys_compressAs (previousCounted : previous.CountTrue) (wellFormed : frame.WellFormed)
    (forgotten : frame.knownChange = none) {delta : UInt16}
    (distance : frame.offsetDelta (some previous) = delta.toNat) :
    (frame.compressAs delta (frame.form (some previous))).Conveys previous frame := by
  obtain ⟨entries, expanded, same⟩ := expand?_compressAs wellFormed.holes rfl delta
  rw [form_eq_formAfter previousCounted wellFormed.counted (changeTrue_of_forgotten forgotten)]
  exact ⟨by rw [delta_compressAs, distance], entries, frame.stack, expanded, same, rfl⟩

/-- Without unused slots among the locals, the only form beside the full one in which the frame can
be understood is the one that is chosen for it. -/
theorem form_of_conveys (previousWellFormed : previous.WellFormed) (wellFormed : frame.WellFormed)
    (previousCompact : previous.locals.Compact) (compact : frame.locals.Compact)
    (forgotten : frame.knownChange = none) {compressed : CompressedFrame VerificationType}
    (conveys : compressed.Conveys previous frame) :
    compressed.form = .full ∨ compressed.form = frame.form (some previous) := by
  by_cases full : compressed.form = .full
  · exact .inl full
  · obtain ⟨difference, apart, form⟩ := conveys.form_eq_select full
    have change : Locals.change previous.locals frame.locals = .atEnd difference :=
      Locals.change_eq_atEnd_iff.mpr
        ⟨(Locals.compact_iff_packed previousWellFormed.holes).mp previousCompact,
          (Locals.compact_iff_packed wellFormed.holes).mp compact, apart⟩
    rw [form, form_eq_formAfter previousWellFormed.counted wellFormed.counted
      (changeTrue_of_forgotten forgotten), formAfter, change]
    exact .inr rfl

/-- A frame is compressed to the fewest bytes that a reader can make the frame of. -/
theorem compress_shortest (previousWellFormed : previous.WellFormed) (wellFormed : frame.WellFormed)
    (previousCompact : previous.locals.Compact) (compact : frame.locals.Compact)
    (forgotten : frame.knownChange = none)
    (fits : 0 ≤ frame.offsetDelta (some previous) ∧ frame.offsetDelta (some previous) < 65536) :
    ∃ written, frame.compress previous = .ok written ∧ written.Conveys previous frame ∧
      ∀ other : CompressedFrame VerificationType, other.Conveys previous frame →
        written.size ≤ other.size ∧
          ∀ bytes otherBytes, written.Serializes bytes → other.Serializes otherBytes →
            bytes.length ≤ otherBytes.length := by
  obtain ⟨delta, distance, written⟩ := compress_of_fits fits
  have conveys := conveys_compressAs previousWellFormed.counted wellFormed forgotten distance
  refine ⟨_, written, conveys, ?_⟩
  intro other otherConveys
  have founded := changeFounded_of_forgotten forgotten
  have fitting : (frame.form (some previous)).Fits delta.toNat := by
    rw [← distance]
    exact FrameForm.fits_select _ _ _
  have form := (form_compressAs (offers_form wellFormed founded (some previous)) fitting).1
  have shorter : (frame.compressAs delta (frame.form (some previous))).size ≤ other.size := by
    rw [conveys.size_eq_sizeAs, otherConveys.size_eq_sizeAs, form]
    rcases form_of_conveys previousWellFormed wellFormed previousCompact compact forgotten
      otherConveys with full | same
    · rw [full]
      exact frame.sizeAs_le_full _
    · exact Nat.le_of_eq (congrArg frame.sizeAs same.symm)
  refine ⟨shorter, ?_⟩
  intro bytes otherBytes serializes otherSerializes
  rw [serializes.length, otherSerializes.length]
  exact shorter

/-- One class is appended behind a wide value, instead of listing all locals again. -/
theorem compress_shortest_append :
    let shape : VerificationType := .object ⟨"Shape"⟩
    let previous : Frame := { pc := 4, locals := [some .integer, some .long, none, none] }
    let frame : Frame := { pc := 9, locals := [some .integer, some .long, none, some shape, none] }
    let written : CompressedFrame VerificationType := .append 4 [shape]
    let longer : CompressedFrame VerificationType := .full 4 [.integer, .long, shape] []
    previous.WellFormed ∧ frame.WellFormed ∧ previous.locals.Compact ∧ frame.locals.Compact ∧
      frame.compress previous = .ok written ∧ longer.Conveys previous frame ∧
      written.size = 6 ∧ longer.size = 12 ∧ written.size ≤ longer.size := by
  intro shape previous frame written longer
  have previousWellFormed : previous.WellFormed := by decide
  have wellFormed : frame.WellFormed := by decide
  have previousCompact : previous.locals.Compact :=
    (Locals.compact_iff_packed previousWellFormed.holes).mpr ⟨1, rfl⟩
  have compact : frame.locals.Compact :=
    (Locals.compact_iff_packed wellFormed.holes).mpr ⟨1, rfl⟩
  have success : frame.compress previous = .ok written := rfl
  have conveys : longer.Conveys previous frame := ⟨rfl, _, _, rfl, rfl, rfl⟩
  obtain ⟨chosen, compressed, _, shortest⟩ := compress_shortest previousWellFormed wellFormed
    previousCompact compact rfl (by decide)
  obtain rfl : written = chosen := Except.ok.inj (success.symm.trans compressed)
  exact ⟨previousWellFormed, wellFormed, previousCompact, compact, success, conveys, rfl, rfl,
    (shortest longer conveys).1⟩

end Frame

end JvmFrames
