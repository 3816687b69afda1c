import JvmFrames.Proofs.Locals.Layout
import JvmFrames.Proofs.Locals.Storing

/-!
Values stored one behind the other. Each goes to the end of the locals, where no wide value can lose
its hole, so together they take the slots that entries stand for. No slot is unused there, and
counting or listing the values gives back what was stored.
-/

namespace JvmFrames.Locals

section Storing

variable {locals : Locals}

/-- The slot behind well-formed locals is no hole, so a store there breaks no wide value. -/
theorem not_halved_length (wellFormed : locals.WellFormed) {index : Nat}
    (inside : index < locals.length) : ¬ locals.Halved locals.length index := by
  rintro (⟨behind, _⟩ | ⟨before, wide⟩)
  · omega
  · obtain ⟨stored, found⟩ := exists_of_isWide wide
    rw [found] at wide
    have hole := wellFormed index stored (Option.join_eq_some_iff.mp found) wide
    have bound := (List.getElem?_eq_some_iff.mp hole).1
    omega

theorem put_length (wellFormed : locals.WellFormed) (type : VerificationType) :
    locals.put locals.length type = locals ++ ofEntries [type] := by
  have length : (locals.put locals.length type).length = locals.length + type.width := by
    rw [length_put]
    omega
  apply List.ext_getElem?
  intro index
  rcases Nat.lt_or_ge index locals.length with inside | behind
  · rw [getElem?_put_outside (.inl inside) (by omega), if_neg (not_halved_length wellFormed inside),
      List.getElem?_append_left inside, List.getElem?_eq_getElem inside]
    rfl
  · obtain ⟨offset, rfl⟩ := Nat.exists_eq_add_of_le behind
    rw [List.getElem?_append_right behind, Nat.add_sub_cancel_left]
    rcases width_cases type with ⟨wide, width⟩ | ⟨narrow, width⟩
    · rw [ofEntries, if_pos wide]
      rcases offset with _ | _ | offset
      · exact getElem?_put_slot locals locals.length type
      · exact getElem?_put_hole locals locals.length wide
      · rw [List.getElem?_eq_none (by omega)]
        rfl
    · rw [ofEntries, if_neg (by simp [narrow])]
      rcases offset with _ | offset
      · exact getElem?_put_slot locals locals.length type
      · rw [List.getElem?_eq_none (by omega)]
        rfl

theorem ofEntries_cons (type : VerificationType) (rest : List VerificationType) :
    ofEntries (type :: rest) = ofEntries [type] ++ ofEntries rest := by
  simp only [ofEntries]
  split <;> rfl

theorem length_ofEntries_singleton (type : VerificationType) :
    (ofEntries [type]).length = type.width := by
  rcases width_cases type with ⟨wide, width⟩ | ⟨narrow, width⟩
  · simp [ofEntries, wide, width]
  · simp [ofEntries, narrow, width]

/-- Values stored from the end on follow the locals without a gap. -/
theorem putAll_length (wellFormed : locals.WellFormed) (types : List VerificationType) :
    locals.putAll locals.length types = locals ++ ofEntries types := by
  induction types generalizing locals with
  | nil => simp [putAll, ofEntries]
  | cons type rest ih =>
      have stored := put_length wellFormed type
      have storedWellFormed := wellFormed_put wellFormed locals.length type
      -- The next value goes where the locals end that have grown by this one.
      have next : locals.length + type.width = (locals.put locals.length type).length := by
        rw [stored, List.length_append, length_ofEntries_singleton]
      rw [putAll, next, ih storedWellFormed, stored, List.append_assoc, ← ofEntries_cons]

theorem putAll_nil (types : List VerificationType) : putAll [] 0 types = ofEntries types :=
  putAll_length wellFormed_nil types

end Storing

section Entries

theorem packed_ofEntries (types : List VerificationType) :
    Packed (ofEntries types).cells types := by
  induction types with
  | nil => exact ⟨0, rfl⟩
  | cons type rest ih =>
      rw [ofEntries]
      split
      · rename_i wide
        rw [cells_cons_wide none _ (by exact wide)]
        exact packed_cons type ih
      · rename_i narrow
        rw [cells_cons_narrow _ (by simpa [isWide] using narrow)]
        exact packed_cons type ih

theorem entries_ofEntries (types : List VerificationType) : (ofEntries types).entries = types :=
  entries_of_packed (packed_ofEntries types)

theorem count_ofEntries (types : List VerificationType) : (ofEntries types).count = types.length :=
  countP_of_packed (packed_ofEntries types)

theorem mem_ofEntries_iff {type : VerificationType} {types : List VerificationType} :
    some type ∈ ofEntries types ↔ type ∈ types := by
  induction types with
  | nil => simp [ofEntries]
  | cons first rest ih =>
      rw [ofEntries]
      split <;> simp [ih]

theorem getElem?_ofEntries_eq_none_iff {types : List VerificationType} {slot : Nat} :
    (ofEntries types)[slot]? = some none ↔ (ofEntries types).IsHole slot := by
  induction types generalizing slot with
  | nil => simp [ofEntries, IsHole, isWide]
  | cons type rest ih =>
      rw [ofEntries]
      split
      · rename_i wide
        rcases slot with _ | _ | slot
        · simp [IsHole]
        · simp [IsHole, isWide, wide]
        · rw [isHole_cons_wide, ← ih]
          rfl
      · rename_i narrow
        cases slot with
        | zero => simp [IsHole]
        | succ slot =>
            rw [isHole_cons_narrow (by simpa [isWide] using narrow), ← ih]
            rfl

end Entries

end JvmFrames.Locals
