import JvmFrames.Locals

/-!
Storing into locals, slot by slot. A store writes its own slots and makes the two neighbours
unusable that it cuts off from their wide values; it leaves every wide value with its hole.
-/

namespace JvmFrames.Locals

theorem length_grown (locals : Locals) (size : Nat) :
    (List.rightpad size none locals).length = max locals.length size := by
  rw [List.rightpad, List.length_append, List.length_replicate]
  omega

theorem getElem?_grown (locals : Locals) (size index : Nat) :
    (List.rightpad size none locals)[index]? =
      if index < max locals.length size then some (locals[index]?).join else none := by
  rw [List.rightpad, List.getElem?_append]
  by_cases inside : index < locals.length
  · rw [if_pos inside, if_pos (by omega), List.getElem?_eq_getElem inside]
    rfl
  · rw [if_neg inside, List.getElem?_replicate, List.getElem?_eq_none (by omega)]
    by_cases added : index < max locals.length size
    · rw [if_pos added, if_pos (by omega)]
      rfl
    · rw [if_neg added, if_neg (by omega)]

theorem join_getElem?_grown (locals : Locals) (size index : Nat) :
    ((List.rightpad size none locals)[index]?).join = (locals[index]?).join := by
  rw [getElem?_grown]
  split
  · rfl
  · rename_i outside
    rw [List.getElem?_eq_none (by omega)]

theorem length_set_if (condition : Prop) [Decidable condition] (locals : Locals) (slot : Nat)
    (cell : Option VerificationType) :
    (if condition then locals.set slot cell else locals).length = locals.length := by
  split
  · exact List.length_set
  · rfl

theorem getElem?_set_if (condition : Prop) [Decidable condition] (locals : Locals) (slot : Nat)
    (cell : Option VerificationType) (index : Nat) :
    (if condition then locals.set slot cell else locals)[index]? =
      if condition ∧ slot = index ∧ index < locals.length then some cell else locals[index]? := by
  by_cases chosen : condition
  · simp only [chosen, if_true, true_and, List.getElem?_set]
    by_cases here : slot = index
    · subst here
      by_cases inside : slot < locals.length
      · simp [inside]
      · simp [inside]
    · simp [here]
  · simp [chosen]

theorem length_put (locals : Locals) (slot : Nat) (type : VerificationType) :
    (locals.put slot type).length = max locals.length (slot + type.width) := by
  rw [put, List.length_set, claimHole, length_set_if, breakAfter, length_set_if, breakBefore,
    length_set_if, length_grown]

def Halved (locals : Locals) (slot index : Nat) : Prop :=
  index = slot + 1 ∧ isWide (locals[slot]?).join = true ∨
    index + 1 = slot ∧ isWide (locals[index]?).join = true

instance (locals : Locals) (slot index : Nat) : Decidable (locals.Halved slot index) :=
  inferInstanceAs (Decidable (_ ∨ _))

/-- What a slot holds after a store. -/
theorem getElem?_put {locals : Locals} {slot : Nat} {type : VerificationType} {index : Nat}
    (inside : index < max locals.length (slot + type.width)) :
    (locals.put slot type)[index]? = some (
      if index = slot then some type
      else if index = slot + 1 ∧ type.isWide then none
      else if locals.Halved slot index then some .top
      else (locals[index]?).join) := by
  have length := length_grown locals (slot + type.width)
  have cell := join_getElem?_grown locals (slot + type.width)
  have present := (getElem?_grown locals (slot + type.width) index).trans (if_pos inside)
  have positive : 0 < type.width := by
    unfold VerificationType.width
    split <;> omega
  rw [put]
  generalize List.rightpad (slot + type.width) none locals = grown at length cell present
  -- The first step leaves the stored slot alone, so the second finds there what was there.
  have kept : ((breakBefore grown slot)[slot]?).join = (locals[slot]?).join := by
    rw [breakBefore, getElem?_set_if, if_neg (by omega), cell]
  simp only [claimHole, breakAfter, List.getElem?_set, getElem?_set_if, length_set_if, kept]
  simp only [breakBefore, getElem?_set_if, length_set_if, length, cell, present, inside, and_true,
    Halved]
  by_cases here : index = slot
  · subst here
    simp [inside]
  · by_cases behind : index = slot + 1
    · subst behind
      have ahead : slot + 1 + 1 ≠ slot := by omega
      cases type.isWide <;> simp [ahead, apply_ite some]
    · by_cases before : index + 1 = slot
      · subst before
        have ahead : index ≠ index + 1 + 1 := by omega
        simp [ahead, ahead.symm, apply_ite some]
      · grind

theorem width_cases (type : VerificationType) :
    type.isWide = true ∧ type.width = 2 ∨ type.isWide = false ∧ type.width = 1 := by
  cases wide : type.isWide <;> simp [VerificationType.width, wide]

theorem getElem?_put_slot (locals : Locals) (slot : Nat) (type : VerificationType) :
    (locals.put slot type)[slot]? = some (some type) := by
  have inside : slot < max locals.length (slot + type.width) := by
    rcases width_cases type with ⟨_, width⟩ | ⟨_, width⟩ <;> omega
  rw [getElem?_put inside, if_pos rfl]

theorem getElem?_put_hole (locals : Locals) (slot : Nat) {type : VerificationType}
    (wide : type.isWide = true) : (locals.put slot type)[slot + 1]? = some none := by
  have width : type.width = 2 := by rw [VerificationType.width, if_pos wide]
  rw [getElem?_put (by omega), if_neg (by omega), if_pos ⟨rfl, wide⟩]

def Outside (slot width other : Nat) : Prop :=
  other < slot ∨ slot + width ≤ other

theorem getElem?_put_outside {locals : Locals} {slot : Nat} {type : VerificationType} {other : Nat}
    (outside : Outside slot type.width other) (inside : other < (locals.put slot type).length) :
    (locals.put slot type)[other]? =
      some (if locals.Halved slot other then some .top else (locals[other]?).join) := by
  unfold Outside at outside
  rw [length_put] at inside
  rcases width_cases type with ⟨wide, width⟩ | ⟨narrow, width⟩
  · rw [getElem?_put inside, if_neg (by omega), if_neg (by omega)]
  · rw [getElem?_put inside, if_neg (by omega), if_neg (by simp [narrow])]

theorem wellFormed_put {locals : Locals} (wellFormed : locals.WellFormed) (slot : Nat)
    (type : VerificationType) : (locals.put slot type).WellFormed := by
  intro index stored found wide
  have inside : index < max locals.length (slot + type.width) := by
    rw [← length_put]
    exact (List.getElem?_eq_some_iff.mp found).1
  rw [getElem?_put inside, Option.some.injEq] at found
  split at found
  · rename_i here
    obtain rfl := Option.some.inj found
    have width : type.width = 2 := by rw [VerificationType.width, if_pos wide]
    rw [getElem?_put (by omega), if_neg (by omega), if_pos ⟨by omega, wide⟩]
  · split at found
    · contradiction
    · split at found
      · obtain rfl := Option.some.inj found
        contradiction
      -- A wide value that is still there was there before, and neither half of it is stored over.
      · rename_i elsewhere unclaimed whole
        have hole := wellFormed index stored (Option.join_eq_some_iff.mp found) wide
        have bound := (List.getElem?_eq_some_iff.mp hole).1
        have apart : index + 1 ≠ slot := by
          intro before
          exact whole (.inr ⟨before, by rw [found]; exact wide⟩)
        rw [getElem?_put (by omega), if_neg apart, if_neg (by omega), if_neg, hole]
        · rfl
        · rintro (⟨behind, _⟩ | ⟨_, wideHole⟩)
          · omega
          · rw [hole] at wideHole
            contradiction

theorem wellFormed_putAll {locals : Locals} (wellFormed : locals.WellFormed) (slot : Nat)
    (types : List VerificationType) : (locals.putAll slot types).WellFormed := by
  induction types generalizing locals slot with
  | nil => exact wellFormed
  | cons type rest ih => exact ih (wellFormed_put wellFormed slot type) (slot + type.width)

/-- Changing values in place keeps the holes, as long as no narrow value becomes wide. -/
theorem wellFormed_map {change : VerificationType → VerificationType} {locals : Locals}
    (narrower : ∀ type, (change type).isWide = true → type.isWide = true)
    (wellFormed : locals.WellFormed) : Locals.WellFormed (locals.map (Option.map change)) := by
  intro slot type found wide
  rw [List.getElem?_map, Option.map_eq_some_iff] at found
  obtain ⟨cell, cellFound, changed⟩ := found
  obtain ⟨source, rfl, rfl⟩ := Option.map_eq_some_iff.mp changed
  rw [List.getElem?_map, wellFormed slot source cellFound (narrower source wide)]
  rfl

end JvmFrames.Locals
