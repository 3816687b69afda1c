import JvmFrames.Proofs.Locals.Cells

/-!
Compact locals: below their last value every slot holds a value or is the hole of one. Well-formed
locals are compact exactly if their cells are packed.
-/

namespace JvmFrames.Locals

def Compact (locals : Locals) : Prop :=
  ∀ (slot value : Nat) (type : VerificationType), slot < value → locals[slot]? = some none →
    locals[value]? = some (some type) → 0 < slot ∧ isWide (locals[slot - 1]?).join = true

theorem compact_of_unused {locals : Locals} (unused : ∀ cell ∈ locals, cell = none) :
    locals.Compact := by
  intro slot value type _ _ found
  have absent := unused _ (List.mem_of_getElem? found)
  contradiction

theorem compact_cons_narrow {first : Option VerificationType} {rest : Locals}
    (narrow : isWide first = false) :
    Compact (first :: rest) ↔ (first = none → ∀ cell ∈ rest, cell = none) ∧ Compact rest := by
  constructor
  · intro compact
    constructor
    · rintro rfl cell member
      cases cell with
      | none => rfl
      | some type =>
          obtain ⟨index, found⟩ := List.mem_iff_getElem?.mp member
          have behind := compact 0 (index + 1) type (by omega) rfl (by simpa using found)
          exact absurd behind.1 (by omega)
    · intro slot value type below empty found
      have hole := compact (slot + 1) (value + 1) type (by omega) (by simpa using empty)
        (by simpa using found)
      cases slot with
      | zero => simp [narrow] at hole
      | succ slot => simpa using hole
  · rintro ⟨unused, compact⟩ slot value type below empty found
    obtain ⟨value, rfl⟩ : ∃ before, value = before + 1 := ⟨value - 1, by omega⟩
    have later : rest[value]? = some (some type) := by simpa using found
    cases slot with
    | zero =>
        have absent := unused (by simpa using empty) _ (List.mem_of_getElem? later)
        contradiction
    | succ slot =>
        have hole := compact slot value type (by omega) (by simpa using empty) later
        obtain ⟨slot, rfl⟩ : ∃ before, slot = before + 1 := ⟨slot - 1, by omega⟩
        simpa using hole

theorem compact_cons_wide {first : Option VerificationType} {rest : Locals}
    (wide : isWide first = true) : Compact (first :: none :: rest) ↔ Compact rest := by
  constructor
  · intro compact slot value type below empty found
    have hole := compact (slot + 2) (value + 2) type (by omega) (by simpa using empty)
      (by simpa using found)
    cases slot with
    | zero => simp [isWide] at hole
    | succ slot => simpa using hole
  · intro compact slot value type below empty found
    rcases (by omega : slot = 0 ∨ slot = 1 ∨ 2 ≤ slot) with rfl | rfl | behind
    · obtain rfl : first = none := by simpa using empty
      contradiction
    · simpa using wide
    · obtain ⟨slot, rfl⟩ : ∃ before, slot = before + 2 := ⟨slot - 2, by omega⟩
      obtain ⟨value, rfl⟩ : ∃ before, value = before + 2 := ⟨value - 2, by omega⟩
      have hole := compact slot value type (by omega) (by simpa using empty) (by simpa using found)
      obtain ⟨slot, rfl⟩ : ∃ before, slot = before + 1 := ⟨slot - 1, by omega⟩
      simpa using hole

theorem exists_packed_cons_some (type : VerificationType)
    (cells : List (Option VerificationType)) :
    (∃ values, Packed (some type :: cells) values) ↔ ∃ values, Packed cells values := by
  constructor
  · rintro ⟨values, unused, split⟩
    cases values with
    | nil => cases unused <;> simp [List.replicate_succ] at split
    | cons first values =>
        simp only [List.map_cons, List.cons_append, List.cons.injEq] at split
        exact ⟨values, unused, split.2⟩
  · rintro ⟨values, packed⟩
    exact ⟨type :: values, packed_cons type packed⟩

theorem exists_packed_cons_none (cells : List (Option VerificationType)) :
    (∃ values, Packed (none :: cells) values) ↔ ∀ cell ∈ cells, cell = none := by
  constructor
  · rintro ⟨values, unused, split⟩ cell member
    cases values with
    | nil =>
        have all : none :: cells = List.replicate unused none := by simpa using split
        exact List.eq_of_mem_replicate (all ▸ List.mem_cons_of_mem none member)
    | cons first values => simp at split
  · intro unused
    refine ⟨[], packed_of_countP_eq_zero ?_⟩
    rw [List.countP_eq_zero]
    intro cell member
    rcases List.mem_cons.mp member with rfl | member
    · simp
    · simp [unused cell member]

theorem cells_unused_iff (locals : Locals) :
    (∀ cell ∈ locals.cells, cell = none) ↔ ∀ cell ∈ locals, cell = none := by
  fun_induction cells locals with
  | case1 => rfl
  | case2 last => rfl
  | case3 first second rest wide ih =>
      obtain ⟨type, rfl⟩ := exists_of_isWide wide
      simp
  | case4 first second rest narrow ih =>
      rw [List.forall_mem_cons, List.forall_mem_cons, ih]

theorem compact_iff_exists_packed {locals : Locals} (wellFormed : locals.WellFormed) :
    locals.Compact ↔ ∃ values, Packed locals.cells values := by
  induction wellFormed using WellFormed.induction with
  | nil => exact ⟨fun _ => ⟨[], 0, rfl⟩, fun _ => compact_of_unused (by simp)⟩
  | unused rest _ _ _ =>
      rw [compact_cons_narrow rfl, cells_cons_narrow rest rfl, exists_packed_cons_none,
        cells_unused_iff]
      exact ⟨fun both => both.1 rfl, fun unused => ⟨fun _ => unused, compact_of_unused unused⟩⟩
  | narrow type rest _ _ narrow ih =>
      rw [compact_cons_narrow (by exact narrow), cells_cons_narrow rest (by exact narrow),
        exists_packed_cons_some, ← ih]
      exact ⟨fun both => both.2, fun compact => ⟨fun absent => by contradiction, compact⟩⟩
  | wide type rest _ _ wide ih =>
      rw [compact_cons_wide (by exact wide), cells_cons_wide none rest (by exact wide),
        exists_packed_cons_some]
      exact ih

theorem compact_iff_packed {locals : Locals} (wellFormed : locals.WellFormed) :
    locals.Compact ↔ Packed locals.cells locals.entries := by
  rw [compact_iff_exists_packed wellFormed]
  constructor
  · rintro ⟨values, packed⟩
    rwa [entries_of_packed packed]
  · intro packed
    exact ⟨_, packed⟩

theorem length_entries_of_compact {locals : Locals} (wellFormed : locals.WellFormed)
    (compact : locals.Compact) : locals.entries.length = locals.count :=
  (countP_of_packed ((compact_iff_packed wellFormed).mp compact)).symm

end JvmFrames.Locals
