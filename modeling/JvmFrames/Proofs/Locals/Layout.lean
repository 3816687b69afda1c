import JvmFrames.Proofs.Locals.Cells
import Mathlib.Data.List.TakeWhile

/-!
The slots that the entries of locals stand for. A wide value stands for its slot and its hole and
any other entry for one slot, so a reader of the entries finds every value where it was.
-/

namespace JvmFrames.Locals

def ofEntries : List VerificationType → Locals
  | [] => []
  | type :: rest =>
    if type.isWide then some type :: none :: ofEntries rest else some type :: ofEntries rest

def IsHole (locals : Locals) (slot : Nat) : Prop :=
  0 < slot ∧ isWide (locals[slot - 1]?).join = true

instance (locals : Locals) (slot : Nat) : Decidable (locals.IsHole slot) :=
  inferInstanceAs (Decidable (_ ∧ _))

def filled (locals : Locals) : Locals :=
  locals.mapIdx fun slot cell => if cell = none ∧ ¬ locals.IsHole slot then some .top else cell

inductive EndsAt (locals : Locals) : Nat → Prop
  | unused : (∀ cell ∈ locals, cell = none) → EndsAt locals 0
  | value {slot : Nat} {type : VerificationType} : locals[slot]? = some (some type) →
      (∀ later cell, slot < later → locals[later]? = some cell → cell = none) →
      EndsAt locals (slot + type.width)

section Entries

variable {type : VerificationType} {rest : Locals}

theorem entries_eq (locals : Locals) :
    locals.entries = (upToLast locals.cells).map fun cell => cell.getD .top := by
  rw [entries, cells_upToLast]

theorem entries_cons_wide (wide : type.isWide = true) :
    entries (some type :: none :: rest) = type :: entries rest := by
  rw [entries_eq, entries_eq, cells_cons_wide none rest (by exact wide), upToLast_cons_some]
  rfl

theorem entries_cons_some (narrow : type.isWide = false) :
    entries (some type :: rest) = type :: entries rest := by
  rw [entries_eq, entries_eq, cells_cons_narrow rest (by exact narrow), upToLast_cons_some]
  rfl

theorem entries_cons_none :
    entries (none :: rest) = if entries rest = [] then [] else .top :: entries rest := by
  rw [entries_eq, entries_eq, cells_cons_narrow rest rfl, upToLast_cons_none]
  by_cases unused : upToLast rest.cells = []
  · simp [unused]
  · simp [unused]

theorem entries_eq_nil_iff {locals : Locals} :
    locals.entries = [] ↔ ∀ cell ∈ locals, cell = none := by
  rw [entries, List.map_eq_nil_iff, cells_eq_nil_iff, upToLast, List.reverse_eq_nil_iff,
    List.dropWhile_eq_nil_iff]
  simp

end Entries

section Filled

variable {type : VerificationType} {rest : Locals}

theorem getElem?_filled (locals : Locals) (slot : Nat) :
    locals.filled[slot]? = (locals[slot]?).map fun cell =>
      if cell = none ∧ ¬ locals.IsHole slot then some .top else cell := by
  rw [filled, List.getElem?_mapIdx]

theorem isHole_cons_narrow {first : Option VerificationType} (narrow : isWide first = false)
    (slot : Nat) : IsHole (first :: rest) (slot + 1) ↔ rest.IsHole slot := by
  cases slot <;> simp [IsHole, narrow]

theorem isHole_cons_wide (slot : Nat) :
    IsHole (some type :: none :: rest) (slot + 2) ↔ rest.IsHole slot := by
  cases slot <;> simp [IsHole, isWide]

theorem filled_cons_narrow {first : Option VerificationType} (narrow : isWide first = false) :
    filled (first :: rest) = some (first.getD .top) :: filled rest := by
  apply List.ext_getElem?
  intro slot
  rw [getElem?_filled]
  cases slot with
  | zero => cases first <;> simp [IsHole]
  | succ slot =>
      rw [List.getElem?_cons_succ, List.getElem?_cons_succ, getElem?_filled]
      simp only [isHole_cons_narrow narrow]

theorem filled_cons_wide (wide : type.isWide = true) :
    filled (some type :: none :: rest) = some type :: none :: filled rest := by
  apply List.ext_getElem?
  intro slot
  rw [getElem?_filled]
  rcases slot with _ | _ | slot
  · simp
  · simp [IsHole, isWide, wide]
  · simp only [List.getElem?_cons_succ, getElem?_filled, isHole_cons_wide]

end Filled

namespace EndsAt

variable {rest : Locals} {size : Nat}

theorem append (front : Locals) (ends : EndsAt rest size) (used : rest.entries ≠ []) :
    EndsAt (front ++ rest) (front.length + size) := by
  cases ends with
  | unused unused => exact absurd (entries_eq_nil_iff.mpr unused) used
  | @value slot type found last =>
      rw [← Nat.add_assoc]
      refine .value ?_ ?_
      · rw [List.getElem?_append_right (Nat.le_add_right _ _), Nat.add_sub_cancel_left, found]
      · intro later cell behind present
        rw [List.getElem?_append_right (by omega)] at present
        exact last _ cell (by omega) present

theorem of_unused {type : VerificationType} (unused : ∀ cell ∈ rest, cell = none) :
    EndsAt (some type :: rest) type.width := by
  rw [← Nat.zero_add type.width]
  refine .value rfl ?_
  intro later cell behind present
  obtain ⟨later, rfl⟩ : ∃ before, later = before + 1 := ⟨later - 1, by omega⟩
  exact unused cell (List.mem_of_getElem? present)

/-- The slots of a value come before those that are left of the rest. -/
theorem cons {type : VerificationType} (front : Locals) (ends : EndsAt rest size)
    (width : front.length + 1 = type.width) (holes : ∀ cell ∈ front, cell = none) :
    EndsAt (some type :: front ++ rest) (type.width + size) := by
  by_cases used : rest.entries = []
  · have unused := entries_eq_nil_iff.mp used
    cases ends with
    | unused _ =>
        refine of_unused fun cell member => ?_
        exact (List.mem_append.mp member).elim (holes cell) (unused cell)
    | value found _ =>
        have absent := unused _ (List.mem_of_getElem? found)
        contradiction
  · have behind := ends.append (some type :: front) used
    rwa [List.length_cons, width] at behind

end EndsAt

theorem exists_endsAt_ofEntries {locals : Locals} (wellFormed : locals.WellFormed) :
    ∃ size, locals.EndsAt size ∧ ofEntries locals.entries = locals.filled.take size := by
  induction wellFormed using WellFormed.induction with
  | nil => exact ⟨0, .unused (by simp), rfl⟩
  | unused rest _ _ ih =>
      obtain ⟨size, ends, same⟩ := ih
      rw [entries_cons_none, filled_cons_narrow rfl]
      split
      · rename_i empty
        exact ⟨0, .unused (by simpa using entries_eq_nil_iff.mp empty), rfl⟩
      · rename_i used
        refine ⟨1 + size, ends.append [none] used, ?_⟩
        rw [ofEntries, if_neg (by decide), same, Nat.add_comm, List.take_succ_cons]
        rfl
  | narrow type rest _ _ narrow ih =>
      obtain ⟨size, ends, same⟩ := ih
      have width : type.width = 1 := by rw [VerificationType.width, if_neg (by simp [narrow])]
      refine ⟨type.width + size, ends.cons [] width.symm (by simp), ?_⟩
      rw [entries_cons_some narrow, filled_cons_narrow (by exact narrow), ofEntries,
        if_neg (by simp [narrow]), same, width, Nat.add_comm, List.take_succ_cons]
      rfl
  | wide type rest _ _ wide ih =>
      obtain ⟨size, ends, same⟩ := ih
      have width : type.width = 2 := by rw [VerificationType.width, if_pos wide]
      refine ⟨type.width + size, ends.cons [none] width.symm (by simp), ?_⟩
      rw [entries_cons_wide wide, filled_cons_wide wide, ofEntries, if_pos wide, same, width,
        Nat.add_comm, List.take_succ_cons, List.take_succ_cons]

theorem entries_ne_nil_of_value {locals : Locals} {slot : Nat} {type : VerificationType}
    (found : locals[slot]? = some (some type)) : locals.entries ≠ [] := by
  intro empty
  have absent := entries_eq_nil_iff.mp empty _ (List.mem_of_getElem? found)
  contradiction

theorem ofEntries_entries_drop {locals : Locals} (wellFormed : locals.WellFormed) {slot : Nat}
    {type : VerificationType} (found : locals[slot]? = some (some type)) :
    ofEntries (entries (locals.drop slot)) = (ofEntries locals.entries).drop slot := by
  induction wellFormed using WellFormed.induction generalizing slot with
  | nil => simp at found
  | unused rest _ _ ih =>
      cases slot with
      | zero => simp at found
      | succ slot =>
          have later : rest[slot]? = some (some type) := by simpa using found
          rw [entries_cons_none, if_neg (entries_ne_nil_of_value later), ofEntries,
            if_neg (by decide), List.drop_succ_cons, List.drop_succ_cons, ih later]
  | narrow first rest _ _ narrow ih =>
      cases slot with
      | zero => rfl
      | succ slot =>
          rw [entries_cons_some narrow, ofEntries, if_neg (by simp [narrow]), List.drop_succ_cons,
            List.drop_succ_cons, ih (by simpa using found)]
  | wide first rest _ _ wide ih =>
      rcases slot with _ | _ | slot
      · rfl
      · simp at found
      · rw [entries_cons_wide wide, ofEntries, if_pos wide]
        simp only [List.drop_succ_cons]
        exact ih (by simpa using found)

/-- The entries of well-formed locals stand for the slots of the locals up to the last value and its
hole, with `top` where a slot is unused; and the entries from any value on stand for the slots from
that value on. -/
theorem ofEntries_entries {locals : Locals} (wellFormed : locals.WellFormed) :
    (∃ size, locals.EndsAt size ∧ ofEntries locals.entries = locals.filled.take size) ∧
      ∀ slot type, locals[slot]? = some (some type) →
        ofEntries (entries (locals.drop slot)) = (ofEntries locals.entries).drop slot :=
  ⟨exists_endsAt_ofEntries wellFormed, fun _ _ => ofEntries_entries_drop wellFormed⟩

/-- Unused slots in front of a wide value, behind its hole and at the end. -/
theorem ofEntries_entries_unused :
    let locals : Locals := [none, some .long, none, none, some .integer, none]
    locals.WellFormed ∧ locals.entries = [.top, .long, .top, .integer] ∧
      (∃ size, locals.EndsAt size ∧
        [some .top, some .long, none, some .top, some .integer] = locals.filled.take size) ∧
      ofEntries (entries (locals.drop 1)) = [some .long, none, some .top, some .integer] := by
  intro locals
  have complete : missingHole? 0 locals = none := rfl
  have wellFormed := missingHole?_eq_none_iff.mp complete
  obtain ⟨layout, tail⟩ := ofEntries_entries wellFormed
  exact ⟨wellFormed, rfl, layout, tail 1 .long rfl⟩

end JvmFrames.Locals
