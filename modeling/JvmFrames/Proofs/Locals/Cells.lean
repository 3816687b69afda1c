import JvmFrames.Locals

/-!
The cells of a list of locals: how they lose their unused end, what they list as entries, and which
cells remain when the slots are cut in front of a value.
-/

namespace JvmFrames.Locals

theorem cells_cons_narrow {first : Option VerificationType} (rest : Locals)
    (narrow : isWide first = false) : cells (first :: rest) = first :: cells rest := by
  cases rest with
  | nil => rfl
  | cons second rest => simp [cells, narrow]

theorem cells_cons_wide {first : Option VerificationType} (second : Option VerificationType)
    (rest : Locals) (wide : isWide first = true) :
    cells (first :: second :: rest) = first :: cells rest := by
  simp [cells, wide]

theorem exists_of_isWide {cell : Option VerificationType} (wide : isWide cell = true) :
    ∃ type, cell = some type := by
  cases cell with
  | none => simp [isWide] at wide
  | some type => exact ⟨type, rfl⟩

/-- Well-formed locals are made of unused slots, of narrow values, and of wide values with their
holes. -/
@[elab_as_elim]
theorem WellFormed.induction {motive : ∀ locals : Locals, locals.WellFormed → Prop}
    (nil : motive [] wellFormed_nil)
    (unused : ∀ (rest : Locals) (restWellFormed : rest.WellFormed)
      (wellFormed : WellFormed (none :: rest)), motive rest restWellFormed →
      motive (none :: rest) wellFormed)
    (narrow : ∀ (type : VerificationType) (rest : Locals) (restWellFormed : rest.WellFormed)
      (wellFormed : WellFormed (some type :: rest)), type.isWide = false →
      motive rest restWellFormed → motive (some type :: rest) wellFormed)
    (wide : ∀ (type : VerificationType) (rest : Locals) (restWellFormed : rest.WellFormed)
      (wellFormed : WellFormed (some type :: none :: rest)), type.isWide = true →
      motive rest restWellFormed → motive (some type :: none :: rest) wellFormed)
    {locals : Locals} (wellFormed : locals.WellFormed) : motive locals wellFormed := by
  induction locals using cells.induct with
  | case1 => exact nil
  | case2 last =>
      obtain ⟨hole, _⟩ := wellFormed_cons.mp wellFormed
      cases last with
      | none => exact unused [] wellFormed_nil wellFormed nil
      | some type =>
          have isNarrow : type.isWide = false := by simpa [isWide] using hole
          exact narrow type [] wellFormed_nil wellFormed isNarrow nil
  | case3 first second rest isWide ih =>
      obtain ⟨hole, restWellFormed⟩ := wellFormed_cons.mp wellFormed
      obtain ⟨type, rfl⟩ := exists_of_isWide isWide
      obtain rfl : second = none := by simpa using hole isWide
      have behind := (wellFormed_cons.mp restWellFormed).2
      exact wide type rest behind wellFormed isWide (ih behind)
  | case4 first second rest notWide ih =>
      have behind := (wellFormed_cons.mp wellFormed).2
      cases first with
      | none => exact unused _ behind wellFormed (ih behind)
      | some type =>
          exact narrow type _ behind wellFormed (Bool.not_eq_true _ ▸ notWide) (ih behind)

theorem cells_eq_nil_iff {locals : Locals} : locals.cells = [] ↔ locals = [] := by
  constructor
  · intro empty
    unfold cells at empty
    split at empty
    · rfl
    · contradiction
    · split at empty <;> contradiction
  · rintro rfl
    rfl

@[simp] theorem upToLast_cons_some (type : VerificationType) (rest : Locals) :
    upToLast (some type :: rest) = some type :: upToLast rest := by
  simp only [upToLast, List.reverse_cons, List.dropWhile_append]
  split
  · rename_i unused
    simp [List.isEmpty_iff.mp unused]
  · simp

theorem upToLast_cons_none (rest : Locals) :
    upToLast (none :: rest) = if upToLast rest = [] then [] else none :: upToLast rest := by
  simp only [upToLast, List.reverse_cons, List.dropWhile_append, List.reverse_eq_nil_iff]
  by_cases unused : rest.reverse.dropWhile Option.isNone = []
  · simp [unused]
  · simp [unused]

/-- Cutting off the unused end and leaving out the slots behind wide values may be done in either
order. -/
theorem cells_upToLast (locals : Locals) : locals.upToLast.cells = upToLast locals.cells := by
  fun_induction cells locals with
  | case1 => rfl
  | case2 last => cases last <;> rfl
  | case3 first second rest wide ih =>
      obtain ⟨type, rfl⟩ := exists_of_isWide wide
      rw [upToLast_cons_some, upToLast_cons_some, ← ih]
      cases second with
      | some hidden => rw [upToLast_cons_some, cells_cons_wide _ _ wide]
      | none =>
          rw [upToLast_cons_none]
          split
          · rename_i unused
            rw [unused]
            rfl
          · rw [cells_cons_wide _ _ wide]
  | case4 first second rest narrow ih =>
      have narrow : isWide first = false := by simpa using narrow
      cases first with
      | some type =>
          rw [upToLast_cons_some, upToLast_cons_some, cells_cons_narrow _ narrow, ih]
      | none =>
          rw [upToLast_cons_none, upToLast_cons_none, ← ih]
          by_cases unused : upToLast (second :: rest) = []
          · simp [unused, cells]
          · simp only [unused, cells_eq_nil_iff, if_false]
            exact cells_cons_narrow _ narrow

def Packed (cells : List (Option VerificationType)) (values : List VerificationType) : Prop :=
  ∃ unused, cells = values.map some ++ List.replicate unused none

theorem packed_cons {cells : List (Option VerificationType)} {values : List VerificationType}
    (type : VerificationType) (packed : Packed cells values) :
    Packed (some type :: cells) (type :: values) := by
  obtain ⟨unused, rfl⟩ := packed
  exact ⟨unused, rfl⟩

theorem packed_of_countP_eq_zero {cells : List (Option VerificationType)}
    (none : cells.countP Option.isSome = 0) : Packed cells [] := by
  refine ⟨cells.length, ?_⟩
  rw [List.countP_eq_zero] at none
  refine List.eq_replicate_iff.mpr ⟨rfl, ?_⟩
  intro cell member
  simpa using none cell member

theorem packed_of_startsWithValues {cells : List (Option VerificationType)} {number : Nat}
    (counted : cells.countP Option.isSome = number)
    (starts : startsWithValues cells number = true) :
    ∃ values, Packed cells values ∧ values.length = number := by
  induction number generalizing cells with
  | zero => exact ⟨[], packed_of_countP_eq_zero counted, rfl⟩
  | succ number ih =>
      match cells, counted, starts with
      | [], counted, _ => simp at counted
      | none :: _, _, starts => simp [startsWithValues] at starts
      | some type :: rest, counted, starts =>
          have restCounted : rest.countP Option.isSome = number := by simpa using counted
          have restStarts : startsWithValues rest number = true := by
            simpa [startsWithValues] using starts
          obtain ⟨values, packed, length⟩ := ih restCounted restStarts
          exact ⟨type :: values, packed_cons type packed, by simp [length]⟩

theorem exists_of_packed_cons {cells : List (Option VerificationType)}
    {values : List VerificationType} {type : VerificationType}
    (packed : Packed cells (type :: values)) :
    ∃ rest, cells = some type :: rest ∧ Packed rest values := by
  obtain ⟨unused, rfl⟩ := packed
  exact ⟨_, rfl, unused, rfl⟩

theorem startsWithValues_of_packed {cells : List (Option VerificationType)}
    {values : List VerificationType} (packed : Packed cells values) :
    startsWithValues cells values.length = true := by
  obtain ⟨unused, rfl⟩ := packed
  simp [startsWithValues]

theorem countP_of_packed {cells : List (Option VerificationType)} {values : List VerificationType}
    (packed : Packed cells values) : cells.countP Option.isSome = values.length := by
  obtain ⟨unused, rfl⟩ := packed
  simp [List.countP_replicate, Function.comp_def]

theorem upToLast_of_packed {cells : List (Option VerificationType)}
    {values : List VerificationType} (packed : Packed cells values) :
    upToLast cells = values.map some := by
  obtain ⟨unused, rfl⟩ := packed
  induction values with
  | nil => simp [upToLast]
  | cons type values ih => simp only [List.map_cons, List.cons_append, upToLast_cons_some, ih]

theorem entries_of_packed {locals : Locals} {values : List VerificationType}
    (packed : Packed locals.cells values) : locals.entries = values := by
  rw [entries, cells_upToLast, upToLast_of_packed packed]
  simp [Function.comp_def]

end JvmFrames.Locals
