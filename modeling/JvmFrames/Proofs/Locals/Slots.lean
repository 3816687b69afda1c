import JvmFrames.Proofs.Locals.Cells

/-!
The slots in use: in well-formed locals there is one for each value, and cutting the locals there
cuts their cells in front of that value. So counting values from the end finds the slot behind which
as many are left.
-/

namespace JvmFrames.Locals

theorem slotsInUse_map_succ (slot : Nat) (locals : Locals) :
    slotsInUse (slot + 1) locals = (slotsInUse slot locals).map (· + 1) := by
  induction locals generalizing slot with
  | nil => rfl
  | cons first rest ih => cases first <;> simp [slotsInUse, ih]

theorem slotsInUse_cons_some (type : VerificationType) (rest : Locals) :
    slotsInUse 0 (some type :: rest) = 0 :: (slotsInUse 0 rest).map (· + 1) := by
  rw [slotsInUse, slotsInUse_map_succ]

theorem slotsInUse_cons_none (rest : Locals) :
    slotsInUse 0 (none :: rest) = (slotsInUse 0 rest).map (· + 1) := by
  rw [slotsInUse, slotsInUse_map_succ]

theorem length_slotsInUse (locals : Locals) :
    (slotsInUse 0 locals).length = locals.countP Option.isSome := by
  induction locals with
  | nil => rfl
  | cons first rest ih =>
      cases first with
      | none => simp [slotsInUse_cons_none, ih]
      | some type => simp [slotsInUse_cons_some, ih]

/-- Behind so many slots in use comes the slot of a value that has so many values before it. -/
theorem getElem?_slotsInUse_iff {locals : Locals} {number slot : Nat} :
    (slotsInUse 0 locals)[number]? = some slot ↔
      (∃ type, locals[slot]? = some (some type)) ∧
        (locals.take slot).countP Option.isSome = number := by
  induction locals generalizing number slot with
  | nil => simp [slotsInUse]
  | cons first rest ih =>
      cases first with
      | none =>
          rw [slotsInUse_cons_none, List.getElem?_map, Option.map_eq_some_iff]
          cases slot with
          | zero => simp
          | succ slot => simp [ih]
      | some type =>
          rw [slotsInUse_cons_some]
          cases number with
          | zero => cases slot <;> simp
          | succ number =>
              rw [List.getElem?_cons_succ, List.getElem?_map, Option.map_eq_some_iff]
              cases slot with
              | zero => simp
              | succ slot => simp [ih]

/-- Skipping the slot behind each wide value passes over no value. -/
theorem count_eq_countP {locals : Locals} (wellFormed : locals.WellFormed) :
    locals.count = locals.countP Option.isSome := by
  unfold count
  induction wellFormed using WellFormed.induction with
  | nil => rfl
  | unused rest _ _ same =>
      rw [cells_cons_narrow rest rfl, List.countP_cons, List.countP_cons, same]
  | narrow type rest _ _ narrow same =>
      rw [cells_cons_narrow rest (by exact narrow), List.countP_cons, List.countP_cons, same]
  | wide type rest _ _ wide same =>
      rw [cells_cons_wide none rest (by exact wide), List.countP_cons, List.countP_cons,
        List.countP_cons, same]
      rfl

theorem WellFormed.drop {locals : Locals} (wellFormed : locals.WellFormed) (number : Nat) :
    WellFormed (locals.drop number) := by
  intro slot type found wide
  rw [List.getElem?_drop] at found ⊢
  exact wellFormed (number + slot) type found wide

theorem WellFormed.take {locals : Locals} (wellFormed : locals.WellFormed) {cut : Nat}
    {type : VerificationType} (found : locals[cut]? = some (some type)) :
    WellFormed (locals.take cut) := by
  intro slot stored before wide
  rw [List.getElem?_take] at before
  split at before
  · rename_i below
    have hole := wellFormed slot stored before wide
    -- The cut is at a value, so it does not part a wide value from its hole.
    have apart : slot + 1 ≠ cut := by
      rintro rfl
      rw [hole] at found
      simp at found
    rwa [List.getElem?_take_of_lt (by omega)]
  · contradiction

theorem countP_take_add_count_drop {locals : Locals} (wellFormed : locals.WellFormed) (cut : Nat) :
    (locals.take cut).countP Option.isSome + count (locals.drop cut) =
      locals.countP Option.isSome := by
  rw [count_eq_countP (wellFormed.drop cut), ← List.countP_append, List.take_append_drop]

theorem count_take_add_count_drop {locals : Locals} (wellFormed : locals.WellFormed) {cut : Nat}
    {type : VerificationType} (found : locals[cut]? = some (some type)) :
    count (locals.take cut) + count (locals.drop cut) = locals.count := by
  rw [count_eq_countP (wellFormed.take found), count_eq_countP wellFormed,
    countP_take_add_count_drop wellFormed]

theorem count_drop_pos {locals : Locals} (wellFormed : locals.WellFormed) {cut : Nat}
    {type : VerificationType} (found : locals[cut]? = some (some type)) :
    0 < count (locals.drop cut) := by
  rw [count_eq_countP (wellFormed.drop cut), List.countP_pos_iff]
  refine ⟨some type, ?_, rfl⟩
  exact List.mem_of_getElem? (i := 0) (by rwa [List.getElem?_drop])

theorem slotFromEnd?_eq {locals : Locals} {number : Nat} (positive : 0 < number)
    (enough : number ≤ locals.countP Option.isSome) :
    locals.slotFromEnd? number =
      (slotsInUse 0 locals)[locals.countP Option.isSome - number]? := by
  have length := length_slotsInUse locals
  rw [slotFromEnd?, if_neg (by omega), List.getElem?_reverse (by omega), length]
  congr 1
  omega

theorem isSome_slotFromEnd?_iff {locals : Locals} (wellFormed : locals.WellFormed) {number : Nat} :
    (locals.slotFromEnd? number).isSome = true ↔ 1 ≤ number ∧ number ≤ locals.count := by
  rw [count_eq_countP wellFormed, ← length_slotsInUse, slotFromEnd?]
  split
  · simp_all
  · rw [isSome_getElem?, List.length_reverse]
    omega

/-- Counted from the end, a value is found in the slot from which on there are so many. -/
theorem slotFromEnd?_eq_some_iff {locals : Locals} (wellFormed : locals.WellFormed)
    {number slot : Nat} :
    locals.slotFromEnd? number = some slot ↔
      (∃ type, locals[slot]? = some (some type)) ∧ count (locals.drop slot) = number := by
  have total := countP_take_add_count_drop wellFormed slot
  constructor
  · intro found
    obtain ⟨positive, enough⟩ :=
      (isSome_slotFromEnd?_iff wellFormed).mp (Option.isSome_of_eq_some found)
    rw [count_eq_countP wellFormed] at enough
    rw [slotFromEnd?_eq positive enough, getElem?_slotsInUse_iff] at found
    exact ⟨found.1, by omega⟩
  · rintro ⟨⟨type, held⟩, behind⟩
    have positive := count_drop_pos wellFormed held
    rw [slotFromEnd?_eq (by omega) (by omega), getElem?_slotsInUse_iff]
    exact ⟨⟨type, held⟩, by omega⟩

theorem cells_take_append_cells_drop {locals : Locals} (wellFormed : locals.WellFormed) {cut : Nat}
    {type : VerificationType} (found : locals[cut]? = some (some type)) :
    cells (locals.take cut) ++ cells (locals.drop cut) = locals.cells := by
  induction wellFormed using WellFormed.induction generalizing cut with
  | nil => simp at found
  | unused rest _ _ ih =>
      cases cut with
      | zero => rfl
      | succ cut =>
          rw [List.take_succ_cons, List.drop_succ_cons, cells_cons_narrow _ rfl,
            cells_cons_narrow rest rfl, List.cons_append, ih found]
  | narrow first rest _ _ narrow ih =>
      cases cut with
      | zero => rfl
      | succ cut =>
          rw [List.take_succ_cons, List.drop_succ_cons, cells_cons_narrow _ (by exact narrow),
            cells_cons_narrow rest (by exact narrow), List.cons_append, ih found]
  | wide first rest _ _ wide ih =>
      rcases cut with _ | _ | cut
      · rfl
      · simp at found
      · simp only [List.take_succ_cons, List.drop_succ_cons]
        rw [cells_cons_wide none _ (by exact wide), cells_cons_wide none rest (by exact wide),
          List.cons_append, ih found]

theorem packed_of_append {before after : List (Option VerificationType)}
    {values : List VerificationType} (packed : Packed (before ++ after) values)
    (inside : before.countP Option.isSome < values.length) :
    Packed after (values.drop (before.countP Option.isSome)) := by
  induction before generalizing values with
  | nil => simpa using packed
  | cons cell before ih =>
      obtain ⟨unused, split⟩ := packed
      cases values with
      | nil => simp at inside
      | cons type values =>
          simp only [List.cons_append, List.map_cons, List.cons.injEq] at split
          obtain ⟨rfl, split⟩ := split
          simp only [List.countP_cons, Option.isSome_some, if_true, List.length_cons] at inside ⊢
          exact ih ⟨unused, split⟩ (by omega)

/-- Where locals are cut to append their last values, the entries behind the cut are those. -/
theorem entries_drop_slotFromEnd? {locals : Locals} {values : List VerificationType} {number : Nat}
    (wellFormed : locals.WellFormed) (packed : Packed locals.cells values) (positive : 0 < number)
    (enough : number ≤ values.length) :
    ∃ slot, locals.slotFromEnd? number = some slot ∧
      entries (locals.drop slot) = values.drop (values.length - number) := by
  have counted : locals.count = values.length := countP_of_packed packed
  obtain ⟨slot, found⟩ := Option.isSome_iff_exists.mp
    ((isSome_slotFromEnd?_iff wellFormed).mpr ⟨positive, counted ▸ enough⟩)
  obtain ⟨⟨type, held⟩, behind⟩ := (slotFromEnd?_eq_some_iff wellFormed).mp found
  have before : count (locals.take slot) = values.length - number := by
    have total := count_take_add_count_drop wellFormed held
    omega
  refine ⟨slot, found, ?_⟩
  rw [← cells_take_append_cells_drop wellFormed held] at packed
  rw [← before]
  exact entries_of_packed (packed_of_append packed (by unfold count at before; omega))

end JvmFrames.Locals
