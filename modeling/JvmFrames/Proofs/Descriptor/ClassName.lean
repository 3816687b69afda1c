import JvmFrames.Descriptor.Reader

/-!
Class names by the class file format: segments with slashes between them. The check of the segments
of a text accepts exactly these names.
-/

namespace JvmFrames.BinaryName

structure IsSegment (segment : List Char) : Prop where
  nonempty : segment ≠ []
  plain : ∀ character ∈ segment, character ∉ ['/', '.', ';', '[']

def IsClassName (text : List Char) : Prop :=
  ∃ segments, segments ≠ [] ∧ (∀ segment ∈ segments, IsSegment segment) ∧
    text = ['/'].intercalate segments

theorem mem_intercalate_slash {character : Char} {segments : List (List Char)}
    (member : character ∈ ['/'].intercalate segments) :
    character = '/' ∨ ∃ segment ∈ segments, character ∈ segment := by
  induction segments with
  | nil => simp at member
  | cons first rest ih =>
      cases rest with
      | nil => exact .inr ⟨first, List.mem_singleton_self first, by simpa using member⟩
      | cons second rest =>
          rw [List.intercalate_cons_cons, List.append_assoc, List.mem_append,
            List.mem_append, List.mem_singleton] at member
          rcases member with inside | slash | later
          · exact .inr ⟨first, List.mem_cons_self, inside⟩
          · exact .inl slash
          · rcases ih later with slash | ⟨segment, segmentMember, inside⟩
            · exact .inl slash
            · exact .inr ⟨segment, List.mem_cons_of_mem _ segmentMember, inside⟩

theorem IsClassName.plain {text : List Char} (isName : IsClassName text) {character : Char}
    (member : character ∈ text) : character ∉ ['.', ';', '['] := by
  obtain ⟨segments, _, areSegments, rfl⟩ := isName
  rcases mem_intercalate_slash member with rfl | ⟨segment, segmentMember, inside⟩
  · decide
  · have isSegment := areSegments segment segmentMember
    exact fun special => isSegment.plain character inside (List.mem_cons_of_mem _ special)

theorem IsClassName.head?_ne {text : List Char} (isName : IsClassName text) :
    text.head? ≠ some '[' := by
  intro starts
  exact isName.plain (List.mem_of_mem_head? starts) (by decide)

theorem IsClassName.ne_nil {text : List Char} (isName : IsClassName text) : text ≠ [] := by
  obtain ⟨segments, nonempty, areSegments, rfl⟩ := isName
  cases segments with
  | nil => exact absurd rfl nonempty
  | cons first rest =>
      have present := (areSegments first List.mem_cons_self).nonempty
      cases rest with
      | nil => simpa using present
      | cons second rest => simp [List.intercalate_cons_cons]

theorem checkSegment_eq_ok_iff {segment : List Char} (noSlash : '/' ∉ segment) :
    checkSegment segment = .ok () ↔ IsSegment segment := by
  have legal : (segment.any fun character =>
      character = '.' || character = ';' || character = '[') = false ↔
        ∀ character ∈ segment, character ∉ ['/', '.', ';', '['] := by
    rw [List.any_eq_false]
    refine forall₂_congr fun character member => ?_
    have noSlash : character ≠ '/' := fun same => noSlash (same ▸ member)
    simp [noSlash, and_assoc]
  unfold checkSegment
  split
  · rename_i illegal
    simp only [reduceCtorEq, false_iff]
    intro isSegment
    rw [legal.mpr isSegment.plain] at illegal
    contradiction
  · rename_i noneIllegal
    have plain := legal.mp (Bool.not_eq_true _ ▸ noneIllegal)
    split
    · rename_i empty
      simp only [reduceCtorEq, false_iff]
      intro isSegment
      exact isSegment.nonempty (List.isEmpty_iff.mp empty)
    · rename_i present
      simp only [true_iff]
      exact ⟨fun empty => present (List.isEmpty_iff.mpr empty), plain⟩

theorem checkSegments_eq_ok_iff {segments : List (List Char)} :
    checkSegments segments = .ok () ↔ ∀ segment ∈ segments, checkSegment segment = .ok () := by
  induction segments with
  | nil => simp [checkSegments]
  | cons first rest ih =>
      rw [checkSegments, List.forall_mem_cons, ← ih]
      cases checkSegment first <;> simp

theorem slash_notMem_of_mem_splitOn {text segment : List Char}
    (member : segment ∈ text.splitOn '/') : '/' ∉ segment := by
  rw [List.splitOn_eq_splitOnP] at member
  induction text generalizing segment with
  | nil =>
      obtain rfl : segment = [] := by simpa using member
      exact List.not_mem_nil
  | cons first rest ih =>
      rw [List.splitOnP_cons_eq_if_modifyHead] at member
      split at member
      · rcases List.mem_cons.mp member with rfl | later
        · exact List.not_mem_nil
        · exact ih later
      · rename_i noSlash
        -- The first segment of the rest goes on with one more character in front.
        obtain ⟨head, others, split⟩ :=
          List.exists_cons_of_ne_nil (List.splitOnP_ne_nil (· == '/') rest)
        rw [split] at member ih
        rcases List.mem_cons.mp member with rfl | later
        · rw [List.mem_cons, not_or]
          exact ⟨fun same => noSlash (by simp [← same]), ih List.mem_cons_self⟩
        · exact ih (List.mem_cons_of_mem _ later)

theorem checkSegments_splitOn_iff {text : List Char} :
    checkSegments (text.splitOn '/') = .ok () ↔ IsClassName text := by
  rw [checkSegments_eq_ok_iff]
  constructor
  · intro accepted
    refine ⟨text.splitOn '/', ?_, ?_, (List.intercalate_splitOn '/').symm⟩
    · rw [List.splitOn_eq_splitOnP]
      exact List.splitOnP_ne_nil _ _
    · intro segment member
      have noSlash := slash_notMem_of_mem_splitOn member
      exact (checkSegment_eq_ok_iff noSlash).mp (accepted segment member)
  · rintro ⟨segments, nonempty, areSegments, rfl⟩ segment member
    have noSlash : ∀ segment ∈ segments, '/' ∉ segment := by
      intro segment member slash
      exact (areSegments segment member).plain '/' slash List.mem_cons_self
    rw [List.splitOn_intercalate '/' noSlash nonempty] at member
    exact (checkSegment_eq_ok_iff (noSlash segment member)).mpr (areSegments segment member)

end JvmFrames.BinaryName
