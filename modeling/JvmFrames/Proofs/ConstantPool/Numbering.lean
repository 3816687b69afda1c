import JvmFrames.Computation
import JvmFrames.ConstantPool

/-!
The numbers of constants. A pool that can be made holds no constant twice and has a number for each
of them, which later additions do not change.
-/

namespace JvmFrames.ConstantPool

def missing (known wanted : List Constant) : List Constant :=
  (wanted.removeAll known).eraseDups

theorem missing_nil (known : List Constant) : missing known [] = [] := rfl

theorem missing_of_mem {known : List Constant} {constant : Constant} (member : constant ∈ known) :
    missing known [constant] = [] := by
  simp [missing, List.removeAll, member]

theorem missing_of_notMem {known : List Constant} {constant : Constant}
    (absent : constant ∉ known) : missing known [constant] = [constant] := by
  simp [missing, List.removeAll, absent, List.eraseDups_cons]

theorem missing_append (known wanted others : List Constant) :
    missing known (wanted ++ others) =
      missing known wanted ++ missing (known ++ missing known wanted) others := by
  have split : (wanted ++ others).removeAll known =
      wanted.removeAll known ++ others.removeAll known := List.filter_append ..
  have rest : (others.removeAll known).removeAll (wanted.removeAll known) =
      others.removeAll (known ++ missing known wanted) := by
    simp only [List.removeAll, List.filter_filter]
    refine List.filter_congr fun constant _ => ?_
    simp [missing, List.removeAll, Bool.and_comm]
  rw [missing, split, List.eraseDups_append, rest]
  rfl

theorem subset_of_added {known wanted constants : List Constant}
    (added : constants = known ++ missing known wanted) : wanted ⊆ constants := by
  intro constant member
  rw [added]
  by_cases present : constant ∈ known
  · exact List.mem_append_left _ present
  · refine List.mem_append_right _ (List.mem_eraseDups.mpr ?_)
    simpa [List.removeAll] using ⟨member, present⟩

def index (constants : List Constant) (constant : Constant) : UInt16 :=
  (position constants constant).getD 0

theorem position_eq_none_iff {constants : List Constant} {constant : Constant} :
    position constants constant = none ↔ constant ∉ constants := by
  rw [position, Option.map_eq_none_iff, List.idxOf?_eq_none_iff]

theorem position_of_mem {constants : List Constant} {constant : Constant}
    (member : constant ∈ constants) :
    position constants constant = some (index constants constant) := by
  cases found : position constants constant with
  | none => exact absurd member (position_eq_none_iff.mp found)
  | some number => rw [index, found, Option.getD_some]

theorem index_append_of_mem {known : List Constant} {constant : Constant}
    (member : constant ∈ known) (more : List Constant) :
    index (known ++ more) constant = index known constant := by
  have found : List.idxOf? constant (known ++ more) = List.idxOf? constant known := by
    cases first : List.idxOf? constant known with
    | none => exact absurd member (List.idxOf?_eq_none_iff.mp first)
    | some before =>
        rw [List.idxOf?] at first ⊢
        rw [List.findIdx?_append, first]
        rfl
  rw [index, index, position, position, found]

theorem index_of_append_singleton {known : List Constant} {constant : Constant}
    (absent : constant ∉ known) :
    index (known ++ [constant]) constant = UInt16.ofNat (known.length + 1) := by
  rw [index, position_append_singleton _ _ _ (position_eq_none_iff.mpr absent), if_pos rfl]
  rfl

structure Numbered (pool : ConstantPool) : Prop where
  distinct : pool.toList.Nodup
  bounded : pool.size < 65535

theorem get?_eq (pool : ConstantPool) (number : UInt16) :
    pool.get? number = if number = 0 then none else pool.toList[number.toNat - 1]? := by
  rw [get?, toList, Array.getElem?_toList]

theorem get?_of_prefix {pool after : ConstantPool} (grown : pool.toList <+: after.toList)
    {number : UInt16} {constant : Constant} (found : pool.get? number = some constant) :
    after.get? number = some constant := by
  rw [get?_eq] at found ⊢
  split at found
  · contradiction
  · rename_i positive
    obtain ⟨inside, here⟩ := List.getElem?_eq_some_iff.mp found
    rw [if_neg positive, List.prefix_iff_getElem?.mp grown _ inside, here]

theorem Numbered.get?_index {pool : ConstantPool} (numbered : pool.Numbered) {constant : Constant}
    (member : constant ∈ pool.toList) :
    pool.get? (index pool.toList constant) = some constant := by
  obtain ⟨before, found⟩ : ∃ before, List.idxOf? constant pool.toList = some before := by
    cases found : List.idxOf? constant pool.toList with
    | none => exact absurd member (List.idxOf?_eq_none_iff.mp found)
    | some before => exact ⟨before, rfl⟩
  obtain ⟨inside, here, _⟩ := List.idxOf?_eq_some_iff.mp found
  have bounded : pool.toList.length < 65535 := numbered.bounded
  have number : (index pool.toList constant).toNat = before + 1 := by
    rw [index, position, found, Option.map_some, Option.getD_some, UInt16.toNat_ofNat']
    omega
  have positive : index pool.toList constant ≠ 0 := by
    intro zero
    rw [zero] at number
    contradiction
  rw [get?_eq, if_neg positive, number, Nat.add_sub_cancel, List.getElem?_eq_getElem inside, here]

theorem Numbered.index_inj {pool : ConstantPool} (numbered : pool.Numbered)
    {constant other : Constant} (member : constant ∈ pool.toList)
    (otherMember : other ∈ pool.toList) :
    index pool.toList constant = index pool.toList other ↔ constant = other := by
  constructor
  · intro same
    have found := numbered.get?_index member
    rw [same, numbered.get?_index otherMember] at found
    exact (Option.some.inj found).symm
  · rintro rfl
    rfl

end JvmFrames.ConstantPool
