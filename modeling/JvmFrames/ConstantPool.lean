import JvmFrames.Bytes
import JvmFrames.ModifiedUtf8
import JvmFrames.Name
import Std.Data.HashMap

/-!
The constant pool: a list of distinct constants, numbered from one, that only ever grows at its
end. A map from constants to their numbers answers what searching the list would answer.
-/

namespace JvmFrames

inductive Constant where
  | utf8 (text : String)
  | classRef (nameIndex : UInt16)
  deriving DecidableEq, Hashable, Repr

structure PoolFull where
  constant : Constant
  deriving DecidableEq, Repr

namespace ConstantPool

def position (constants : List Constant) (constant : Constant) : Option UInt16 :=
  (constants.idxOf? constant).map fun before => UInt16.ofNat (before + 1)

theorem position_append_singleton (constants : List Constant) (added constant : Constant)
    (absent : position constants added = none) :
    position (constants ++ [added]) constant =
      if added = constant then some (UInt16.ofNat (constants.length + 1))
      else position constants constant := by
  have missing : added ∉ constants := by
    simpa [position, List.idxOf?_eq_none_iff] using absent
  unfold position List.idxOf?
  rw [List.findIdx?_append]
  by_cases same : added = constant
  · subst same
    have none : constants.findIdx? (fun x => x == added) = none :=
      List.idxOf?_eq_none_iff.mpr missing
    simp [none, List.findIdx?_cons]
  · simp [same, List.findIdx?_cons]

end ConstantPool

structure ConstantPool where
  constants : Array Constant
  numbers : Std.HashMap Constant UInt16
  numbers_eq : ∀ constant : Constant,
    numbers[constant]? = ConstantPool.position constants.toList constant

abbrev PoolM := ExceptT PoolFull (StateM ConstantPool)

namespace ConstantPool

def empty : ConstantPool where
  constants := #[]
  numbers := ∅
  numbers_eq := by simp [position]

instance : Inhabited ConstantPool := ⟨empty⟩

def toList (pool : ConstantPool) : List Constant :=
  pool.constants.toList

def size (pool : ConstantPool) : Nat :=
  pool.constants.size

def get? (pool : ConstantPool) (number : UInt16) : Option Constant :=
  if number = 0 then none else pool.constants[number.toNat - 1]?

def push (pool : ConstantPool) (constant : Constant) (absent : pool.numbers[constant]? = none) :
    ConstantPool :=
  let next := UInt16.ofNat (pool.size + 1)
  { constants := pool.constants.push constant
    numbers := pool.numbers.insert constant next
    numbers_eq := by
      intro other
      rw [pool.numbers_eq] at absent
      rw [Array.toList_push, position_append_singleton _ _ _ absent, Std.HashMap.getElem?_insert,
        pool.numbers_eq]
      simp [next, size] }

def number (constant : Constant) : PoolM UInt16 := fun pool =>
  match absent : pool.numbers[constant]? with
  | some number => (.ok number, pool)
  | none =>
    if pool.size + 1 < 65535 then
      (.ok (UInt16.ofNat (pool.size + 1)), pool.push constant absent)
    else
      (.error ⟨constant⟩, pool)

theorem run_number_present {pool : ConstantPool} {constant : Constant} {known : UInt16}
    (present : position pool.toList constant = some known) :
    (number constant).run.run pool = (.ok known, pool) := by
  have stored : pool.numbers[constant]? = some known := (pool.numbers_eq constant).trans present
  change number constant pool = (.ok known, pool)
  unfold number
  split
  · rename_i found same
    rw [stored, Option.some.injEq] at same
    rw [same]
  · rename_i missing
    rw [stored] at missing
    contradiction

/-- A missing constant goes to the end of the list, if there is room for it. -/
theorem run_number_absent {pool : ConstantPool} {constant : Constant}
    (absent : position pool.toList constant = none) (room : pool.size + 1 < 65535) :
    ∃ grown : ConstantPool,
      (number constant).run.run pool = (.ok (UInt16.ofNat (pool.size + 1)), grown) ∧
        grown.toList = pool.toList ++ [constant] := by
  have missing : pool.numbers[constant]? = none := (pool.numbers_eq constant).trans absent
  refine ⟨pool.push constant missing, ?_, Array.toList_push⟩
  change number constant pool = _
  unfold number
  split
  · rename_i found same
    rw [missing] at same
    contradiction
  · exact if_pos room

theorem run_number_full {pool : ConstantPool} {constant : Constant}
    (absent : position pool.toList constant = none) (full : ¬pool.size + 1 < 65535) :
    (number constant).run.run pool = (.error ⟨constant⟩, pool) := by
  have missing : pool.numbers[constant]? = none := (pool.numbers_eq constant).trans absent
  change number constant pool = _
  unfold number
  split
  · rename_i found same
    rw [missing] at same
    contradiction
  · exact if_neg full

def utf8 (text : String) : PoolM UInt16 :=
  number (.utf8 text)

def classOf (name : BinaryName) : PoolM UInt16 := do
  let nameIndex ← utf8 name.text
  number (.classRef nameIndex)

def writeConstant : Constant → Written
  | .utf8 text =>
    Written.andThen ⟨[1], none⟩
      (Written.counted (fun byte => ⟨[byte], none⟩) (ModifiedUtf8.encode text.toList))
  | .classRef nameIndex => ⟨7 :: wordBytes nameIndex, none⟩

def write (pool : ConstantPool) : Written :=
  Written.andThen ⟨wordBytes (UInt16.ofNat (pool.size + 1)), none⟩
    (Written.sequence writeConstant pool.toList)

end ConstantPool

end JvmFrames
