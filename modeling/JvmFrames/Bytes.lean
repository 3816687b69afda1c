/-!
Binary output that may stop early. A `Written` value keeps the bytes that were put out together
with the reason for stopping, so a refused item can be seen to have put out nothing.
-/

namespace JvmFrames

inductive EncodeFault where
  | tooLong (length : Nat)
  | chopCount
  | appendCount
  deriving DecidableEq, Repr

def EncodeFault.message : EncodeFault → String
  | .tooLong length => s!"sequence of length {length} does not fit a u16 length"
  | .chopCount => "chop frames remove 1-3 locals"
  | .appendCount => "append frames add 1-3 locals"

structure Written where
  bytes : List UInt8
  fault : Option EncodeFault := none
  deriving DecidableEq, Repr

namespace Written

def fail (fault : EncodeFault) : Written :=
  ⟨[], some fault⟩

def andThen (first second : Written) : Written :=
  match first.fault with
  | some _ => first
  | none => ⟨first.bytes ++ second.bytes, second.fault⟩

def sequence {α : Type} (write : α → Written) (items : List α) : Written :=
  items.foldr (fun item rest => (write item).andThen rest) ⟨[], none⟩

@[simp] theorem andThen_of_bytes (bytes : List UInt8) (second : Written) :
    andThen ⟨bytes, none⟩ second = ⟨bytes ++ second.bytes, second.fault⟩ := rfl

@[simp] theorem sequence_nil {α : Type} (write : α → Written) :
    sequence write [] = ⟨[], none⟩ := rfl

@[simp] theorem sequence_cons {α : Type} (write : α → Written) (item : α) (items : List α) :
    sequence write (item :: items) = (write item).andThen (sequence write items) := rfl

def result (written : Written) : Except EncodeFault (List UInt8) :=
  match written.fault with
  | some fault => .error fault
  | none => .ok written.bytes

end Written

def wordBytes (word : UInt16) : List UInt8 :=
  [(word >>> 8).toUInt8, word.toUInt8]

def Written.counted {α : Type} (write : α → Written) (items : List α) : Written :=
  if items.length < 65536 then
    Written.andThen ⟨wordBytes (UInt16.ofNat items.length), none⟩ (Written.sequence write items)
  else
    Written.fail (.tooLong items.length)

end JvmFrames
