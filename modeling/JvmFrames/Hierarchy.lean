import JvmFrames.Descriptor.Length

/-!
A hierarchy of classes and interfaces, and the most specific superclass that two reference types
share. A class keeps the names of all its superclasses, nearest first, as they were when it was
made; the first class added under a name stays.
-/

namespace JvmFrames

structure AccessFlags where
  isPublic : Bool := false
  isFinal : Bool := false
  isSuper : Bool := false
  isInterface : Bool := false
  isAbstract : Bool := false
  deriving DecidableEq, Repr

namespace AccessFlags

def ofBits (bits : UInt16) : AccessFlags where
  isPublic := bits &&& 0x0001 ≠ 0
  isFinal := bits &&& 0x0010 ≠ 0
  isSuper := bits &&& 0x0020 ≠ 0
  isInterface := bits &&& 0x0200 ≠ 0
  isAbstract := bits &&& 0x0400 ≠ 0

def listed (flags : AccessFlags) : List (UInt16 × String) :=
  (if flags.isPublic then [(0x0001, "PUBLIC")] else [])
    ++ (if flags.isFinal then [(0x0010, "FINAL")] else [])
    ++ (if flags.isSuper then [(0x0020, "SUPER")] else [])
    ++ (if flags.isInterface then [(0x0200, "INTERFACE")] else [])
    ++ (if flags.isAbstract then [(0x0400, "ABSTRACT")] else [])

def bits (flags : AccessFlags) : UInt16 :=
  flags.listed.foldl (fun bits flag => bits ||| flag.1) 0

def render (flags : AccessFlags) : String :=
  if flags.listed.isEmpty then "(empty)" else " | ".intercalate (flags.listed.map (·.2))

def ofClass : AccessFlags := { isPublic := true, isSuper := true }

def ofInterface : AccessFlags := { isPublic := true, isInterface := true, isAbstract := true }

end AccessFlags

structure ClassEntry where
  name : BinaryName
  ancestors : List BinaryName
  flags : AccessFlags
  deriving DecidableEq, Repr

namespace ClassEntry

def make (name : BinaryName) (superclass : Option ClassEntry) (flags : AccessFlags) : ClassEntry :=
  match superclass with
  | none => ⟨name, [], flags⟩
  | some parent => ⟨name, parent.name :: parent.ancestors, flags⟩

def chain (entry : ClassEntry) : List BinaryName :=
  entry.name :: entry.ancestors

def superclass? (entry : ClassEntry) : Option BinaryName :=
  entry.ancestors.head?

def isInterface (entry : ClassEntry) : Bool :=
  entry.flags.isInterface

def renderSuperclass : Option BinaryName → String
  | none => "None"
  | some name => "Some(" ++ name.text ++ ")"

def render (entry : ClassEntry) : String :=
  "ClassData \x7b name: " ++ entry.name.text ++ ", superclass: "
    ++ renderSuperclass entry.superclass? ++ ", access_flags: " ++ entry.flags.render ++ " \x7d"

end ClassEntry

structure Hierarchy where
  classes : List ClassEntry
  deriving DecidableEq, Repr

namespace Hierarchy

def empty : Hierarchy := ⟨[]⟩

def lookup (hierarchy : Hierarchy) (name : BinaryName) : Option ClassEntry :=
  hierarchy.classes.find? fun entry => entry.name = name

def insert (hierarchy : Hierarchy) (entry : ClassEntry) : Hierarchy :=
  if (hierarchy.lookup entry.name).isSome then hierarchy else ⟨hierarchy.classes ++ [entry]⟩

theorem lookup_insert (hierarchy : Hierarchy) (entry : ClassEntry) (name : BinaryName) :
    (hierarchy.insert entry).lookup name =
      (hierarchy.lookup name).or (if entry.name = name then some entry else none) := by
  unfold insert
  split
  · rename_i taken
    by_cases same : entry.name = name
    · subst same
      obtain ⟨existing, found⟩ := Option.isSome_iff_exists.mp taken
      simp [found]
    · simp [same]
  · unfold lookup
    rw [List.find?_append]
    by_cases same : entry.name = name <;> simp [same]

def commonClass? (hierarchy : Hierarchy) (left right : BinaryName) : Option BinaryName :=
  match hierarchy.lookup left, hierarchy.lookup right with
  | some leftEntry, some rightEntry =>
    if leftEntry.isInterface || rightEntry.isInterface then
      some .object
    else
      rightEntry.chain.find? fun name => leftEntry.chain.contains name
  | _, _ => none

/-- The most specific superclass known of two reference types. Arrays of references share the array
of what their elements share; an array and anything else share the root. -/
def commonSuperclass? (hierarchy : Hierarchy) (left right : BinaryName) : Option BinaryName :=
  if left = right then
    some left
  else
    match _ : left.elementType?, right.elementType? with
    | some (.reference leftElement), some (.reference rightElement) =>
      let element := (hierarchy.commonSuperclass? leftElement rightElement).getD .object
      some ⟨"[" ++ (FieldType.reference element).render⟩
    | none, none => hierarchy.commonClass? left right
    | _, _ => some .object
termination_by left.text.length
decreasing_by exact BinaryName.elementType?_text_length (by assumption)

end Hierarchy

end JvmFrames
