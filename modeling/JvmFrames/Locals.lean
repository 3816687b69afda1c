import JvmFrames.VerificationType
import JvmFrames.Locals.Change

/-!
The local variables of a frame, by slot. A wide value is followed by an empty slot, its hole; any
other empty slot is unused. Most questions are about the cells of such a list: its values and unused
slots without the slot behind each wide value.
-/

namespace JvmFrames

abbrev Locals := List (Option VerificationType)

namespace Locals

def isWide : Option VerificationType → Bool
  | some type => type.isWide
  | none => false

def WellFormed (locals : Locals) : Prop :=
  ∀ (slot : Nat) (type : VerificationType),
    locals[slot]? = some (some type) → type.isWide = true → locals[slot + 1]? = some none

theorem wellFormed_nil : WellFormed [] := by
  intro slot type found
  simp at found

theorem wellFormed_cons {first : Option VerificationType} {rest : Locals} :
    WellFormed (first :: rest) ↔
      (isWide first = true → rest.head? = some none) ∧ WellFormed rest := by
  constructor
  · intro wellFormed
    constructor
    · intro wide
      cases first with
      | none => simp [isWide] at wide
      | some type =>
        have hole := wellFormed 0 type rfl wide
        simpa [List.head?_eq_getElem?] using hole
    · intro slot type found wide
      simpa using wellFormed (slot + 1) type (by simpa using found) wide
  · rintro ⟨hole, wellFormed⟩ slot type found wide
    cases slot with
    | zero =>
      simp only [List.getElem?_cons_zero, Option.some.injEq] at found
      subst found
      simpa [List.head?_eq_getElem?] using hole wide
    | succ slot => simpa using wellFormed slot type (by simpa using found) wide

def cells : Locals → List (Option VerificationType)
  | [] => []
  | [last] => [last]
  | first :: second :: rest =>
    if isWide first then first :: cells rest else first :: cells (second :: rest)

def count (locals : Locals) : Nat :=
  locals.cells.countP Option.isSome

def upToLast (locals : Locals) : Locals :=
  (locals.reverse.dropWhile Option.isNone).reverse

/-- The locals as a stack map frame lists them: a wide value is one entry, an unused slot before
the last value is `top`. -/
def entries (locals : Locals) : List VerificationType :=
  locals.upToLast.cells.map fun cell => cell.getD .top

def slotsInUse (slot : Nat) : Locals → List Nat
  | [] => []
  | none :: rest => slotsInUse (slot + 1) rest
  | some _ :: rest => slot :: slotsInUse (slot + 1) rest

def slotFromEnd? (locals : Locals) (number : Nat) : Option Nat :=
  if number = 0 then none else (slotsInUse 0 locals).reverse[number - 1]?

def missingHole? (slot : Nat) : Locals → Option Nat
  | [] => none
  | first :: rest =>
    if isWide first ∧ rest.head? ≠ some none then some (slot + 1) else missingHole? (slot + 1) rest

theorem missingHole?_eq_none_iff {slot : Nat} {locals : Locals} :
    missingHole? slot locals = none ↔ locals.WellFormed := by
  induction locals generalizing slot with
  | nil => simp [missingHole?, wellFormed_nil]
  | cons first rest ih =>
    rw [wellFormed_cons]
    unfold missingHole?
    by_cases missing : isWide first = true ∧ rest.head? ≠ some none
    · rw [if_pos missing]
      simp only [reduceCtorEq, false_iff, not_and]
      intro hole
      exact absurd (hole missing.1) missing.2
    · rw [if_neg missing, ih]
      constructor
      · intro wellFormed
        refine ⟨?_, wellFormed⟩
        intro wide
        by_cases hole : rest.head? = some none
        · exact hole
        · exact absurd ⟨wide, hole⟩ missing
      · intro both
        exact both.2

def breakBefore (locals : Locals) (slot : Nat) : Locals :=
  if 0 < slot ∧ isWide (locals[slot - 1]?).join then locals.set (slot - 1) (some .top) else locals

def breakAfter (locals : Locals) (slot : Nat) (type : VerificationType) : Locals :=
  if isWide (locals[slot]?).join ∧ !type.isWide then locals.set (slot + 1) (some .top) else locals

def claimHole (locals : Locals) (slot : Nat) (type : VerificationType) : Locals :=
  if type.isWide then locals.set (slot + 1) none else locals

def put (locals : Locals) (slot : Nat) (type : VerificationType) : Locals :=
  let grown : Locals := List.rightpad (slot + type.width) none locals
  (((grown.breakBefore slot).breakAfter slot type).claimHole slot type).set slot (some type)

def putAll (locals : Locals) (slot : Nat) : List VerificationType → Locals
  | [] => locals
  | type :: rest => putAll (locals.put slot type) (slot + type.width) rest

def startsWithValues (cells : List (Option VerificationType)) (number : Nat) : Bool :=
  number ≤ cells.length && (cells.take number).all Option.isSome

/-- Compares two lists of cells, of which each is said to hold the given number of values. The
comparison goes on in step for as long as both have values left. There is no answer when it runs
past the end of a list on the way, which right numbers rule out. -/
def compare? : List (Option VerificationType) → Nat → List (Option VerificationType) → Nat →
    Option LocalsChange
  | some before :: previous, previousCount + 1, some now :: current, currentCount + 1 =>
    if before.same now then compare? previous previousCount current currentCount
    else some .elsewhere
  | [], _ + 1, _, _ + 1 => none
  | _, _ + 1, [], _ + 1 => none
  | _, _ + 1, _, _ + 1 => some .elsewhere
  | _, 0, _, 0 => some (.atEnd 0)
  | _, 0, current, added + 1 =>
    some (if startsWithValues current (added + 1) then .atEnd (added + 1) else .elsewhere)
  | previous, dropped + 1, _, 0 =>
    some (if startsWithValues previous (dropped + 1) then .atEnd (-(dropped + 1)) else .elsewhere)

def changeFrom (previous : Locals) (previousCount : Nat) (current : Locals) (currentCount : Nat) :
    LocalsChange :=
  (compare? previous.cells previousCount current.cells currentCount).getD .elsewhere

def change (previous current : Locals) : LocalsChange :=
  changeFrom previous previous.count current current.count

end Locals

end JvmFrames
