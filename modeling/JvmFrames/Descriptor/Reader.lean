import JvmFrames.Descriptor

/-!
Readers for names and descriptors. A reader answers with a value or with the cause of its failure,
and always with the characters it has not taken, so it can be used in the middle of a longer text.

The name between `L` and `;` holds no semicolon. An array among such names therefore has no class
name inside it, and the check of names nests only once.
-/

namespace JvmFrames

inductive SyntaxError where
  | missingBaseType
  | invalidBaseType (found : Char)
  | missingFieldType
  | invalidFieldType (found : Char)
  | unterminatedName (text : String)
  | missingOpening
  | missingClosing
  | leftover (found : Char)
  | emptyName
  | illegalSegment (segment : String)
  | emptySegment
  | invalidArray (name : String) (cause : SyntaxError)
  deriving DecidableEq, Repr

namespace SyntaxError

def isEndOfInput : SyntaxError → Bool
  | .missingBaseType | .missingFieldType | .unterminatedName _ | .missingClosing => true
  | _ => false

def message : SyntaxError → String
  | .missingBaseType => "Missing base type character"
  | .invalidBaseType found => s!"Invalid base type character '{found}'"
  | .missingFieldType => "Missing field type"
  | .invalidFieldType found => s!"Invalid field type character '{found}'"
  | .unterminatedName text => s!"Missing terminator for 'L{text}'"
  | .missingOpening => "Expected '(' for method"
  | .missingClosing => "Expected ')' for method"
  | .leftover found => s!"Unexpected leftover input '{found}'"
  | .emptyName => "Binary name '' is empty"
  | .illegalSegment segment => s!"Name segment '{segment}' contains an illegal character"
  | .emptySegment => "Name segment is empty"
  | .invalidArray name cause => s!"Invalid array class '{name}': {cause.message}"

end SyntaxError

structure Reading (α : Type) where
  answer : Except SyntaxError α
  rest : List Char

namespace Reading

variable {α β : Type}

def map (change : α → β) (reading : Reading α) : Reading β :=
  ⟨reading.answer.map change, reading.rest⟩

def whole (reading : Reading α) : Except SyntaxError α :=
  match reading.answer, reading.rest with
  | .error cause, _ => .error cause
  | .ok value, [] => .ok value
  | .ok _, found :: _ => .error (.leftover found)

end Reading

def BaseType.read : List Char → Reading BaseType
  | [] => ⟨.error .missingBaseType, []⟩
  | found :: rest =>
    match BaseType.ofLetter? found with
    | some type => ⟨.ok type, rest⟩
    | none => ⟨.error (.invalidBaseType found), rest⟩

namespace BinaryName

def checkSegment (segment : List Char) : Except SyntaxError Unit :=
  if segment.any (fun character => character = '.' || character = ';' || character = '[') then
    .error (.illegalSegment (String.ofList segment))
  else if segment.isEmpty then
    .error .emptySegment
  else
    .ok ()

def checkSegments : List (List Char) → Except SyntaxError Unit
  | [] => .ok ()
  | segment :: rest =>
    match checkSegment segment with
    | .error cause => .error cause
    | .ok () => checkSegments rest

def readWith (check : List Char → Except SyntaxError Unit) (source : List Char) :
    Reading BinaryName :=
  let text := source.takeWhile (· != ';')
  match source.dropWhile (· != ';') with
  | [] => ⟨.error (.unterminatedName (String.ofList text)), []⟩
  | _ :: rest => ⟨(check text).map fun _ => ⟨String.ofList text⟩, rest⟩

end BinaryName

namespace FieldType

def readWith (check : List Char → Except SyntaxError Unit) (source : List Char) :
    Reading FieldType :=
  match source with
  | [] => ⟨.error .missingFieldType, []⟩
  | 'L' :: rest => (BinaryName.readWith check rest).map .reference
  | '[' :: _ =>
    let brackets := String.ofList (source.takeWhile (· == '['))
    match source.dropWhile (· == '[') with
    | 'L' :: rest =>
      (BinaryName.readWith check rest).map fun name =>
        .reference ⟨brackets ++ "L" ++ name.text ++ ";"⟩
    | element =>
      (BaseType.read element).map fun type =>
        .reference ⟨brackets ++ String.singleton type.letter⟩
  | found :: rest =>
    match BaseType.ofLetter? found with
    | some type => ⟨.ok (.base type), rest⟩
    | none => ⟨.error (.invalidFieldType found), source⟩

end FieldType

namespace BinaryName

def checkWith (check : List Char → Except SyntaxError Unit) (text : List Char) :
    Except SyntaxError Unit :=
  match text with
  | [] => .error .emptyName
  | '[' :: _ =>
    match (FieldType.readWith check text).whole with
    | .ok _ => .ok ()
    | .error cause => .error (.invalidArray (String.ofList text) cause)
  | _ => checkSegments (text.splitOn '/')

def checkInner : List Char → Except SyntaxError Unit :=
  checkWith fun _ => .ok ()

def check : List Char → Except SyntaxError Unit :=
  checkWith checkInner

def ofString (text : String) : Except SyntaxError BinaryName :=
  (check text.toList).map fun _ => ⟨text⟩

end BinaryName

namespace BaseType

def ofString (source : String) : Except SyntaxError BaseType :=
  (read source.toList).whole

end BaseType

namespace FieldType

def read : List Char → Reading FieldType :=
  readWith BinaryName.checkInner

def ofString (source : String) : Except SyntaxError FieldType :=
  (read source.toList).whole

end FieldType

def BinaryName.elementType? (name : BinaryName) : Option FieldType :=
  match name.text.toList with
  | '[' :: element => (FieldType.read element).whole.toOption
  | _ => none

theorem BinaryName.readWith_rest_length (check : List Char → Except SyntaxError Unit)
    (source : List Char) : (BinaryName.readWith check source).rest.length ≤ source.length := by
  unfold BinaryName.readWith
  have suffix := (List.dropWhile_suffix (· != ';') (l := source)).length_le
  cases remaining : source.dropWhile (· != ';') with
  | nil => simp
  | cons semicolon rest =>
    rw [remaining, List.length_cons] at suffix
    exact Nat.le_of_succ_le suffix

theorem BaseType.read_rest_length (source : List Char) :
    (BaseType.read source).rest.length ≤ source.length := by
  cases source with
  | nil => simp [BaseType.read]
  | cons found rest => simp only [BaseType.read]; split <;> simp

theorem FieldType.readWith_rest_length {check : List Char → Except SyntaxError Unit}
    {source : List Char} {type : FieldType}
    (success : (FieldType.readWith check source).answer = .ok type) :
    (FieldType.readWith check source).rest.length < source.length := by
  unfold FieldType.readWith at success ⊢
  split at success
  · simp at success
  · rename_i rest
    have bound := BinaryName.readWith_rest_length check rest
    simp only [Reading.map, List.length_cons]
    omega
  · rename_i tail
    have suffix := (List.dropWhile_suffix (· == '[') (l := tail)).length_le
    have step : ('[' :: tail).dropWhile (· == '[') =
        tail.dropWhile (· == '[') := by simp
    simp only [step, List.length_cons]
    split
    · rename_i rest remaining
      have bound := BinaryName.readWith_rest_length check rest
      simp only [remaining, List.length_cons] at suffix
      simp only [Reading.map]
      omega
    · have bound := BaseType.read_rest_length (tail.dropWhile (· == '['))
      simp only [Reading.map]
      omega
  · split at success
    · simp
    · simp at success

namespace MethodDescriptor

def readParameters (source : List Char) : Reading (List FieldType) :=
  match source with
  | [] => ⟨.error .missingClosing, []⟩
  | ')' :: rest => ⟨.ok [], rest⟩
  | source =>
    match _ : (FieldType.read source).answer with
    | .error cause => ⟨.error cause, (FieldType.read source).rest⟩
    | .ok type => (readParameters (FieldType.read source).rest).map (type :: ·)
termination_by source.length
decreasing_by exact FieldType.readWith_rest_length (by assumption)

def readResult : List Char → Reading (Option FieldType)
  | 'V' :: rest => ⟨.ok none, rest⟩
  | source => (FieldType.read source).map some

def read : List Char → Reading MethodDescriptor
  | '(' :: source =>
    let parameters := readParameters source
    match parameters.answer with
    | .error cause => ⟨.error cause, parameters.rest⟩
    | .ok types => (readResult parameters.rest).map fun result => ⟨types, result⟩
  | source => ⟨.error .missingOpening, source⟩

def ofString (source : String) : Except SyntaxError MethodDescriptor :=
  (read source.toList).whole

end MethodDescriptor

end JvmFrames
