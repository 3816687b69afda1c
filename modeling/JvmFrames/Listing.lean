import JvmFrames.Frame
import JvmFrames.Listing.Token
import JvmFrames.Text.Blank

/-!
Listings of frames. A line holds one frame as `PC | LOCALS | STACK`; blank lines and lines that
start with `#` say nothing. The first frame is the one on method entry and has `entry` in place of
its offset. Several lines may have one offset: each of them is an edge into it. Faults name
the line they are in, counted from one; a text without frames has its fault on line zero.

Markers are taken while the words are read, so they stay used when a line turns out to be wrong.
-/

namespace JvmFrames

structure Listing where
  entry : Frame
  frames : List Frame
  deriving DecidableEq, Repr

inductive ListingFault where
  | badLine (number : Nat) (cause : LineFault)
  | unbuildable (fault : FaultAt)
  deriving DecidableEq, Repr

structure FrameText where
  pc : Int
  locals : Locals
  stack : List VerificationType

namespace Listing

abbrev LineReader := ExceptT LineFault (StateM MarkerBook)

def readType (word : List Char) : LineReader (Option VerificationType) :=
  match TypeToken.read word with
  | .error fault => throw fault
  | .ok token => liftM token.toType

def readLocals (afterWide : Bool) (slot : Nat) : List (List Char) → LineReader Locals
  | [] => if afterWide then throw .missingHole else pure []
  | word :: rest => do
    let type ← readType word
    if afterWide && type.isSome then
      throw (.filledHole slot)
    else
      let following ← readLocals (Locals.isWide type) (slot + 1) rest
      pure (type :: following)

def readStack : List (List Char) → LineReader (List VerificationType)
  | [] => pure []
  | word :: rest => do
    match ← readType word with
    | none => throw .unusedOnStack
    | some type =>
      let following ← readStack rest
      pure (type :: following)

def splitLine (line : List Char) : Except LineFault (List Char × List Char × List Char) :=
  match (line.splitOn '|').map Text.trim with
  | [pc, locals] => .ok (pc, locals, [])
  | [pc, locals, stack] => .ok (pc, locals, stack)
  | _ => .error .fieldCount

def readPc (isEntry : Bool) (text : List Char) : Except LineFault Int :=
  let found := String.ofList text
  if isEntry then
    if found = "entry" then .ok Frame.placeholderPc else .error (.notEntry found)
  else if found = "entry" then
    .error .secondEntry
  else
    match Text.readWord text with
    | some pc => .ok pc.toNat
    | none => .error (.badPc found)

def readLine (isEntry : Bool) (line : List Char) : LineReader FrameText :=
  match splitLine line with
  | .error fault => throw fault
  | .ok (pcText, localsText, stackText) =>
    match readPc isEntry pcText with
    | .error fault => throw fault
    | .ok pc => do
      let locals ← readLocals false 0 (Text.words localsText)
      let stack ← readStack (Text.words stackText)
      pure ⟨pc, locals, stack⟩

abbrev Reader := ExceptT ListingFault (StateM MarkerBook)

def readFrame (number : Nat) (isEntry : Bool) (line : List Char) : Reader Frame := fun book =>
  match (readLine isEntry line).run.run book with
  | (.error fault, after) => (.error (.badLine number fault), after)
  | (.ok text, after) =>
    match Frame.ofSnapshot text.pc text.locals text.stack with
    | .error fault => (.error (.unbuildable ⟨text.pc, fault⟩), after)
    | .ok frame => (.ok frame, after)

def isSilent (line : List Char) : Bool :=
  line.isEmpty || line.head? = some '#'

def readFrames (number : Nat) (isEntry : Bool) : List (List Char) → Reader (List Frame)
  | [] => pure []
  | line :: rest =>
    if isSilent (Text.trim line) then
      readFrames (number + 1) isEntry rest
    else do
      let frame ← readFrame number isEntry (Text.trim line)
      let following ← readFrames (number + 1) false rest
      pure (frame :: following)

def ofFrames : List Frame → Except ListingFault Listing
  | [] => .error (.badLine 0 .noEntry)
  | entry :: frames => .ok ⟨entry, frames⟩

def read (source : String) : ExceptT ListingFault (StateM MarkerSupply) Listing := fun supply =>
  let (frames, book) := (readFrames 1 true (source.toList.splitOn '\n')).run.run { supply }
  (frames.bind ofFrames, book.supply)

end Listing

end JvmFrames
