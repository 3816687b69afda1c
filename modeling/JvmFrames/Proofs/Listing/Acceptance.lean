import JvmFrames.Proofs.Frame.Sound
import JvmFrames.Proofs.Listing.Markers
import Mathlib.Data.List.Forall2

/-!
Which lines a reader accepts. A line is acceptable if its fields and words can be read, the slot
behind every wide local is unused, and no item of the stack is. What a reader makes of such a line
is known from its words and the markers of their sites; all other lines are refused.
-/

namespace JvmFrames

open MarkerBook

namespace TypeToken

def slot (image : Site → Marker) : TypeToken → Option VerificationType
  | .unused => none
  | .top => some .top
  | .null => some .null
  | .this => some (.uninitializedThis (image .receiver))
  | .created offset => some (.uninitialized offset (image (.created offset)))
  | .field type => some (.ofField type)

def sites : TypeToken → List Site
  | .this => [.receiver]
  | .created offset => [.created offset]
  | _ => []

def isWide : TypeToken → Bool
  | .field type => type.width = 2
  | _ => false

theorem slot_eq_none_iff {image : Site → Marker} {token : TypeToken} :
    token.slot image = none ↔ token = .unused := by
  cases token <;> simp [slot]

theorem slot_eq_top_iff {image : Site → Marker} {token : TypeToken} :
    token.slot image = some .top ↔ token = .top := by
  cases token <;> simp [slot, VerificationType.ofField_ne_top]

theorem isWide_slot (image : Site → Marker) (token : TypeToken) :
    Locals.isWide (token.slot image) = token.isWide := by
  cases token with
  | field type =>
      rcases type with base | name
      · cases base <;> rfl
      · rfl
  | _ => rfl

theorem reads_toType {ε : Type} (token : TypeToken) :
    Reads token.sites
      (liftM token.toType : ExceptT ε (StateM MarkerBook) (Option VerificationType))
      fun image => token.slot image := by
  cases token with
  | this => exact reads_take .receiver fun marker =>
        some (VerificationType.uninitializedThis marker)
  | created offset =>
      exact reads_take (.created offset) fun marker =>
        some (VerificationType.uninitialized offset marker)
  | _ => exact reads_pure _

end TypeToken

namespace Listing

abbrev Spells (words : List (List Char)) (tokens : List TypeToken) : Prop :=
  List.Forall₂ (fun word token => TypeToken.read word = .ok token) words tokens

def HolesKept (tokens : List TypeToken) : Prop :=
  ∀ (slot : Nat) (token : TypeToken),
    tokens[slot]? = some token → token.isWide = true → tokens[slot + 1]? = some .unused

theorem wellFormed_slots_iff (image : Site → Marker) {tokens : List TypeToken} :
    Locals.WellFormed (tokens.map (TypeToken.slot image)) ↔ HolesKept tokens := by
  have hole (slot : Nat) : (tokens.map (TypeToken.slot image))[slot]? = some none ↔
      tokens[slot]? = some .unused := by
    simp [List.getElem?_map, Option.map_eq_some_iff, TypeToken.slot_eq_none_iff]
  constructor
  · intro wellFormed slot token found wide
    rw [← TypeToken.isWide_slot image] at wide
    cases value : token.slot image with
    | none => rw [value] at wide; contradiction
    | some type =>
        rw [value] at wide
        refine (hole (slot + 1)).mp (wellFormed slot type ?_ wide)
        rw [List.getElem?_map, found, Option.map_some, value]
  · intro holes slot type found wide
    rw [List.getElem?_map] at found
    obtain ⟨token, tokenFound, value⟩ := Option.map_eq_some_iff.mp found
    refine (hole (slot + 1)).mpr (holes slot token tokenFound ?_)
    rw [← TypeToken.isWide_slot image, value]
    exact wide

theorem holesKept_cons {first : TypeToken} {rest : List TypeToken} :
    HolesKept (first :: rest) ↔
      (first.isWide = true → rest.head? = some .unused) ∧ HolesKept rest := by
  let image : Site → Marker := fun _ => ⟨0, 0⟩
  have hole : (rest.map (TypeToken.slot image)).head? = some none ↔ rest.head? = some .unused := by
    simp [List.head?_map, Option.map_eq_some_iff, TypeToken.slot_eq_none_iff]
  rw [← wellFormed_slots_iff image, ← wellFormed_slots_iff image, List.map_cons,
    Locals.wellFormed_cons, TypeToken.isWide_slot, hole]

theorem reads_word {word : List Char} {token : TypeToken}
    (read : TypeToken.read word = .ok token) :
    Reads token.sites (readType word) fun image => token.slot image := by
  rw [readType, read]
  exact TypeToken.reads_toType token

theorem reads_locals {words : List (List Char)} {tokens : List TypeToken}
    (spells : Spells words tokens) (holes : HolesKept tokens) (afterWide : Bool)
    (hole : afterWide = true → tokens.head? = some .unused) (number : Nat) :
    Reads (tokens.flatMap TypeToken.sites) (readLocals afterWide number words)
      fun image => tokens.map (TypeToken.slot image) := by
  -- Before the rest is read, the first slot decides whether the rest must begin with a hole.
  induction spells generalizing afterWide number with
  | nil =>
      have narrow : afterWide = false := by simpa using hole
      subst narrow
      exact reads_pure []
  | @cons word token words tokens first _ ih =>
      obtain ⟨following, restHoles⟩ := holesKept_cons.mp holes
      rw [List.flatMap_cons, readLocals]
      refine (reads_word first).bind
        (fun value image => value :: tokens.map (TypeToken.slot image)) ?_
      rintro image value rfl
      have fits : ¬ (afterWide && (token.slot image).isSome) = true := by
        cases afterWide with
        | false => simp
        | true =>
            have empty : token = .unused := by simpa using hole rfl
            simp [empty, TypeToken.slot]
      rw [if_neg fits, TypeToken.isWide_slot]
      exact (ih restHoles _ following (number + 1)).map (token.slot image :: ·)

theorem reads_stack {words : List (List Char)} {tokens : List TypeToken}
    (spells : Spells words tokens) (used : .unused ∉ tokens) :
    Reads (tokens.flatMap TypeToken.sites) (readStack words)
      fun image => tokens.filterMap (TypeToken.slot image) := by
  induction spells with
  | nil => exact reads_pure []
  | @cons word token words tokens first _ ih =>
      rw [List.mem_cons, not_or] at used
      rw [List.flatMap_cons, readStack]
      have split (image : Site → Marker) : (token :: tokens).filterMap (TypeToken.slot image) =
          (token.slot image).toList ++ tokens.filterMap (TypeToken.slot image) := by
        rw [List.filterMap_cons]
        cases token.slot image <;> rfl
      simp only [split]
      refine (reads_word first).bind
        (fun value image => value.toList ++ tokens.filterMap (TypeToken.slot image)) ?_
      rintro image value rfl
      cases value : token.slot image with
      | none => exact absurd (TypeToken.slot_eq_none_iff.mp value).symm used.1
      | some type => exact (ih used.2).map (type :: ·)

structure LineTokens where
  pc : Int
  locals : List TypeToken
  stack : List TypeToken

namespace LineTokens

def sites (said : LineTokens) : List Site :=
  said.locals.flatMap TypeToken.sites ++ said.stack.flatMap TypeToken.sites

def frame (image : Site → Marker) (said : LineTokens) : Frame where
  pc := said.pc
  locals := said.locals.map (TypeToken.slot image)
  stack := said.stack.filterMap (TypeToken.slot image)

end LineTokens

structure Acceptable (isEntry : Bool) (line : List Char) (said : LineTokens) : Prop where
  fields : ∃ pcText localsText stackText,
    splitLine line = .ok (pcText, localsText, stackText) ∧ readPc isEntry pcText = .ok said.pc ∧
      Spells (Text.words localsText) said.locals ∧ Spells (Text.words stackText) said.stack
  holes : HolesKept said.locals
  used : .unused ∉ said.stack

section Lines

variable {isEntry : Bool} {line : List Char} {said : LineTokens}

theorem Acceptable.reads_line (acceptable : Acceptable isEntry line said) :
    Reads said.sites (readLine isEntry line)
      fun image => ⟨said.pc, (said.frame image).locals, (said.frame image).stack⟩ := by
  obtain ⟨pcText, localsText, stackText, split, place, locals, stack⟩ := acceptable.fields
  rw [readLine, split]
  simp only [place]
  refine (reads_locals locals acceptable.holes false nofun 0).bind
    (fun locals image => FrameText.mk said.pc locals (said.frame image).stack) ?_
  intro _ locals _
  exact (reads_stack stack acceptable.used).map (FrameText.mk said.pc locals)

theorem exists_token_of_readType {word : List Char} {book middle : MarkerBook}
    {value : Option VerificationType} (sound : book.Sound)
    (run : (readType word).run.run book = (.ok value, middle)) :
    ∃ token, TypeToken.read word = .ok token ∧ value = token.slot middle.image ∧ middle.Sound := by
  cases read : TypeToken.read word with
  | error fault =>
      rw [readType, read] at run
      cases run
  | ok token =>
      obtain ⟨same, middleSound, _⟩ := (reads_word read).of_run sound run
      exact ⟨token, rfl, same, middleSound⟩

theorem exists_spells_of_readLocals {words : List (List Char)} {book : MarkerBook}
    (sound : book.Sound) {afterWide : Bool} {number : Nat} {locals : Locals}
    (success : ((readLocals afterWide number words).run.run book).1 = .ok locals) :
    ∃ tokens, Spells words tokens ∧ HolesKept tokens ∧
      (afterWide = true → tokens.head? = some .unused) := by
  induction words generalizing book afterWide number locals with
  | nil =>
      cases afterWide with
      | false => exact ⟨[], .nil, by simp [HolesKept], by simp⟩
      | true => contradiction
  | cons word words ih =>
      rw [readLocals] at success
      obtain ⟨value, middle, firstRun, success⟩ := run_bind_ok success
      obtain ⟨token, first, rfl, middleSound⟩ := exists_token_of_readType sound firstRun
      split at success
      · contradiction
      · rename_i fits
        obtain ⟨following, _, rest, _⟩ := run_bind_ok success
        obtain ⟨tokens, spells, holes, hole⟩ := ih middleSound (congrArg Prod.fst rest)
        rw [TypeToken.isWide_slot] at hole
        refine ⟨token :: tokens, .cons first spells, holesKept_cons.mpr ⟨hole, holes⟩, ?_⟩
        rintro rfl
        rw [Bool.true_and, Bool.not_eq_true, Option.isSome_eq_false_iff, Option.isNone_iff_eq_none,
          TypeToken.slot_eq_none_iff] at fits
        rw [fits]
        rfl

theorem exists_spells_of_readStack {words : List (List Char)} {book : MarkerBook}
    (sound : book.Sound) {stack : List VerificationType}
    (success : ((readStack words).run.run book).1 = .ok stack) :
    ∃ tokens, Spells words tokens ∧ .unused ∉ tokens := by
  induction words generalizing book stack with
  | nil => exact ⟨[], .nil, List.not_mem_nil⟩
  | cons word words ih =>
      rw [readStack] at success
      obtain ⟨value, middle, firstRun, success⟩ := run_bind_ok success
      obtain ⟨token, first, rfl, middleSound⟩ := exists_token_of_readType sound firstRun
      cases value : token.slot middle.image with
      | none =>
          rw [value] at success
          contradiction
      | some type =>
          rw [value] at success
          obtain ⟨following, _, rest, _⟩ := run_bind_ok success
          obtain ⟨tokens, spells, used⟩ := ih middleSound (congrArg Prod.fst rest)
          refine ⟨token :: tokens, .cons first spells, ?_⟩
          rintro (_ | ⟨_, member⟩)
          · contradiction
          · exact used member

theorem exists_acceptable_of_readLine {book : MarkerBook} (sound : book.Sound) {text : FrameText}
    (success : ((readLine isEntry line).run.run book).1 = .ok text) :
    ∃ said, Acceptable isEntry line said := by
  unfold readLine at success
  split at success
  · contradiction
  · rename_i pcText localsText stackText split
    split at success
    · contradiction
    · rename_i pc place
      obtain ⟨locals, middle, localsRun, success⟩ := run_bind_ok success
      obtain ⟨stack, _, stackRun, _⟩ := run_bind_ok success
      obtain ⟨localTokens, spells, holes, _⟩ :=
        exists_spells_of_readLocals sound (congrArg Prod.fst localsRun)
      obtain ⟨_, middleSound, _⟩ := (reads_locals spells holes false nofun 0).of_run sound localsRun
      obtain ⟨stackTokens, stackSpells, used⟩ :=
        exists_spells_of_readStack middleSound (congrArg Prod.fst stackRun)
      exact ⟨⟨pc, localTokens, stackTokens⟩,
        ⟨pcText, localsText, stackText, split, place, spells, stackSpells⟩, holes, used⟩

theorem Acceptable.wellFormed (acceptable : Acceptable isEntry line said) (image : Site → Marker) :
    (said.frame image).locals.WellFormed :=
  (wellFormed_slots_iff image).mpr acceptable.holes

theorem top_mem_stack_iff {image : Site → Marker} :
    .top ∈ (said.frame image).stack ↔ .top ∈ said.stack := by
  simp [LineTokens.frame, List.mem_filterMap, TypeToken.slot_eq_top_iff]

theorem Acceptable.reads_frame (acceptable : Acceptable isEntry line said)
    (noTop : .top ∉ said.stack) (number : Nat) :
    Reads said.sites (readFrame number isEntry line) fun image => said.frame image where
  run book sound := by
    obtain ⟨after, run, rest⟩ := acceptable.reads_line.run book sound
    have built : Frame.ofSnapshot said.pc (said.frame after.image).locals
        (said.frame after.image).stack = .ok (said.frame after.image) :=
      Frame.ofSnapshot_of_wellFormed (acceptable.wellFormed after.image)
        (mt top_mem_stack_iff.mp noTop)
    refine ⟨after, ?_, rest⟩
    rw [ExceptT.run, StateT.run, readFrame, run]
    simp only [built]
  congr first second agree := by
    let built : FrameText → Frame := fun text =>
      { pc := text.pc, locals := text.locals, stack := text.stack }
    exact congrArg built (acceptable.reads_line.congr first second agree)

theorem Acceptable.readFrame_of_top (acceptable : Acceptable isEntry line said)
    (top : .top ∈ said.stack) (number : Nat) {book : MarkerBook} (sound : book.Sound) :
    ((readFrame number isEntry line).run.run book).1 =
      .error (.unbuildable ⟨said.pc, .topOnStack⟩) := by
  obtain ⟨after, run, _⟩ := acceptable.reads_line.run book sound
  have failed : Frame.ofSnapshot said.pc (said.frame after.image).locals
      (said.frame after.image).stack = .error .topOnStack :=
    Frame.ofSnapshot_of_top (acceptable.wellFormed after.image) (top_mem_stack_iff.mpr top)
  rw [ExceptT.run, StateT.run, readFrame, run]
  simp only [failed]

theorem readFrame_of_refused (refused : ¬ ∃ said, Acceptable isEntry line said) (number : Nat)
    {book : MarkerBook} (sound : book.Sound) :
    ∃ cause, ((readFrame number isEntry line).run.run book).1 = .error (.badLine number cause) := by
  rw [ExceptT.run, StateT.run, readFrame]
  rcases outcome : (readLine isEntry line).run.run book with ⟨cause | text, after⟩
  · exact ⟨cause, rfl⟩
  · exact absurd (exists_acceptable_of_readLine sound (congrArg Prod.fst outcome)) refused

end Lines

end Listing

end JvmFrames
