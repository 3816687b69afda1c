import JvmFrames.Proofs.Frame.Reachable
import JvmFrames.Proofs.Listing.Acceptance
import JvmFrames.Proofs.Listing.Writing

/-!
What a reader refuses and what it returns. A frame is never built from locals without their holes,
as the words of its line were checked before; only `top` on a stack is left to be refused then. In a
listing that was read the types are told apart by how they are written.
-/

namespace JvmFrames

open MarkerBook VerificationType

namespace VerificationType

def ofText (image : Site → Marker) : List Char → Option VerificationType
  | ['t', 'o', 'p'] => some .top
  | ['I'] => some .integer
  | ['F'] => some .float
  | ['D'] => some .double
  | ['J'] => some .long
  | ['n', 'u', 'l', 'l'] => some .null
  | ['t', 'h', 'i', 's'] => some (.uninitializedThis (image .receiver))
  | 'n' :: 'e' :: 'w' :: '@' :: digits =>
    (Text.readWord digits).map fun offset => .uninitialized offset (image (.created offset))
  | 'L' :: rest => some (.object ⟨String.ofList rest.dropLast⟩)
  | text => some (.object ⟨String.ofList text⟩)

theorem ofText_render (image : Site → Marker) (type : VerificationType) :
    ofText image type.render.toList = some (type.relabel image) := by
  cases type with
  | object name =>
      rw [render]
      by_cases array : name.isArray = true
      · obtain ⟨text, found⟩ := BinaryName.isArray_iff.mp array
        rw [BinaryName.render_of_isArray array, found, BinaryName.eq_ofList found]
        rfl
      · rw [BinaryName.render_of_not_isArray (Bool.not_eq_true _ ▸ array)]
        simp [ofText, relabel]
  | uninitialized offset marker =>
      rw [TypeToken.toList_render_uninitialized]
      simp [ofText, relabel, Text.readWord_decimal]
  | uninitializedThis marker =>
      change ofText image "this".toList = _
      rfl
  | _ => rfl

theorem render_forgetCopy (type : VerificationType) : type.forgetCopy.render = type.render := by
  cases type <;> rfl

theorem same_iff_render {image : Site → Marker} {left right : VerificationType}
    (leftLabelled : left.relabel image = left) (rightLabelled : right.relabel image = right) :
    left.same right = true ↔ left.render = right.render := by
  rw [same_iff]
  constructor
  · intro agree
    rw [← render_forgetCopy left, agree, render_forgetCopy]
  · intro alike
    have types := ofText_render image left
    rw [alike, ofText_render, leftLabelled, rightLabelled] at types
    rw [Option.some.inj types]

end VerificationType

namespace Listing

def types (listing : Listing) : List VerificationType :=
  (listing.entry :: listing.frames).flatMap fun frame => frame.slots.filterMap id

def spoken (lines : List (List Char)) : List (List Char) :=
  (lines.map Text.trim).filter fun line => !isSilent line

inductive Accepts : Bool → List (List Char) → List LineTokens → Prop
  | nil {isEntry} : Accepts isEntry [] []
  | cons {isEntry line said lines others} : Acceptable isEntry line said → .top ∉ said.stack →
      Accepts false lines others → Accepts isEntry (line :: lines) (said :: others)

/-- Before all others that are not accepted comes a line with this offset that has nothing against
it but `top` on its stack. -/
inductive StopsAtTop : Bool → List (List Char) → Int → Prop
  | here {isEntry line said lines} : Acceptable isEntry line said → .top ∈ said.stack →
      StopsAtTop isEntry (line :: lines) said.pc
  | later {isEntry line said lines pc} : Acceptable isEntry line said → .top ∉ said.stack →
      StopsAtTop false lines pc → StopsAtTop isEntry (line :: lines) pc

/-- A line that says nothing is passed over, and any other one is read first. -/
theorem readFrames_cons (number : Nat) (isEntry : Bool) (line : List Char)
    (rest : List (List Char)) :
    (spoken (line :: rest) = spoken rest ∧
        readFrames number isEntry (line :: rest) = readFrames (number + 1) isEntry rest) ∨
      spoken (line :: rest) = Text.trim line :: spoken rest ∧
        readFrames number isEntry (line :: rest) =
          readFrame number isEntry (Text.trim line) >>= fun frame =>
            readFrames (number + 1) false rest >>= fun following => pure (frame :: following) := by
  rw [spoken, List.map_cons, readFrames]
  by_cases silent : isSilent (Text.trim line) = true
  · rw [if_pos silent, List.filter_cons_of_neg (by simp [silent])]
    exact .inl ⟨rfl, rfl⟩
  · rw [if_neg silent, List.filter_cons_of_pos (by simp [silent])]
    exact .inr ⟨rfl, rfl⟩

theorem reads_accepted {number : Nat} {isEntry : Bool} {lines : List (List Char)}
    {said : List LineTokens} (accepts : Accepts isEntry (spoken lines) said) :
    Reads (said.flatMap LineTokens.sites) (readFrames number isEntry lines)
      fun image => said.map (LineTokens.frame image) := by
  induction lines generalizing number isEntry said with
  | nil =>
      cases accepts
      exact reads_pure []
  | cons line rest ih =>
      rcases readFrames_cons number isEntry line rest with ⟨silent, reader⟩ | ⟨spokenFirst, reader⟩
      · rw [silent] at accepts
        rw [reader]
        exact ih accepts
      · rw [spokenFirst] at accepts
        rw [reader]
        cases accepts with
        | @cons _ _ said _ others acceptable noTop accepts =>
            refine (acceptable.reads_frame noTop number).bind
              (fun frame image => frame :: others.map (LineTokens.frame image)) ?_
            intro _ frame _
            exact (ih accepts).map (frame :: ·)

theorem readFrames_of_stopsAtTop {number : Nat} {isEntry : Bool} {lines : List (List Char)}
    {pc : Int} (stops : StopsAtTop isEntry (spoken lines) pc) {book : MarkerBook}
    (sound : book.Sound) :
    ((readFrames number isEntry lines).run.run book).1 =
      .error (.unbuildable ⟨pc, .topOnStack⟩) := by
  induction lines generalizing number isEntry book with
  | nil => cases stops
  | cons line rest ih =>
      rcases readFrames_cons number isEntry line rest with ⟨silent, reader⟩ | ⟨spokenFirst, reader⟩
      · rw [silent] at stops
        rw [reader]
        exact ih stops sound
      · rw [spokenFirst] at stops
        rw [reader]
        cases stops with
        | here acceptable top =>
            exact run_bind_of_error (acceptable.readFrame_of_top top number sound) _
        | later acceptable noTop others =>
            obtain ⟨after, run, afterSound, _⟩ :=
              (acceptable.reads_frame noTop number).run book sound
            rw [run_bind_of_ok run]
            exact run_bind_of_error (ih others afterSound) _

/-- The third way is a line that cannot be accepted, whatever is on its stack. -/
theorem readFrames_three_ways (number : Nat) (isEntry : Bool) (lines : List (List Char))
    {book : MarkerBook} (sound : book.Sound) :
    (∃ said, Accepts isEntry (spoken lines) said) ∨
      (∃ pc, StopsAtTop isEntry (spoken lines) pc) ∨
      ∃ line cause, ((readFrames number isEntry lines).run.run book).1 =
        .error (.badLine line cause) := by
  induction lines generalizing number isEntry book with
  | nil => exact .inl ⟨[], .nil⟩
  | cons line rest ih =>
      rcases readFrames_cons number isEntry line rest with ⟨silent, reader⟩ | ⟨spokenFirst, reader⟩
      · rw [silent, reader]
        exact ih (number + 1) isEntry sound
      rw [spokenFirst, reader]
      by_cases readable : ∃ said, Acceptable isEntry (Text.trim line) said
      · obtain ⟨said, acceptable⟩ := readable
        by_cases top : .top ∈ said.stack
        · exact .inr (.inl ⟨said.pc, .here acceptable top⟩)
        · obtain ⟨after, run, afterSound, _⟩ :=
            (acceptable.reads_frame top number).run book sound
          rw [run_bind_of_ok run]
          rcases ih (number + 1) false afterSound with
            ⟨others, accepts⟩ | ⟨pc, stops⟩ | ⟨bad, cause, failure⟩
          · exact .inl ⟨said :: others, .cons acceptable top accepts⟩
          · exact .inr (.inl ⟨pc, .later acceptable top stops⟩)
          · exact .inr (.inr ⟨bad, cause, run_bind_of_error failure _⟩)
      · obtain ⟨cause, failure⟩ := readFrame_of_refused readable number sound
        exact .inr (.inr ⟨number, cause, run_bind_of_error failure _⟩)

theorem relabel_slot {image : Site → Marker} {token : TypeToken} {type : VerificationType}
    (found : token.slot image = some type) : type.relabel image = type := by
  cases token with
  | unused => contradiction
  | field fieldType =>
      obtain rfl := Option.some.inj found
      rcases fieldType with base | name
      · cases base <;> rfl
      · rfl
  | _ =>
      obtain rfl := Option.some.inj found
      rfl

theorem mem_types_iff {listing : Listing} {type : VerificationType} :
    type ∈ listing.types ↔
      ∃ frame ∈ listing.entry :: listing.frames, some type ∈ frame.locals ∨ type ∈ frame.stack := by
  simp [types, Frame.slots, or_assoc]

section Read

variable {source : String} {supply : MarkerSupply}

theorem run_read (source : String) (supply : MarkerSupply) :
    ((read source).run.run supply).1 =
      ((readFrames 1 true (source.toList.splitOn '\n')).run.run { supply }).1.bind ofFrames :=
  rfl

theorem read_of_accepts {said : List LineTokens}
    (accepts : Accepts true (spoken (source.toList.splitOn '\n')) said) (supply : MarkerSupply) :
    ∃ image : Site → Marker, ((read source).run.run supply).1 =
      ofFrames (said.map (LineTokens.frame image)) := by
  have reads : Reads _ (readFrames 1 true (source.toList.splitOn '\n')) _ :=
    reads_accepted accepts
  obtain ⟨after, run, _⟩ := reads.run { supply } (sound_start supply)
  refine ⟨after.image, ?_⟩
  rw [run_read, run]
  rfl

theorem read_of_stopsAtTop {pc : Int}
    (stops : StopsAtTop true (spoken (source.toList.splitOn '\n')) pc) :
    ((read source).run.run supply).1 = .error (.unbuildable ⟨pc, .topOnStack⟩) := by
  rw [run_read, readFrames_of_stopsAtTop stops (sound_start supply)]
  rfl

theorem read_three_ways (source : String) (supply : MarkerSupply) :
    (∃ said image, Accepts true (spoken (source.toList.splitOn '\n')) said ∧
        ((read source).run.run supply).1 = ofFrames (said.map (LineTokens.frame image))) ∨
      (∃ pc, StopsAtTop true (spoken (source.toList.splitOn '\n')) pc ∧
        ((read source).run.run supply).1 = .error (.unbuildable ⟨pc, .topOnStack⟩)) ∨
      ∃ line cause, ((read source).run.run supply).1 = .error (.badLine line cause) := by
  rcases readFrames_three_ways 1 true (source.toList.splitOn '\n') (sound_start supply) with
    ⟨said, accepts⟩ | ⟨pc, stops⟩ | ⟨line, cause, bad⟩
  · obtain ⟨image, outcome⟩ := read_of_accepts accepts supply
    exact .inl ⟨said, image, accepts, outcome⟩
  · exact .inr (.inl ⟨pc, stops, read_of_stopsAtTop stops⟩)
  · refine .inr (.inr ⟨line, cause, ?_⟩)
    rw [run_read, bad]
    rfl

theorem read_unbuildable_iff {fault : FaultAt} :
    ((read source).run.run supply).1 = .error (.unbuildable fault) ↔
      fault.cause = .topOnStack ∧
        StopsAtTop true (spoken (source.toList.splitOn '\n')) fault.pc := by
  constructor
  · intro failure
    rcases read_three_ways source supply with
      ⟨said, image, _, outcome⟩ | ⟨pc, stops, outcome⟩ | ⟨line, cause, outcome⟩
    · have refused := outcome.symm.trans failure
      cases frames : said.map (LineTokens.frame image) <;> simp [frames, ofFrames] at refused
    · rw [outcome] at failure
      cases failure
      exact ⟨rfl, stops⟩
    · rw [outcome] at failure
      cases failure
  · rintro ⟨cause, stops⟩
    rw [read_of_stopsAtTop stops, ← cause]

theorem exists_accepts_of_read {listing : Listing}
    (success : ((read source).run.run supply).1 = .ok listing) :
    ∃ said image, Accepts true (spoken (source.toList.splitOn '\n')) said ∧
      listing.entry :: listing.frames = said.map (LineTokens.frame image) := by
  rcases read_three_ways source supply with
    ⟨said, image, accepts, outcome⟩ | ⟨_, _, outcome⟩ | ⟨_, _, outcome⟩
  · refine ⟨said, image, accepts, ?_⟩
    rw [success] at outcome
    cases frames : said.map (LineTokens.frame image) with
    | nil =>
        rw [frames] at outcome
        contradiction
    | cons entry others =>
        rw [frames] at outcome
        rw [Except.ok.inj outcome]
  · rw [outcome] at success
    contradiction
  · rw [outcome] at success
    contradiction

theorem exists_read_iff :
    (∃ listing, ((read source).run.run supply).1 = .ok listing) ↔
      ∃ said, said ≠ [] ∧ Accepts true (spoken (source.toList.splitOn '\n')) said := by
  constructor
  · rintro ⟨listing, success⟩
    obtain ⟨said, image, accepts, frames⟩ := exists_accepts_of_read success
    refine ⟨said, ?_, accepts⟩
    rintro rfl
    contradiction
  · rintro ⟨said, nonempty, accepts⟩
    obtain ⟨image, outcome⟩ := read_of_accepts accepts supply
    cases said with
    | nil => contradiction
    | cons first others => exact ⟨_, outcome⟩

/-- Every type of a listing that was read has the marker of its site. -/
theorem exists_image_of_read {listing : Listing}
    (success : ((read source).run.run supply).1 = .ok listing) :
    ∃ image : Site → Marker, ∀ type ∈ listing.types, type.relabel image = type := by
  obtain ⟨said, image, _, frames⟩ := exists_accepts_of_read success
  refine ⟨image, fun type member => ?_⟩
  obtain ⟨frame, frameMember, place⟩ := mem_types_iff.mp member
  rw [frames] at frameMember
  obtain ⟨line, _, rfl⟩ := List.mem_map.mp frameMember
  rcases place with inLocals | onStack
  · obtain ⟨token, _, found⟩ := List.mem_map.mp inLocals
    exact relabel_slot found
  · obtain ⟨token, _, found⟩ := List.mem_filterMap.mp onStack
    exact relabel_slot found

theorem Accepts.wellFormed {isEntry : Bool} {lines : List (List Char)} {said : List LineTokens}
    (accepts : Accepts isEntry lines said) (image : Site → Marker) :
    ∀ frame ∈ said.map (LineTokens.frame image), frame.locals.WellFormed := by
  induction accepts with
  | nil => exact List.forall_mem_nil _
  | cons acceptable _ _ ih => exact List.forall_mem_cons.mpr ⟨acceptable.wellFormed image, ih⟩

/-- A text is read if it says something and all its lines are accepted. A frame is refused only for
`top` on the stack of a line that is acceptable but for it. In a listing that was read the offsets
are in their range, wide locals have their holes, and types are the same if they are written so. -/
theorem read_outcome (source : String) (supply : MarkerSupply) :
    ((∃ listing, ((read source).run.run supply).1 = .ok listing) ↔
      ∃ said, said ≠ [] ∧ Accepts true (spoken (source.toList.splitOn '\n')) said) ∧
    (∀ fault, ((read source).run.run supply).1 = .error (.unbuildable fault) ↔
      fault.cause = .topOnStack ∧
        StopsAtTop true (spoken (source.toList.splitOn '\n')) fault.pc) ∧
    ∀ listing, ((read source).run.run supply).1 = .ok listing →
      listing.entry.pc = -1 ∧
      (∀ frame ∈ listing.frames, 0 ≤ frame.pc ∧ frame.pc ≤ 65535) ∧
      (∀ frame ∈ listing.entry :: listing.frames, frame.locals.WellFormed) ∧
      ∀ left ∈ listing.types, ∀ right ∈ listing.types,
        left.same right = true ↔ left.render = right.render := by
  refine ⟨exists_read_iff, fun fault => read_unbuildable_iff, fun listing success => ?_⟩
  obtain ⟨entryPc, pcs⟩ := pc_of_read success
  refine ⟨entryPc, pcs, ?_, ?_⟩
  · obtain ⟨said, image, accepts, frames⟩ := exists_accepts_of_read success
    rw [frames]
    exact accepts.wellFormed image
  · obtain ⟨image, labelled⟩ := exists_image_of_read success
    intro left leftMember right rightMember
    exact same_iff_render (labelled left leftMember) (labelled right rightMember)

end Read

/-- A wide local with its hole and an object in two positions; the same lines with `top` on a stack
behind them. -/
theorem read_outcome_wide_local :
    let source := "entry | this\n3 | D - new@3 | new@+3"
    let listing : Listing :=
      { entry := { pc := -1, locals := [some (.uninitializedThis ⟨5, 8⟩)] }
        frames := [
          { pc := 3
            locals := [some .double, none, some (.uninitialized 3 ⟨6, 9⟩)]
            stack := [.uninitialized 3 ⟨6, 9⟩] }] }
    ((read source).run.run ⟨5, 8⟩).1 = .ok listing ∧ listing.entry.pc = -1 ∧
      (∀ frame ∈ listing.entry :: listing.frames, frame.locals.WellFormed) ∧
      (∀ left ∈ listing.types, ∀ right ∈ listing.types,
        left.same right = true ↔ left.render = right.render) ∧
      StopsAtTop true (spoken ((source ++ "\n7 | | top").toList.splitOn '\n')) 7 := by
  intro source listing
  have success : ((read source).run.run ⟨5, 8⟩).1 = .ok listing := by decide +kernel
  have failure : ((read (source ++ "\n7 | | top")).run.run ⟨5, 8⟩).1 =
      .error (.unbuildable ⟨7, .topOnStack⟩) := by decide +kernel
  obtain ⟨entryPc, _, wellFormed, apart⟩ := (read_outcome source ⟨5, 8⟩).2.2 listing success
  obtain ⟨_, stops⟩ := ((read_outcome (source ++ "\n7 | | top") ⟨5, 8⟩).2.1 _).mp failure
  exact ⟨success, entryPc, wellFormed, apart, stops⟩

end Listing

end JvmFrames
