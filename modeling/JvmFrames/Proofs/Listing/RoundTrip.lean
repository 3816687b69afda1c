import JvmFrames.Proofs.Frame.Duplicate
import JvmFrames.Proofs.Listing.Reading
import Mathlib.Data.List.Forall2

/-!
Listings read back from the text they are written as. Offsets, holes and types come back in their
places. Markers are not written: a reader hands out its own, one for each site, so the origins come
back renamed, by one renaming for the whole listing.
-/

namespace JvmFrames

open MarkerBook VerificationType

namespace Listing

def marks (listing : Listing) : List (Site × Marker) :=
  (listing.entry :: listing.frames).flatMap Frame.marks

def MarkedBySite (listing : Listing) : Prop :=
  ∀ mark ∈ listing.marks, ∀ other ∈ listing.marks,
    mark.2.origin = other.2.origin ↔ mark.1 = other.1

instance (listing : Listing) : Decidable listing.MarkedBySite :=
  inferInstanceAs (Decidable (∀ mark ∈ listing.marks, ∀ other ∈ listing.marks, _))

def rename (change : Marker → Marker) (listing : Listing) : Listing :=
  ⟨listing.entry.rename change, listing.frames.map (Frame.rename change)⟩

def Same (left right : Listing) : Prop :=
  left.entry.same right.entry = true ∧
    List.Forall₂ (fun frame other => frame.same other = true) left.frames right.frames

def renamed (listing : Listing) (book : MarkerBook) (origin : Nat) : Nat :=
  match listing.marks.find? fun mark => mark.2.origin = origin with
  | some mark => (book.image mark.1).origin
  | none => book.supply.nextOrigin + origin

section Renamed

variable {listing : Listing} {book : MarkerBook}

theorem renamed_cases (listing : Listing) (book : MarkerBook) (origin : Nat) :
    (∃ mark ∈ listing.marks, mark.2.origin = origin ∧
      listing.renamed book origin = (book.image mark.1).origin) ∨
    listing.renamed book origin = book.supply.nextOrigin + origin := by
  unfold renamed
  cases found : listing.marks.find? fun mark => mark.2.origin = origin with
  | none => exact .inr rfl
  | some mark =>
      have same := List.find?_some found
      exact .inl ⟨mark, List.mem_of_find?_eq_some found, of_decide_eq_true same, rfl⟩

theorem renamed_mark (bySite : listing.MarkedBySite) {mark : Site × Marker}
    (member : mark ∈ listing.marks) :
    listing.renamed book mark.2.origin = (book.image mark.1).origin := by
  unfold renamed
  cases found : listing.marks.find? fun other => other.2.origin = mark.2.origin with
  | none => simpa using List.find?_eq_none.mp found mark member
  | some other =>
      have same := List.find?_some found
      have site := (bySite other (List.mem_of_find?_eq_some found) mark member).mp
        (of_decide_eq_true same)
      simp only [site]

theorem renamed_injective (bySite : listing.MarkedBySite) (sound : book.Sound)
    (knows : ∀ mark ∈ listing.marks, book.Knows mark.1) :
    Function.Injective (listing.renamed book) := by
  have below {mark : Site × Marker} (member : mark ∈ listing.marks) :
      (book.image mark.1).origin < book.supply.nextOrigin := by
    obtain ⟨marker, known⟩ := knows mark member
    rw [image_eq known]
    exact sound.below _ _ known
  -- Origins of the listing go below the supply, all others beyond it, so only like ones can meet.
  intro origin other same
  rcases listing.renamed_cases book origin with ⟨mark, member, rfl, image⟩ | beyond
  · rcases listing.renamed_cases book other with ⟨otherMark, otherMember, rfl, otherImage⟩ | beyond
    · rw [image, otherImage] at same
      obtain ⟨marker, known⟩ := knows mark member
      obtain ⟨otherMarker, otherKnown⟩ := knows otherMark otherMember
      rw [image_eq known, image_eq otherKnown] at same
      exact (bySite mark member otherMark otherMember).mpr
        (sound.apart _ _ marker otherMarker known otherKnown same)
    · have bound := below member
      omega
  · rcases listing.renamed_cases book other with ⟨otherMark, otherMember, rfl, image⟩ | otherBeyond
    · have bound := below otherMember
      omega
    · omega

end Renamed

end Listing

def Marker.mapOrigin (change : Nat → Nat) (marker : Marker) : Marker :=
  { marker with origin := change marker.origin }

theorem VerificationType.forgetCopy_rename_relabel {change : Nat → Nat} {image : Site → Marker}
    {type : VerificationType}
    (agree : ∀ mark ∈ type.mark?, change mark.2.origin = (image mark.1).origin) :
    (type.rename (Marker.mapOrigin change)).forgetCopy = (type.relabel image).forgetCopy := by
  cases type with
  | uninitializedThis marker =>
      have same := agree _ rfl
      simp only [rename, relabel, forgetCopy, Marker.forgetCopy, Marker.mapOrigin, same]
  | uninitialized offset marker =>
      have same := agree _ rfl
      simp only [rename, relabel, forgetCopy, Marker.forgetCopy, Marker.mapOrigin, same]
  | _ => rfl

theorem Frame.same_rename_relabel {change : Nat → Nat} {image : Site → Marker} {frame : Frame}
    (agree : ∀ mark ∈ frame.marks, change mark.2.origin = (image mark.1).origin) :
    (frame.rename (Marker.mapOrigin change)).same (frame.relabel image) = true := by
  have slot {type : VerificationType} (member : some type ∈ frame.slots) :
      (type.rename (Marker.mapOrigin change)).forgetCopy = (type.relabel image).forgetCopy :=
    forgetCopy_rename_relabel fun mark found =>
      agree mark (List.mem_flatMap.mpr ⟨some type, member, by simpa [slotMarks] using found⟩)
  have locals : (frame.rename (Marker.mapOrigin change)).locals.map (Option.map forgetCopy) =
      (frame.relabel image).locals.map (Option.map forgetCopy) := by
    rw [Frame.rename, relabel, List.map_map, List.map_map]
    refine List.map_congr_left fun cell member => ?_
    cases cell with
    | none => rfl
    | some type => exact congrArg some (slot (List.mem_append_left _ member))
  have stack : (frame.rename (Marker.mapOrigin change)).stack.map forgetCopy =
      (frame.relabel image).stack.map forgetCopy := by
    rw [Frame.rename, relabel, List.map_map, List.map_map]
    refine List.map_congr_left fun type member => slot (List.mem_append_right _ ?_)
    exact List.mem_map.mpr ⟨type, member, rfl⟩
  simp only [Frame.same, locals, stack, decide_true, Bool.and_true]
  simp [Frame.rename, relabel]

namespace Listing

/-- Reading what was written gives the listing back, with its markers renamed by one injection. -/
theorem read_write {written : Listing} (listable : written.Listable)
    (bySite : written.MarkedBySite) (supply : MarkerSupply) :
    ∃ found after, (read written.write).run.run supply = (.ok found, after) ∧
      ∃ change : Nat → Nat, Function.Injective change ∧
        (written.rename (Marker.mapOrigin change)).Same found := by
  obtain ⟨book, sound, knows, run⟩ := read_of_lines listable supply
  have knowsMarks : ∀ mark ∈ written.marks, book.Knows mark.1 := by
    intro mark member
    obtain ⟨frame, frameMember, markMember⟩ := List.mem_flatMap.mp member
    exact knows frame frameMember mark markMember
  have same : ∀ frame ∈ written.entry :: written.frames,
      (frame.rename (Marker.mapOrigin (written.renamed book))).same (frame.relabel book.image) := by
    intro frame member
    exact Frame.same_rename_relabel fun mark markMember =>
      renamed_mark bySite (List.mem_flatMap.mpr ⟨frame, member, markMember⟩)
  obtain ⟨entrySame, framesSame⟩ := List.forall_mem_cons.mp same
  refine ⟨_, _, run, written.renamed book, renamed_injective bySite sound knowsMarks, entrySame, ?_⟩
  refine List.forall₂_map_left_iff.mpr (List.forall₂_map_right_iff.mpr ?_)
  exact List.forall₂_same.mpr framesSame

/-- A constructor with two objects made at one offset and one made at another. -/
theorem read_write_constructor :
    let written : Listing :=
      { entry := { pc := -1, locals := [some (.uninitializedThis ⟨7, 0⟩), some .long, none] }
        frames := [
          { pc := 3
            locals :=
              [some (.uninitializedThis ⟨7, 1⟩), none, some .top, some (.object ⟨"[[Lp/A;"⟩)]
            stack := [.uninitialized 3 ⟨2, 2⟩, .uninitialized 3 ⟨2, 3⟩, .null, .object ⟨"p/B"⟩] },
          { pc := 65535, stack := [.uninitialized 9 ⟨4, 4⟩] }] }
    written.lines = ["entry | this J - | ", "3 | this - top [[Lp/A; | new@3 new@3 null Lp/B;",
      "65535 |  | new@9"] ∧
    written.Listable ∧ written.MarkedBySite ∧
      ∃ found after, (read written.write).run.run ⟨5, 8⟩ = (.ok found, after) ∧
        ∃ change : Nat → Nat, Function.Injective change ∧
          (written.rename (Marker.mapOrigin change)).Same found := by
  intro written
  have listable : written.Listable := by
    refine ⟨rfl, by decide, ?_⟩
    have wellFormed : ∀ frame ∈ written.entry :: written.frames,
        frame.locals.missingHole? 0 = none := by decide
    have noTop : ∀ frame ∈ written.entry :: written.frames, .top ∉ frame.stack := by decide
    have slots : ∀ frame ∈ written.entry :: written.frames, ∀ slot ∈ frame.slots,
        ∀ type ∈ slot, type.Listable := by decide
    intro frame member
    exact ⟨Locals.missingHole?_eq_none_iff.mp (wellFormed frame member), noTop frame member,
      slots frame member⟩
  have bySite : written.MarkedBySite := by decide
  exact ⟨by decide, listable, bySite, read_write listable bySite ⟨5, 8⟩⟩

end Listing

end JvmFrames
