import JvmFrames.VerificationType

/-!
Copying as renaming. Whatever is copied in the course of one duplication, the copy is what comes out
when one function is applied to all the markers. That function gives different copies of markers
different new copies, which nothing else has, and keeps the origins.
-/

namespace JvmFrames

namespace VerificationType

def markers (type : VerificationType) : List Marker :=
  type.marker?.toList

def rename (change : Marker → Marker) : VerificationType → VerificationType
  | .uninitializedThis marker => .uninitializedThis (change marker)
  | .uninitialized offset marker => .uninitialized offset (change marker)
  | type => type

theorem marker?_rename (change : Marker → Marker) (type : VerificationType) :
    (type.rename change).marker? = type.marker?.map change := by
  cases type <;> rfl

theorem markers_rename (change : Marker → Marker) (type : VerificationType) :
    (type.rename change).markers = type.markers.map change := by
  cases type <;> rfl

theorem isWide_rename (change : Marker → Marker) (type : VerificationType) :
    (type.rename change).isWide = type.isWide := by
  cases type <;> rfl

theorem rename_eq_top_iff {change : Marker → Marker} {type : VerificationType} :
    type.rename change = .top ↔ type = .top := by
  cases type <;> simp [rename]

theorem forgetCopy_rename {change : Marker → Marker} {type : VerificationType}
    (origins : ∀ marker ∈ type.markers, (change marker).origin = marker.origin) :
    (type.rename change).forgetCopy = type.forgetCopy := by
  cases type with
  | uninitializedThis marker =>
      simp [rename, forgetCopy, Marker.forgetCopy, origins marker List.mem_cons_self]
  | uninitialized offset marker =>
      simp [rename, forgetCopy, Marker.forgetCopy, origins marker List.mem_cons_self]
  | _ => rfl

end VerificationType

structure Renaming (before after : MarkerSupply) (markers : List Marker)
    (change : Marker → Marker) : Prop where
  grown : before.nextCopy ≤ after.nextCopy
  fresh : ∀ marker ∈ markers,
    before.nextCopy ≤ (change marker).copy ∧ (change marker).copy < after.nextCopy
  apart : ∀ marker ∈ markers, ∀ other ∈ markers,
    (change marker).copy = (change other).copy → marker.copy = other.copy
  together : ∀ marker ∈ markers, ∀ other ∈ markers,
    marker.copy = other.copy → change marker = change other
  origin : ∀ marker ∈ markers, ∃ source ∈ markers,
    source.copy = marker.copy ∧ source.origin = (change marker).origin

namespace Copying

def Extends (before after : Copying) : Prop :=
  ∀ number copied, before.made.lookup number = some copied →
    after.made.lookup number = some copied

structure Sound (start : Nat) (sources : List Marker) (copying : Copying) : Prop where
  grown : start ≤ copying.supply.nextCopy
  fresh : ∀ number copied, copying.made.lookup number = some copied →
    start ≤ copied.copy ∧ copied.copy < copying.supply.nextCopy
  apart : ∀ number other copied otherCopied, copying.made.lookup number = some copied →
    copying.made.lookup other = some otherCopied → copied.copy = otherCopied.copy → number = other
  origin : ∀ number copied, copying.made.lookup number = some copied →
    ∃ source ∈ sources, source.copy = number ∧ source.origin = copied.origin

def image (copying : Copying) (marker : Marker) : Marker :=
  (copying.made.lookup marker.copy).getD marker

def Knows (copying : Copying) (marker : Marker) : Prop :=
  ∃ copied, copying.made.lookup marker.copy = some copied

theorem image_eq {copying : Copying} {marker copied : Marker}
    (known : copying.made.lookup marker.copy = some copied) : copying.image marker = copied := by
  rw [image, known]
  rfl

theorem Extends.refl (copying : Copying) : Extends copying copying :=
  fun _ _ known => known

theorem Extends.trans {first second third : Copying} (earlier : Extends first second)
    (later : Extends second third) : Extends first third :=
  fun number copied known => later number copied (earlier number copied known)

theorem Extends.knows {before after : Copying} (extended : Extends before after) {marker : Marker}
    (known : before.Knows marker) : after.Knows marker := by
  obtain ⟨copied, known⟩ := known
  exact ⟨copied, extended _ _ known⟩

theorem Extends.image {before after : Copying} (extended : Extends before after)
    {marker : Marker} (known : before.Knows marker) :
    after.image marker = before.image marker := by
  obtain ⟨copied, known⟩ := known
  rw [image_eq known, image_eq (extended _ _ known)]

theorem sound_start (supply : MarkerSupply) (sources : List Marker) :
    Sound supply.nextCopy sources { supply } := by
  refine ⟨Nat.le_refl _, ?_, ?_, ?_⟩ <;> simp

def make (copying : Copying) (marker : Marker) : Copying :=
  ⟨{ copying.supply with nextCopy := copying.supply.nextCopy + 1 },
    (marker.copy, ⟨marker.origin, copying.supply.nextCopy⟩) :: copying.made⟩

theorem lookup_make (copying : Copying) (marker : Marker) (number : Nat) :
    (copying.make marker).made.lookup number =
      if number = marker.copy then some ⟨marker.origin, copying.supply.nextCopy⟩
      else copying.made.lookup number := by
  by_cases here : number = marker.copy
  · simp [make, here]
  · rw [if_neg here, make, List.lookup_cons, beq_eq_false_iff_ne.mpr here]

theorem lookup_make_cases {copying : Copying} {marker copied : Marker} {number : Nat}
    (known : (copying.make marker).made.lookup number = some copied) :
    number = marker.copy ∧ copied = ⟨marker.origin, copying.supply.nextCopy⟩ ∨
      copying.made.lookup number = some copied := by
  rw [lookup_make] at known
  split at known
  · rename_i here
    exact .inl ⟨here, (Option.some.inj known).symm⟩
  · exact .inr known

theorem extends_make {copying : Copying} {marker : Marker}
    (missing : copying.made.lookup marker.copy = none) : Extends copying (copying.make marker) := by
  intro number copied known
  rw [lookup_make, if_neg]
  · exact known
  · rintro rfl
    rw [missing] at known
    contradiction

theorem Sound.make {start : Nat} {sources : List Marker} {copying : Copying}
    (sound : Sound start sources copying) {marker : Marker} (isSource : marker ∈ sources) :
    Sound start sources (copying.make marker) := by
  refine ⟨Nat.le_succ_of_le sound.grown, ?_, ?_, ?_⟩
  · intro number copied known
    rcases lookup_make_cases known with ⟨_, rfl⟩ | earlier
    · exact ⟨sound.grown, Nat.lt_succ_self _⟩
    · have bounds := sound.fresh number copied earlier
      exact ⟨bounds.1, Nat.lt_succ_of_lt bounds.2⟩
  -- The new copy number is beyond those of all earlier copies.
  · intro number other copied otherCopied known otherKnown same
    rcases lookup_make_cases known with ⟨rfl, rfl⟩ | earlier
    · rcases lookup_make_cases otherKnown with ⟨rfl, rfl⟩ | otherEarlier
      · rfl
      · have below := (sound.fresh other otherCopied otherEarlier).2
        rw [← same] at below
        exact absurd below (Nat.lt_irrefl _)
    · rcases lookup_make_cases otherKnown with ⟨rfl, rfl⟩ | otherEarlier
      · have below := (sound.fresh number copied earlier).2
        rw [same] at below
        exact absurd below (Nat.lt_irrefl _)
      · exact sound.apart number other copied otherCopied earlier otherEarlier same
  · intro number copied known
    rcases lookup_make_cases known with ⟨rfl, rfl⟩ | earlier
    · exact ⟨marker, isSource, rfl, rfl⟩
    · exact sound.origin number copied earlier

/-- A computation that copies the given markers returns what renaming them gives, by the change that
the duplication has decided on in the end. -/
structure Renames {β : Type} (start : Nat) (sources markers : List Marker)
    (copy : StateM Copying β) (renamed : (Marker → Marker) → β) : Prop where
  run : ∀ copying, Sound start sources copying → ∃ after,
    copy.run copying = (renamed after.image, after) ∧ Sound start sources after ∧
      Extends copying after ∧ ∀ marker ∈ markers, after.Knows marker
  congr : ∀ first second : Marker → Marker, (∀ marker ∈ markers, first marker = second marker) →
    renamed first = renamed second

variable {α β γ δ : Type} {start : Nat} {sources markers others : List Marker}

theorem renames_pure (value : β) : Renames start sources [] (pure value) fun _ => value where
  run copying sound := ⟨copying, rfl, sound, .refl copying, by simp⟩
  congr _ _ _ := rfl

theorem renames_marker {marker : Marker} (isSource : marker ∈ sources) :
    Renames start sources [marker] (Copying.marker marker) fun change => change marker where
  run copying sound := by
    cases known : copying.made.lookup marker.copy with
    | some copied =>
        refine ⟨copying, ?_, sound, .refl copying, ?_⟩
        · have run : (Copying.marker marker).run copying = (copied, copying) := by
            change Copying.marker marker copying = _
            rw [Copying.marker, known]
          rw [run, image_eq known]
        · intro other member
          rw [List.mem_singleton.mp member]
          exact ⟨copied, known⟩
    | none =>
        have run : (Copying.marker marker).run copying =
            (⟨marker.origin, copying.supply.nextCopy⟩, copying.make marker) := by
          change Copying.marker marker copying = _
          rw [Copying.marker, known]
          rfl
        have made := (lookup_make copying marker marker.copy).trans (if_pos rfl)
        refine ⟨copying.make marker, ?_, sound.make isSource, extends_make known, ?_⟩
        · rw [run, image_eq made]
        · intro other member
          rw [List.mem_singleton.mp member]
          exact ⟨_, made⟩
  congr _ _ agree := agree marker List.mem_cons_self

theorem Renames.combine {copy : StateM Copying β} {renamed : (Marker → Marker) → β}
    {copyOther : StateM Copying γ} {otherRenamed : (Marker → Marker) → γ}
    (first : Renames start sources markers copy renamed)
    (second : Renames start sources others copyOther otherRenamed) (combine : β → γ → δ) :
    Renames start sources (markers ++ others)
      (do
        let left ← copy
        let right ← copyOther
        pure (combine left right))
      fun change => combine (renamed change) (otherRenamed change) where
  run copying sound := by
    obtain ⟨middle, firstRun, soundMiddle, extendedMiddle, known⟩ := first.run copying sound
    obtain ⟨after, secondRun, soundAfter, extended, otherKnown⟩ := second.run middle soundMiddle
    have same : renamed middle.image = renamed after.image :=
      first.congr _ _ fun marker member => (extended.image (known marker member)).symm
    refine ⟨after, ?_, soundAfter, extendedMiddle.trans extended, ?_⟩
    · rw [StateT.run_bind, firstRun, ← same]
      change (do
        let right ← copyOther
        pure (combine (renamed middle.image) right)).run middle = _
      rw [StateT.run_bind, secondRun]
      rfl
    · intro marker member
      rcases List.mem_append.mp member with here | there
      · exact extended.knows (known marker here)
      · exact otherKnown marker there
  congr left right agree := by
    rw [first.congr left right fun marker member => agree marker (List.mem_append_left _ member),
      second.congr left right fun marker member => agree marker (List.mem_append_right _ member)]

theorem Renames.map {copy : StateM Copying β} {renamed : (Marker → Marker) → β}
    (renames : Renames start sources markers copy renamed) (change : β → γ) :
    Renames start sources markers
      (do
        let value ← copy
        pure (change value))
      fun rename => change (renamed rename) where
  run copying sound := by
    obtain ⟨after, run, rest⟩ := renames.run copying sound
    refine ⟨after, ?_, rest⟩
    rw [StateT.run_bind, run]
    rfl
  congr left right agree := congrArg change (renames.congr left right agree)

theorem renames_mapM {copy : α → StateM Copying β} {rename : (Marker → Marker) → α → β}
    {markersOf : α → List Marker} {items : List α}
    (each : ∀ item ∈ items,
      Renames start sources (markersOf item) (copy item) fun change => rename change item) :
    Renames start sources (items.flatMap markersOf) (items.mapM copy)
      fun change => items.map (rename change) := by
  induction items with
  | nil => exact renames_pure []
  | cons item rest ih =>
      rw [List.mapM_cons, List.flatMap_cons]
      exact (each item List.mem_cons_self).combine
        (ih fun other member => each other (List.mem_cons_of_mem _ member)) List.cons

theorem renames_type {type : VerificationType} (among : type.markers ⊆ sources) :
    Renames start sources type.markers type.copy fun change => type.rename change := by
  cases type with
  | uninitializedThis marker =>
      exact (renames_marker (among List.mem_cons_self)).map VerificationType.uninitializedThis
  | uninitialized offset marker =>
      exact (renames_marker (among List.mem_cons_self)).map (VerificationType.uninitialized offset)
  | _ => exact renames_pure _

/-- A whole duplication changes the markers it copies as a renaming. -/
theorem Renames.whole {copy : StateM Copying β} {renamed : (Marker → Marker) → β}
    {supply : MarkerSupply}
    (renames : Renames supply.nextCopy markers markers copy renamed) :
    ∃ change, (copy.run { supply }).1 = renamed change ∧
      Renaming supply (copy.run { supply }).2.supply markers change := by
  obtain ⟨after, run, sound, _, knows⟩ := renames.run _ (sound_start supply markers)
  refine ⟨after.image, by rw [run], ?_⟩
  rw [run]
  refine ⟨sound.grown, ?_, ?_, ?_, ?_⟩
  · intro marker member
    obtain ⟨copied, known⟩ := knows marker member
    rw [image_eq known]
    exact sound.fresh _ copied known
  · intro marker member other otherMember same
    obtain ⟨copied, known⟩ := knows marker member
    obtain ⟨otherCopied, otherKnown⟩ := knows other otherMember
    rw [image_eq known, image_eq otherKnown] at same
    exact sound.apart _ _ copied otherCopied known otherKnown same
  · intro marker member other _ same
    obtain ⟨copied, known⟩ := knows marker member
    rw [image_eq known, image_eq (same ▸ known)]
  · intro marker member
    obtain ⟨copied, known⟩ := knows marker member
    rw [image_eq known]
    exact sound.origin _ copied known

end Copying

end JvmFrames
