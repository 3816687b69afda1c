import JvmFrames.Listing.Token

/-!
Markers of a listing. A listing does not write markers, only the sites they belong to: the receiver
of the constructor, or an offset at which objects are made. The book of a reader gives every site
one marker when it first meets it and keeps it for the rest of the text, so what a reader makes of a
text is known from the sites in it and the book at the end.
-/

namespace JvmFrames

inductive Site where
  | receiver
  | created (offset : UInt16)
  deriving DecidableEq, Repr

namespace VerificationType

def mark? : VerificationType → Option (Site × Marker)
  | .uninitializedThis marker => some (.receiver, marker)
  | .uninitialized offset marker => some (.created offset, marker)
  | _ => none

def relabel (image : Site → Marker) : VerificationType → VerificationType
  | .uninitializedThis _ => .uninitializedThis (image .receiver)
  | .uninitialized offset _ => .uninitialized offset (image (.created offset))
  | type => type

theorem isWide_relabel (image : Site → Marker) (type : VerificationType) :
    (type.relabel image).isWide = type.isWide := by
  cases type <;> rfl

end VerificationType

namespace MarkerBook

def marker? (book : MarkerBook) : Site → Option Marker
  | .receiver => book.receiver
  | .created offset => book.created.lookup offset

def take : Site → StateM MarkerBook Marker
  | .receiver => receiverMarker
  | .created offset => createdMarker offset

def next (book : MarkerBook) : Marker :=
  ⟨book.supply.nextOrigin, book.supply.nextCopy⟩

def enter (book : MarkerBook) : Site → MarkerBook
  | .receiver =>
      { book with
        supply := ⟨book.supply.nextOrigin + 1, book.supply.nextCopy + 1⟩
        receiver := some book.next }
  | .created offset =>
      { book with
        supply := ⟨book.supply.nextOrigin + 1, book.supply.nextCopy + 1⟩
        created := (offset, book.next) :: book.created }

theorem take_known {book : MarkerBook} {site : Site} {marker : Marker}
    (known : book.marker? site = some marker) : (take site).run book = (marker, book) := by
  cases site with
  | receiver =>
      change receiverMarker book = _
      have known : book.receiver = some marker := known
      rw [receiverMarker, known]
  | created offset =>
      change createdMarker offset book = _
      have known : book.created.lookup offset = some marker := known
      rw [createdMarker, known]

theorem take_new {book : MarkerBook} {site : Site} (new : book.marker? site = none) :
    (take site).run book = (book.next, book.enter site) := by
  cases site with
  | receiver =>
      change receiverMarker book = _
      have new : book.receiver = none := new
      rw [receiverMarker, new]
      rfl
  | created offset =>
      change createdMarker offset book = _
      have new : book.created.lookup offset = none := new
      rw [createdMarker, new]
      rfl

theorem marker?_enter (book : MarkerBook) (site other : Site) :
    (book.enter site).marker? other =
      if other = site then some book.next else book.marker? other := by
  cases site with
  | receiver => cases other <;> simp [enter, marker?]
  | created offset =>
      cases other with
      | receiver => simp [enter, marker?]
      | created otherOffset =>
          by_cases here : otherOffset = offset
          · simp [enter, marker?, here]
          · simp [enter, marker?, here, List.lookup_cons, beq_eq_false_iff_ne.mpr here]

theorem nextOrigin_enter (book : MarkerBook) (site : Site) :
    (book.enter site).supply.nextOrigin = book.supply.nextOrigin + 1 := by
  cases site <;> rfl

structure Sound (book : MarkerBook) : Prop where
  below : ∀ site marker, book.marker? site = some marker → marker.origin < book.supply.nextOrigin
  apart : ∀ site other marker otherMarker, book.marker? site = some marker →
    book.marker? other = some otherMarker → marker.origin = otherMarker.origin → site = other

def Extends (before after : MarkerBook) : Prop :=
  ∀ site marker, before.marker? site = some marker → after.marker? site = some marker

def Knows (book : MarkerBook) (site : Site) : Prop :=
  ∃ marker, book.marker? site = some marker

def image (book : MarkerBook) (site : Site) : Marker :=
  (book.marker? site).getD book.next

theorem image_eq {book : MarkerBook} {site : Site} {marker : Marker}
    (known : book.marker? site = some marker) : book.image site = marker := by
  rw [image, known]
  rfl

theorem Extends.refl (book : MarkerBook) : Extends book book :=
  fun _ _ known => known

theorem Extends.trans {first second third : MarkerBook} (earlier : Extends first second)
    (later : Extends second third) : Extends first third :=
  fun site marker known => later site marker (earlier site marker known)

theorem Extends.knows {before after : MarkerBook} (extended : Extends before after) {site : Site}
    (known : before.Knows site) : after.Knows site := by
  obtain ⟨marker, known⟩ := known
  exact ⟨marker, extended _ _ known⟩

theorem Extends.image {before after : MarkerBook} (extended : Extends before after) {site : Site}
    (known : before.Knows site) : after.image site = before.image site := by
  obtain ⟨marker, known⟩ := known
  rw [image_eq known, image_eq (extended _ _ known)]

theorem sound_start (supply : MarkerSupply) : Sound { supply } := by
  have empty (site : Site) : marker? { supply } site = none := by
    cases site <;> rfl
  constructor <;> simp [empty]

theorem extends_enter {book : MarkerBook} {site : Site} (new : book.marker? site = none) :
    Extends book (book.enter site) := by
  intro other marker known
  rw [marker?_enter, if_neg]
  · exact known
  · rintro rfl
    rw [new] at known
    contradiction

theorem marker?_enter_cases {book : MarkerBook} {site other : Site} {marker : Marker}
    (known : (book.enter site).marker? other = some marker) :
    other = site ∧ marker = book.next ∨ book.marker? other = some marker := by
  rw [marker?_enter] at known
  split at known
  · rename_i here
    exact .inl ⟨here, (Option.some.inj known).symm⟩
  · exact .inr known

theorem Sound.enter {book : MarkerBook} (sound : Sound book) (site : Site) :
    Sound (book.enter site) := by
  constructor
  · intro other marker known
    rw [nextOrigin_enter]
    rcases marker?_enter_cases known with ⟨_, rfl⟩ | earlier
    · exact Nat.lt_succ_self _
    · exact Nat.lt_succ_of_lt (sound.below other marker earlier)
  -- The new origin is beyond those of all earlier sites.
  · intro left right marker otherMarker known otherKnown same
    rcases marker?_enter_cases known with ⟨rfl, rfl⟩ | earlier
    · rcases marker?_enter_cases otherKnown with ⟨rfl, _⟩ | otherEarlier
      · rfl
      · exact absurd same (Nat.ne_of_gt (sound.below right otherMarker otherEarlier))
    · rcases marker?_enter_cases otherKnown with ⟨rfl, rfl⟩ | otherEarlier
      · exact absurd same (Nat.ne_of_lt (sound.below left marker earlier))
      · exact sound.apart left right marker otherMarker earlier otherEarlier same

/-- A reader that meets the given sites and does not fail: what it returns is told by the markers
that the sites have in the end. -/
structure Reads {ε α : Type} (sites : List Site) (reader : ExceptT ε (StateM MarkerBook) α)
    (result : (Site → Marker) → α) : Prop where
  run : ∀ book, Sound book → ∃ after, reader.run.run book = (.ok (result after.image), after) ∧
    Sound after ∧ Extends book after ∧ ∀ site ∈ sites, after.Knows site
  congr : ∀ first second : Site → Marker, (∀ site ∈ sites, first site = second site) →
    result first = result second

variable {ε α β : Type} {sites others : List Site}

theorem reads_pure (value : α) :
    Reads [] (pure value : ExceptT ε (StateM MarkerBook) α) fun _ => value where
  run book sound := ⟨book, rfl, sound, .refl book, by simp⟩
  congr _ _ _ := rfl

theorem reads_take (site : Site) (change : Marker → α) :
    Reads [site]
      (liftM (take site >>= fun marker => pure (change marker)) : ExceptT ε (StateM MarkerBook) α)
      fun image => change (image site) where
  run book sound := by
    have run (marker : Marker) (after : MarkerBook)
        (taken : (take site).run book = (marker, after)) :
        (liftM (take site >>= fun marker => pure (change marker)) :
          ExceptT ε (StateM MarkerBook) α).run.run book = (.ok (change marker), after) := by
      change (do
        let value ← take site >>= fun marker => pure (change marker)
        pure (Except.ok value)).run book = _
      rw [bind_assoc, StateT.run_bind, taken]
      rfl
    cases known : book.marker? site with
    | some marker =>
        refine ⟨book, ?_, sound, .refl book, ?_⟩
        · rw [image_eq known]
          exact run marker book (take_known known)
        · intro other member
          rw [List.mem_singleton.mp member]
          exact ⟨marker, known⟩
    | none =>
        have entered := (marker?_enter book site site).trans (if_pos rfl)
        refine ⟨book.enter site, ?_, sound.enter site, extends_enter known, ?_⟩
        · rw [image_eq entered]
          exact run book.next _ (take_new known)
        · intro other member
          rw [List.mem_singleton.mp member]
          exact ⟨_, entered⟩
  congr _ _ agree := congrArg change (agree site List.mem_cons_self)

theorem Reads.of_run {reader : ExceptT ε (StateM MarkerBook) α} {result : (Site → Marker) → α}
    (reads : Reads sites reader result) {book after : MarkerBook} (sound : Sound book) {value : α}
    (run : reader.run.run book = (.ok value, after)) :
    value = result after.image ∧ Sound after ∧ Extends book after ∧
      ∀ site ∈ sites, after.Knows site := by
  obtain ⟨found, success, rest⟩ := reads.run book sound
  obtain ⟨same, rfl⟩ := Prod.mk.inj (run.symm.trans success)
  exact ⟨Except.ok.inj same, rest⟩

/-- What follows may depend on what was read before, and on the markers that it holds. -/
theorem Reads.bind {reader : ExceptT ε (StateM MarkerBook) α} {result : (Site → Marker) → α}
    {next : α → ExceptT ε (StateM MarkerBook) β} (first : Reads sites reader result)
    (nextResult : α → (Site → Marker) → β)
    (second : ∀ image value, result image = value →
      Reads others (next value) (nextResult value)) :
    Reads (sites ++ others) (reader >>= next) fun image => nextResult (result image) image where
  run book sound := by
    obtain ⟨middle, firstRun, soundMiddle, extendedMiddle, known⟩ := first.run book sound
    obtain ⟨after, secondRun, soundAfter, extended, otherKnown⟩ :=
      (second middle.image _ rfl).run middle soundMiddle
    have same : result middle.image = result after.image :=
      first.congr _ _ fun site member => (extended.image (known site member)).symm
    refine ⟨after, ?_, soundAfter, extendedMiddle.trans extended, ?_⟩
    · rw [ExceptT.run_bind, StateT.run_bind, firstRun, ← same]
      exact secondRun
    · intro site member
      rcases List.mem_append.mp member with here | there
      · exact extended.knows (known site here)
      · exact otherKnown site there
  congr left right agree := by
    rw [first.congr left right fun site member => agree site (List.mem_append_left _ member),
      (second right _ rfl).congr left right
        fun site member => agree site (List.mem_append_right _ member)]

theorem Reads.map {reader : ExceptT ε (StateM MarkerBook) α} {result : (Site → Marker) → α}
    (reads : Reads sites reader result) (change : α → β) :
    Reads sites (reader >>= fun value => pure (change value))
      fun image => change (result image) := by
  have mapped := reads.bind (fun value _ => change value)
    fun _ value _ => reads_pure (change value)
  rwa [List.append_nil] at mapped

end MarkerBook

end JvmFrames
