import JvmFrames.Proofs.ConstantPool.Interning
import Mathlib.Data.List.Induction

/-!
Runs of requests to a pool. Whatever is asked for, and however often the pool is full, no constant
is held twice and every class refers to an earlier text. A number that has been given out stays
right, and a request fails only when what it lacks does not fit.
-/

namespace JvmFrames.ConstantPool

inductive Request where
  | text (content : String)
  | ofClass (name : BinaryName)
  deriving DecidableEq

namespace Request

def wanted (constants : List Constant) : Request → List Constant
  | .text content => [.utf8 content]
  | .ofClass name => classConstants constants name

def number (constants : List Constant) : Request → UInt16
  | .text content => index constants (.utf8 content)
  | .ofClass name => classIndex constants name

theorem stable {constants : List Constant} {request : Request}
    (present : request.wanted constants ⊆ constants) (more : List Constant) :
    request.wanted (constants ++ more) = request.wanted constants ∧
      request.number (constants ++ more) = request.number constants := by
  cases request with
  | text content => exact (interns_utf8 content).stable constants more present
  | ofClass name => exact (interns_classOf name).stable constants more present

def lacks (constants : List Constant) : Request → Nat
  | .text content => if .utf8 content ∈ constants then 0 else 1
  | .ofClass name =>
    if .utf8 name.text ∈ constants then
      if .classRef (index constants (.utf8 name.text)) ∈ constants then 0 else 1
    else
      2

end Request

def ask (pool : ConstantPool) : Request → Except PoolFull UInt16 × ConstantPool
  | .text content => (utf8 content).run.run pool
  | .ofClass name => (classOf name).run.run pool

def askAll (pool : ConstantPool) (requests : List Request) : ConstantPool :=
  requests.foldl (fun current request => (current.ask request).2) pool

def Resolves (pool : ConstantPool) : Request → UInt16 → Prop
  | .text content, number => pool.get? number = some (.utf8 content)
  | .ofClass name, number => ∃ nameIndex,
      pool.get? number = some (.classRef nameIndex) ∧ pool.get? nameIndex = some (.utf8 name.text)

structure Consistent (pool : ConstantPool) : Prop extends pool.Numbered where
  named : ∀ number nameIndex, pool.get? number = some (.classRef nameIndex) →
    nameIndex < number ∧ ∃ text, pool.get? nameIndex = some (.utf8 text)

theorem consistent_empty : empty.Consistent where
  distinct := List.nodup_nil
  bounded := by decide
  named number nameIndex found := by simp [get?_eq, empty, toList] at found

variable {pool grown : ConstantPool} {constant : Constant}

theorem bounds_of_get? {number : UInt16} (found : pool.get? number = some constant) :
    0 < number.toNat ∧ number.toNat ≤ pool.size ∧
      pool.toList[number.toNat - 1]? = some constant := by
  rw [get?_eq] at found
  split at found
  · contradiction
  · rename_i positive
    obtain ⟨inside, _⟩ := List.getElem?_eq_some_iff.mp found
    have nonzero : number.toNat ≠ 0 := fun zero => positive (UInt16.toNat_inj.mp zero)
    rw [length_toList] at inside
    exact ⟨by omega, by omega, found⟩

theorem Numbered.index_of_get? (numbered : pool.Numbered) {number : UInt16}
    (found : pool.get? number = some constant) : index pool.toList constant = number := by
  obtain ⟨positive, _, here⟩ := bounds_of_get? found
  have again := numbered.get?_index (List.mem_of_getElem? here)
  obtain ⟨againPositive, againInside, again⟩ := bounds_of_get? again
  rw [← length_toList] at againInside
  have place : (index pool.toList constant).toNat - 1 = number.toNat - 1 :=
    (List.getElem?_inj (by omega) numbered.distinct).mp (again.trans here.symm)
  exact UInt16.toNat_inj.mp (by omega)

theorem Numbered.get?_eq_some_iff (numbered : pool.Numbered) {number : UInt16} :
    pool.get? number = some constant ↔
      constant ∈ pool.toList ∧ number = index pool.toList constant := by
  constructor
  · intro found
    exact ⟨List.mem_of_getElem? (bounds_of_get? found).2.2, (numbered.index_of_get? found).symm⟩
  · rintro ⟨member, rfl⟩
    exact numbered.get?_index member

/-- With one more constant at its end, a pool gives that constant for the next number. -/
theorem get?_of_added_iff (added : grown.toList = pool.toList ++ [constant]) {number : UInt16}
    {other : Constant} :
    grown.get? number = some other ↔
      pool.get? number = some other ∨ number.toNat = pool.size + 1 ∧ other = constant := by
  constructor
  · intro found
    obtain ⟨positive, inside, here⟩ := bounds_of_get? found
    rw [added, List.getElem?_append] at here
    split at here
    · left
      rw [get?_eq, if_neg, here]
      rintro rfl
      contradiction
    · rename_i beyond
      have size : grown.size = pool.size + 1 := by
        rw [← length_toList, added, List.length_append, length_toList]
        rfl
      have last : number.toNat = pool.size + 1 := by
        rw [length_toList] at beyond
        omega
      rw [last, length_toList, Nat.add_sub_cancel, Nat.sub_self] at here
      exact .inr ⟨last, (Option.some.inj here).symm⟩
  · rintro (earlier | ⟨last, rfl⟩)
    · exact get?_of_prefix (added ▸ List.prefix_append _ _) earlier
    · have positive : number ≠ 0 := by
        rintro rfl
        contradiction
      rw [get?_eq, if_neg positive, added, last, Nat.add_sub_cancel, ← length_toList,
        List.getElem?_concat_length]

theorem Consistent.reference_lt (consistent : pool.Consistent) {nameIndex : UInt16}
    (member : .classRef nameIndex ∈ pool.toList) : nameIndex.toNat < pool.size := by
  have found := consistent.get?_index member
  have below := UInt16.lt_iff_toNat_lt.mp (consistent.named _ nameIndex found).1
  have inside := (bounds_of_get? found).2.1
  omega

theorem Consistent.add (consistent : pool.Consistent) (absent : constant ∉ pool.toList)
    (room : pool.size < 65534) (added : grown.toList = pool.toList ++ [constant])
    (named : ∀ nameIndex, constant = .classRef nameIndex →
      ∃ text, pool.get? nameIndex = some (.utf8 text)) : grown.Consistent where
  toNumbered := consistent.toNumbered.add absent room added
  named := by
    intro number nameIndex found
    have kept {text : String} (earlier : pool.get? nameIndex = some (.utf8 text)) :
        grown.get? nameIndex = some (.utf8 text) :=
      get?_of_prefix (added ▸ List.prefix_append _ _) earlier
    rcases (get?_of_added_iff added).mp found with earlier | ⟨last, same⟩
    · obtain ⟨below, text, held⟩ := consistent.named number nameIndex earlier
      exact ⟨below, text, kept held⟩
    · obtain ⟨text, held⟩ := named nameIndex same.symm
      have inside := (bounds_of_get? held).2.1
      exact ⟨UInt16.lt_iff_toNat_lt.mpr (by omega), text, kept held⟩

/-- What becomes of a request. It fails if what it lacks does not fit, and then has added nothing
but the text of a class name for which there was room. -/
inductive Answered (pool : ConstantPool) (request : Request) :
    Except PoolFull UInt16 × ConstantPool → Prop
  | done {after : ConstantPool} : after.Consistent → pool.toList <+: after.toList →
      request.wanted after.toList ⊆ after.toList →
      after.size = pool.size + request.lacks pool.toList →
      Answered pool request (.ok (request.number after.toList), after)
  | full {fault : PoolFull} {after : ConstantPool} : after.Consistent →
      65534 < pool.size + request.lacks pool.toList →
      (pool.size = 65534 ∧ after.toList = pool.toList ∨
        pool.size = 65533 ∧ ∃ name, request = .ofClass name ∧ .utf8 name.text ∉ pool.toList ∧
          after.toList = pool.toList ++ [.utf8 name.text]) →
      Answered pool request (.error fault, after)

theorem run_classOf (pool : ConstantPool) (name : BinaryName) :
    (classOf name).run.run pool =
      match (utf8 name.text).run.run pool with
      | (.ok nameIndex, middle) => (number (.classRef nameIndex)).run.run middle
      | (.error full, middle) => (.error full, middle) := by
  rw [classOf, run_bind]
  rcases (utf8 name.text).run.run pool with ⟨_ | _, middle⟩ <;> rfl

theorem Consistent.answered_text (consistent : pool.Consistent) (content : String) :
    Answered pool (.text content) (pool.ask (.text content)) := by
  have lookedUp := consistent.lookedUp (.utf8 content)
  change Answered pool (.text content) ((number (.utf8 content)).run.run pool)
  generalize (number (.utf8 content)).run.run pool = outcome at lookedUp
  cases lookedUp with
  | known member =>
      refine .done consistent List.prefix_rfl ?_ ?_
      · simpa [Request.wanted] using member
      · simp [Request.lacks, member]
  | @added grown absent room constants =>
      refine .done (consistent.add absent room constants fun _ same => by contradiction) ?_ ?_ ?_
      · exact constants ▸ List.prefix_append _ _
      · simp [Request.wanted, constants]
      · simp [Request.lacks, absent, ← length_toList, constants]
  | full absent full =>
      refine .full consistent ?_ (.inl ⟨full, rfl⟩)
      simp [Request.lacks, absent, full]

/-- The second half of a request for a class, in a pool that has the text of its name. -/
theorem Consistent.answered_reference (consistent : pool.Consistent) {name : BinaryName}
    (textMember : .utf8 name.text ∈ pool.toList) :
    Answered pool (.ofClass name)
      ((number (.classRef (index pool.toList (.utf8 name.text)))).run.run pool) := by
  have lookedUp := consistent.lookedUp (.classRef (index pool.toList (.utf8 name.text)))
  generalize (number (.classRef (index pool.toList (.utf8 name.text)))).run.run pool = outcome
    at lookedUp
  cases lookedUp with
  | known member =>
      refine .done consistent List.prefix_rfl ?_ ?_
      · simp [Request.wanted, classConstants, textMember, member]
      · simp [Request.lacks, textMember, member]
  | @added grown absent room constants =>
      have sameText := index_append_of_mem textMember
        [.classRef (index pool.toList (.utf8 name.text))]
      rw [← constants] at sameText
      rw [← sameText]
      refine .done (consistent.add absent room constants ?_) ?_ ?_ ?_
      · rintro _ ⟨⟩
        exact ⟨_, consistent.get?_index textMember⟩
      · exact constants ▸ List.prefix_append _ _
      · rw [Request.wanted, classConstants, sameText, constants]
        simp [textMember]
      · simp [Request.lacks, textMember, absent, ← length_toList, constants]
  | full absent full =>
      refine .full consistent ?_ (.inl ⟨full, rfl⟩)
      simp [Request.lacks, textMember, absent, full]

theorem Consistent.answered_class (consistent : pool.Consistent) (name : BinaryName) :
    Answered pool (.ofClass name) (pool.ask (.ofClass name)) := by
  have run : pool.ask (.ofClass name) = match (number (.utf8 name.text)).run.run pool with
      | (.ok nameIndex, middle) => (number (.classRef nameIndex)).run.run middle
      | (.error full, middle) => (.error full, middle) := run_classOf pool name
  have lookedUp := consistent.lookedUp (.utf8 name.text)
  generalize (number (.utf8 name.text)).run.run pool = outcome at lookedUp run
  cases lookedUp with
  | known textMember =>
      rw [run]
      exact consistent.answered_reference textMember
  | @added middle textAbsent room constants =>
      have lacks : Request.lacks pool.toList (.ofClass name) = 2 := by
        simp [Request.lacks, textAbsent]
      have middleConsistent := consistent.add textAbsent room constants fun _ same => by
        contradiction
      have textMember : .utf8 name.text ∈ middle.toList := by simp [constants]
      have size : middle.size = pool.size + 1 := by simp [← length_toList, constants]
      -- No class can refer to a text that has only just been added.
      have unreferred : .classRef (index middle.toList (.utf8 name.text)) ∉ middle.toList := by
        intro member
        have below := middleConsistent.reference_lt member
        rw [constants, index_of_append_singleton textAbsent, length_toList,
          UInt16.toNat_ofNat'] at below
        omega
      have lacksMiddle : Request.lacks middle.toList (.ofClass name) = 1 := by
        simp [Request.lacks, textMember, unreferred]
      have answered := middleConsistent.answered_reference textMember
      rw [run]
      dsimp only
      generalize (number (.classRef (index middle.toList (.utf8 name.text)))).run.run middle =
        outcome at answered
      cases answered with
      | done afterConsistent grown present afterSize =>
          refine .done afterConsistent ?_ present (by omega)
          exact (constants ▸ List.prefix_append _ _ : pool.toList <+: middle.toList).trans grown
      | full afterConsistent noRoom kept =>
          rcases kept with ⟨full, same⟩ | ⟨_, _, ⟨⟩, absent, _⟩
          · refine .full afterConsistent (by omega) (.inr ⟨by omega, name, rfl, textAbsent, ?_⟩)
            rw [same, constants]
          · exact absurd textMember absent
  | full textAbsent full =>
      rw [run]
      refine .full consistent ?_ (.inl ⟨full, rfl⟩)
      simp [Request.lacks, textAbsent, full]

theorem Consistent.answered (consistent : pool.Consistent) (request : Request) :
    Answered pool request (pool.ask request) := by
  cases request with
  | text content => exact consistent.answered_text content
  | ofClass name => exact consistent.answered_class name

theorem Answered.consistent {request : Request} {outcome : Except PoolFull UInt16 × ConstantPool}
    (answered : Answered pool request outcome) : outcome.2.Consistent := by
  cases answered with
  | done consistent => exact consistent
  | full consistent => exact consistent

theorem Answered.kept {request : Request} {outcome : Except PoolFull UInt16 × ConstantPool}
    (answered : Answered pool request outcome) : pool.toList <+: outcome.2.toList := by
  cases answered with
  | done _ grown => exact grown
  | full _ _ kept =>
      rcases kept with ⟨_, same⟩ | ⟨_, _, _, _, added⟩
      · exact same ▸ List.prefix_rfl
      · exact added ▸ List.prefix_append _ _

theorem Consistent.askAll (consistent : pool.Consistent) (requests : List Request) :
    (pool.askAll requests).Consistent := by
  induction requests generalizing pool with
  | nil => exact consistent
  | cons request rest ih => exact ih (consistent.answered request).consistent

theorem Consistent.askAll_kept (consistent : pool.Consistent) (requests : List Request) :
    pool.toList <+: (pool.askAll requests).toList := by
  induction requests generalizing pool with
  | nil => exact List.prefix_rfl
  | cons request rest ih =>
      have answered := consistent.answered request
      exact answered.kept.trans (ih answered.consistent)

theorem Consistent.resolves_iff (consistent : pool.Consistent) {request : Request}
    {number : UInt16} : pool.Resolves request number ↔
      request.wanted pool.toList ⊆ pool.toList ∧ number = request.number pool.toList := by
  cases request with
  | text content =>
      simp [Resolves, consistent.get?_eq_some_iff, Request.wanted, Request.number]
  | ofClass name =>
      simp only [Resolves, consistent.get?_eq_some_iff, Request.wanted, Request.number,
        classConstants, classIndex, List.cons_subset, List.nil_subset, and_true]
      constructor
      · rintro ⟨_, ⟨reference, number⟩, text, rfl⟩
        exact ⟨⟨text, reference⟩, number⟩
      · rintro ⟨⟨text, reference⟩, number⟩
        exact ⟨_, ⟨reference, number⟩, text, rfl⟩

theorem lacks_eq_zero_iff {request : Request} {constants : List Constant} :
    request.lacks constants = 0 ↔ request.wanted constants ⊆ constants := by
  cases request with
  | text content => simp [Request.lacks, Request.wanted]
  | ofClass name =>
      simp only [Request.lacks, Request.wanted, classConstants, List.cons_subset, List.nil_subset,
        and_true]
      split
      · rename_i text
        simp [text]
      · rename_i text
        simp [text]

theorem Consistent.unresolved_iff (consistent : pool.Consistent) {request : Request} :
    (∀ number, ¬ pool.Resolves request number) ↔ request.lacks pool.toList ≠ 0 := by
  simp only [consistent.resolves_iff, ne_eq, lacks_eq_zero_iff]
  constructor
  · exact fun unresolved present => unresolved _ ⟨present, rfl⟩
  · exact fun absent _ found => absent found.1

theorem Consistent.ask_eq_error_iff (consistent : pool.Consistent) {request : Request} :
    (∃ fault, (pool.ask request).1 = .error fault) ↔
      65534 < pool.size + request.lacks pool.toList := by
  have answered := consistent.answered request
  generalize pool.ask request = outcome at answered
  cases answered with
  | done afterConsistent _ _ size =>
      have bounded := afterConsistent.bounded
      simp
      omega
  | full _ noRoom _ => simp [noRoom]

/-- What is there is found under its number, and nothing is added. -/
theorem Consistent.ask_present (consistent : pool.Consistent) {request : Request}
    (present : request.wanted pool.toList ⊆ pool.toList) :
    (pool.ask request).1 = .ok (request.number pool.toList) := by
  have lacksNothing := lacks_eq_zero_iff.mpr present
  have answered := consistent.answered request
  generalize pool.ask request = outcome at answered
  cases answered with
  | done _ kept _ _ =>
      obtain ⟨more, constants⟩ := kept
      rw [← constants, (request.stable present more).2]
  | full _ noRoom _ =>
      have bounded := consistent.bounded
      omega

/-- A request that was answered is answered in the same way ever after, and its answer resolves. -/
theorem Consistent.answer_stays (consistent : pool.Consistent) {request : Request}
    {number : UInt16} (answer : (pool.ask request).1 = .ok number) (later : List Request) :
    ((pool.ask request).2.askAll later).Resolves request number ∧
      (((pool.ask request).2.askAll later).ask request).1 = .ok number := by
  have answered := consistent.answered request
  generalize pool.ask request = outcome at answered answer
  cases answered with
  | full _ _ _ => contradiction
  | @done after afterConsistent _ present _ =>
      obtain rfl := Except.ok.inj answer
      have lastConsistent := afterConsistent.askAll later
      obtain ⟨more, constants⟩ := afterConsistent.askAll_kept later
      obtain ⟨sameWanted, sameNumber⟩ := request.stable present more
      rw [constants] at sameWanted sameNumber
      have lastPresent : request.wanted (after.askAll later).toList ⊆
          (after.askAll later).toList := by
        rw [sameWanted, ← constants]
        exact List.Subset.trans present (List.subset_append_left _ _)
      rw [← sameNumber]
      exact ⟨lastConsistent.resolves_iff.mpr ⟨lastPresent, rfl⟩,
        lastConsistent.ask_present lastPresent⟩

/-- After any requests the pool is consistent. An answer it gives resolves the request and is given
again, whatever is asked in between. It fails to answer exactly if it has not got what is asked for
and has no room for it. Then it keeps its constants and adds none, unless the text of a class name
takes the last number. -/
theorem askAll_consistent (requests : List Request) :
    let pool := empty.askAll requests
    pool.Consistent ∧
    (∀ request number, (pool.ask request).1 = .ok number → ∀ later,
      let last := (pool.ask request).2.askAll later
      last.Resolves request number ∧ (last.ask request).1 = .ok number) ∧
    (∀ content, (∃ fault, (pool.ask (.text content)).1 = .error fault) ↔
      (∀ number, ¬ pool.Resolves (.text content) number) ∧ pool.size = 65534) ∧
    (∀ name, (∃ fault, (pool.ask (.ofClass name)).1 = .error fault) ↔
      (∀ number, ¬ pool.Resolves (.ofClass name) number) ∧
        65534 < pool.size + if .utf8 name.text ∈ pool.toList then 1 else 2) ∧
    ∀ request fault, (pool.ask request).1 = .error fault →
      pool.size = 65534 ∧ (pool.ask request).2.toList = pool.toList ∨
        pool.size = 65533 ∧ ∃ name, request = .ofClass name ∧ .utf8 name.text ∉ pool.toList ∧
          (pool.ask request).2.toList = pool.toList ++ [.utf8 name.text] := by
  intro pool
  have consistent : pool.Consistent := consistent_empty.askAll requests
  have bounded := consistent.bounded
  refine ⟨consistent, fun _ _ answer => consistent.answer_stays answer, ?_, ?_, ?_⟩
  · intro content
    rw [consistent.ask_eq_error_iff, consistent.unresolved_iff]
    simp only [Request.lacks]
    split <;> omega
  · intro name
    rw [consistent.ask_eq_error_iff, consistent.unresolved_iff]
    simp only [Request.lacks]
    split
    · split <;> omega
    · omega
  · intro request fault failed
    have answered := consistent.answered request
    generalize pool.ask request = outcome at answered failed
    cases answered with
    | done _ _ _ _ => contradiction
    | full _ _ kept => exact kept

theorem toList_askAll_texts {contents : List String} (distinct : contents.Nodup)
    (bounded : contents.length ≤ 65534) :
    (empty.askAll (contents.map .text)).toList = contents.map .utf8 := by
  induction contents using List.reverseRecOn with
  | nil => rfl
  | append_singleton contents last ih =>
      rw [List.length_append, List.length_singleton] at bounded
      obtain ⟨earlier, _, apart⟩ := List.nodup_append.mp distinct
      have constants := ih earlier (by omega)
      have absent : .utf8 last ∉ contents.map Constant.utf8 := by
        intro member
        obtain ⟨_, other, ⟨⟩⟩ := List.mem_map.mp member
        exact apart last other last List.mem_cons_self rfl
      have lookedUp := (consistent_empty.askAll (contents.map .text)).lookedUp (.utf8 last)
      have run : empty.askAll ((contents ++ [last]).map .text) =
          ((number (.utf8 last)).run.run (empty.askAll (contents.map .text))).2 := by
        rw [List.map_append, askAll, List.foldl_append]
        rfl
      rw [run]
      generalize (number (.utf8 last)).run.run (empty.askAll (contents.map .text)) = outcome
        at lookedUp
      cases lookedUp with
      | known member => exact absurd (constants ▸ member) absent
      | added _ _ added => rw [added, constants, List.map_append, List.map_singleton]
      | full _ full =>
          rw [← length_toList, constants, List.length_map] at full
          omega

/-- Texts for all numbers but the last: a class finds room for its name only, which stays. -/
theorem askAll_consistent_last_number :
    let contents := (List.range 65533).map fun length => String.ofList (List.replicate length 'a')
    let pool := empty.askAll (contents.map .text)
    (∃ fault, (pool.ask (.ofClass ⟨"p/A"⟩)).1 = .error fault) ∧
      (pool.ask (.ofClass ⟨"p/A"⟩)).2.toList = pool.toList ++ [.utf8 "p/A"] := by
  intro contents pool
  have distinct : contents.Nodup := by
    refine List.Pairwise.map _ ?_ List.nodup_range
    intro left right different same
    exact different (by simpa using congrArg String.length same)
  have constants : pool.toList = contents.map .utf8 :=
    toList_askAll_texts distinct (by simp [contents])
  have size : pool.size = 65533 := by
    rw [← length_toList, constants]
    simp [contents]
  have absent : .utf8 "p/A" ∉ pool.toList := by
    rw [constants]
    intro member
    obtain ⟨content, isContent, same⟩ := List.mem_map.mp member
    obtain ⟨length, _, rfl⟩ := List.mem_map.mp isContent
    have letters := congrArg String.toList (Constant.utf8.inj same)
    have slash : '/' ∈ List.replicate length 'a' := by
      rw [← String.toList_ofList (l := List.replicate length 'a'), letters]
      decide
    exact absurd (List.eq_of_mem_replicate slash) (by decide)
  obtain ⟨consistent, _, _, fails, kept⟩ := askAll_consistent (contents.map .text)
  have unresolved : ∀ number, ¬ pool.Resolves (.ofClass ⟨"p/A"⟩) number := by
    rintro number ⟨nameIndex, _, text⟩
    exact absent (consistent.get?_eq_some_iff.mp text).1
  have failed : ∃ fault, (pool.ask (.ofClass ⟨"p/A"⟩)).1 = .error fault := by
    refine (fails ⟨"p/A"⟩).mpr ⟨unresolved, ?_⟩
    rw [if_neg absent]
    change 65534 < pool.size + 2
    omega
  obtain ⟨fault, failure⟩ := failed
  rcases kept _ fault failure with ⟨full, _⟩ | ⟨_, name, same, _, added⟩
  · exact absurd (size.symm.trans full) (by decide)
  · cases same
    exact ⟨⟨fault, failure⟩, added⟩

end JvmFrames.ConstantPool
