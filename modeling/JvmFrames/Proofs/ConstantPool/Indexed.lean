import JvmFrames.Proofs.ConstantPool.Requests

/-!
A pool with two maps: one from texts and one from the names of classes, which finds a class without
looking for its text. It gives the answers of the pool with one map from constants and holds the
same constants, also when there is no room left.
-/

namespace JvmFrames

open ConstantPool

structure IndexedPool where
  constants : Array Constant := #[]
  texts : Std.HashMap String UInt16 := ∅
  classes : Std.HashMap BinaryName UInt16 := ∅

abbrev IndexedPoolM := ExceptT PoolFull (StateM IndexedPool)

namespace IndexedPool

def known (pool : IndexedPool) : Request → Option UInt16
  | .text content => pool.texts[content]?
  | .ofClass name => pool.classes[name]?

def remember (pool : IndexedPool) (number : UInt16) : Request → IndexedPool
  | .text content => { pool with texts := pool.texts.insert content number }
  | .ofClass name => { pool with classes := pool.classes.insert name number }

def append (constant : Constant) : IndexedPoolM UInt16 := do
  let pool ← get
  let next := pool.constants.size + 1
  if next < 65535 then
    set { pool with constants := pool.constants.push constant }
    pure (UInt16.ofNat next)
  else
    throw ⟨constant⟩

def findOr (request : Request) (make : IndexedPoolM UInt16) : IndexedPoolM UInt16 := do
  match (← get).known request with
  | some number => pure number
  | none =>
    let number ← make
    modify fun pool => pool.remember number request
    pure number

def utf8 (content : String) : IndexedPoolM UInt16 :=
  findOr (.text content) (append (.utf8 content))

def classOf (name : BinaryName) : IndexedPoolM UInt16 :=
  findOr (.ofClass name) do
    let nameIndex ← utf8 name.text
    append (.classRef nameIndex)

def ask (pool : IndexedPool) : Request → Except PoolFull UInt16 × IndexedPool
  | .text content => (utf8 content).run.run pool
  | .ofClass name => (classOf name).run.run pool

def askAll (pool : IndexedPool) (requests : List Request) : IndexedPool :=
  requests.foldl (fun current request => (current.ask request).2) pool

theorem known_remember (pool : IndexedPool) (number : UInt16) (request other : Request) :
    (pool.remember number request).known other =
      if request = other then some number else pool.known other := by
  cases request with
  | text content =>
      cases other with
      | text other => simp [remember, known, Std.HashMap.getElem?_insert]
      | ofClass name => rfl
  | ofClass name =>
      cases other with
      | text content => rfl
      | ofClass other => simp [remember, known, Std.HashMap.getElem?_insert]

theorem run_append (pool : IndexedPool) (constant : Constant) :
    (append constant).run.run pool =
      if pool.constants.size + 1 < 65535 then
        (.ok (UInt16.ofNat (pool.constants.size + 1)),
          { pool with constants := pool.constants.push constant })
      else
        (.error ⟨constant⟩, pool) := by
  rw [append, run_get_bind]
  dsimp only
  split <;> rfl

theorem run_findOr_of_known {pool : IndexedPool} {request : Request} {number : UInt16}
    (known : pool.known request = some number) (make : IndexedPoolM UInt16) :
    (findOr request make).run.run pool = (.ok number, pool) := by
  rw [findOr, run_get_bind, known]
  rfl

def enter (request : Request) :
    Except PoolFull UInt16 × IndexedPool → Except PoolFull UInt16 × IndexedPool
  | (.ok number, pool) => (.ok number, pool.remember number request)
  | (.error full, pool) => (.error full, pool)

theorem run_findOr_of_unknown {pool : IndexedPool} {request : Request}
    (unknown : pool.known request = none) (make : IndexedPoolM UInt16) :
    (findOr request make).run.run pool = enter request (make.run.run pool) := by
  rw [findOr, run_get_bind, unknown]
  dsimp only
  rw [run_bind]
  rcases make.run.run pool with ⟨_ | _, after⟩ <;> rfl

theorem run_classOf_of_unknown {pool : IndexedPool} {name : BinaryName}
    (unknown : pool.known (.ofClass name) = none) :
    (classOf name).run.run pool = enter (.ofClass name)
      (match (utf8 name.text).run.run pool with
      | (.ok nameIndex, middle) => (append (.classRef nameIndex)).run.run middle
      | (.error full, middle) => (.error full, middle)) := by
  rw [classOf, run_findOr_of_unknown unknown, run_bind]
  rcases (utf8 name.text).run.run pool with ⟨_ | _, middle⟩ <;> rfl

theorem known_utf8 (pool : IndexedPool) (content : String) (name : BinaryName) :
    ((utf8 content).run.run pool).2.known (.ofClass name) = pool.known (.ofClass name) := by
  cases found : pool.known (.text content) with
  | some number => rw [utf8, run_findOr_of_known found]
  | none =>
      rw [utf8, run_findOr_of_unknown found, run_append]
      split <;> rfl

end IndexedPool

namespace ConstantPool

variable {pool grown : ConstantPool} {indexed : IndexedPool} {request : Request} {number : UInt16}

theorem Numbered.position_of_get? (numbered : pool.Numbered) {constant : Constant}
    (found : pool.get? number = some constant) : position pool.toList constant = some number := by
  obtain ⟨member, rfl⟩ := numbered.get?_eq_some_iff.mp found
  exact position_of_mem member

/-- The number of a text that was added resolves that text, and no class yet. -/
theorem Consistent.resolves_added_text (consistent : pool.Consistent) {content : String}
    (added : grown.toList = pool.toList ++ [.utf8 content]) :
    grown.Resolves request number ↔
      pool.Resolves request number ∨ number.toNat = pool.size + 1 ∧ request = .text content := by
  cases request with
  | text other => simp [Resolves, get?_of_added_iff added]
  | ofClass name =>
      simp only [Resolves, get?_of_added_iff added, reduceCtorEq, and_false, or_false]
      refine exists_congr fun nameIndex => and_congr_right fun reference => or_iff_left ?_
      rintro ⟨last, _⟩
      have below := UInt16.lt_iff_toNat_lt.mp (consistent.named number nameIndex reference).1
      have inside := (bounds_of_get? reference).2.1
      omega

theorem resolves_added_class {name : BinaryName} {nameIndex : UInt16}
    (held : pool.get? nameIndex = some (.utf8 name.text))
    (added : grown.toList = pool.toList ++ [.classRef nameIndex]) :
    grown.Resolves request number ↔
      pool.Resolves request number ∨ number.toNat = pool.size + 1 ∧ request = .ofClass name := by
  cases request with
  | text other => simp [Resolves, get?_of_added_iff added]
  | ofClass other =>
      simp only [Resolves, get?_of_added_iff added, reduceCtorEq, and_false, or_false,
        Constant.classRef.injEq, Request.ofClass.injEq]
      constructor
      · rintro ⟨otherIndex, reference | ⟨last, rfl⟩, text⟩
        · exact .inl ⟨otherIndex, reference, text⟩
        · rw [held, Option.some.injEq, Constant.utf8.injEq] at text
          exact .inr ⟨last, congrArg BinaryName.mk text.symm⟩
      · rintro (⟨otherIndex, reference, text⟩ | ⟨last, rfl⟩)
        · exact ⟨otherIndex, .inl reference, text⟩
        · exact ⟨nameIndex, .inr ⟨last, rfl⟩, held⟩

structure ShownBy (pool : ConstantPool) (indexed : IndexedPool) : Prop where
  constants : indexed.constants.toList = pool.toList
  known : ∀ request number, indexed.known request = some number ↔ pool.Resolves request number

theorem shownBy_empty : empty.ShownBy {} where
  constants := rfl
  known request number := by
    cases request <;> simp [IndexedPool.known, Resolves, get?_eq, empty, toList]

namespace ShownBy

theorem size (shown : pool.ShownBy indexed) : indexed.constants.size = pool.size := by
  rw [← Array.length_toList, shown.constants, length_toList]

theorem unknown (shown : pool.ShownBy indexed)
    (unresolved : ∀ number, ¬pool.Resolves request number) : indexed.known request = none := by
  cases known : indexed.known request with
  | none => rfl
  | some number => exact absurd ((shown.known request number).mp known) (unresolved number)

theorem remember {constant : Constant} (shown : pool.ShownBy indexed) (room : pool.size < 65534)
    (added : grown.toList = pool.toList ++ [constant])
    (resolves : ∀ other number, grown.Resolves other number ↔
      pool.Resolves other number ∨ number.toNat = pool.size + 1 ∧ other = request)
    (unresolved : ∀ number, ¬pool.Resolves request number) :
    grown.ShownBy
      ({ indexed with constants := indexed.constants.push constant }.remember
        (UInt16.ofNat (pool.size + 1)) request) where
  constants := by
    cases request <;> rw [added, ← shown.constants] <;> exact Array.toList_push
  known other number := by
    rw [IndexedPool.known_remember, resolves]
    by_cases same : request = other
    · subst same
      simp only [if_true, unresolved, false_or, and_true, Option.some.injEq]
      rw [← UInt16.toNat_inj, UInt16.toNat_ofNat']
      omega
    · rw [if_neg same, ← shown.known]
      simp only [Ne.symm same, and_false, or_false]
      cases request <;> rfl

def SameAnswer (outcome : Except PoolFull UInt16 × ConstantPool)
    (answer : Except PoolFull UInt16 × IndexedPool) : Prop :=
  answer.1 = outcome.1 ∧ outcome.2.ShownBy answer.2

theorem append {constant : Constant} (shown : pool.ShownBy indexed)
    (absent : constant ∉ pool.toList)
    (resolves : ∀ grown : ConstantPool, grown.toList = pool.toList ++ [constant] →
      ∀ other number, grown.Resolves other number ↔
        pool.Resolves other number ∨ number.toNat = pool.size + 1 ∧ other = request)
    (unresolved : ∀ number, ¬pool.Resolves request number) :
    SameAnswer ((ConstantPool.number constant).run.run pool)
      (IndexedPool.enter request ((IndexedPool.append constant).run.run indexed)) := by
  rw [IndexedPool.run_append, shown.size]
  by_cases room : pool.size + 1 < 65535
  · obtain ⟨grown, run, added⟩ := run_number_absent (position_eq_none_iff.mpr absent) room
    rw [run, if_pos room]
    exact ⟨rfl, shown.remember (by omega) added (resolves grown added) unresolved⟩
  · rw [run_number_full (position_eq_none_iff.mpr absent) room, if_neg room]
    exact ⟨rfl, shown⟩

theorem ask_text (shown : pool.ShownBy indexed) (consistent : pool.Consistent) (content : String) :
    SameAnswer (pool.ask (.text content)) (indexed.ask (.text content)) := by
  by_cases member : .utf8 content ∈ pool.toList
  · have held := consistent.get?_index member
    have known := (shown.known (.text content) _).mpr held
    have answer : indexed.ask (.text content) = _ := IndexedPool.run_findOr_of_known known _
    have outcome : pool.ask (.text content) = _ := run_number_present (position_of_mem member)
    rw [answer, outcome]
    exact ⟨rfl, shown⟩
  · have unresolved (number : UInt16) : ¬pool.Resolves (.text content) number := fun held =>
      member (consistent.get?_eq_some_iff.mp held).1
    have answer : indexed.ask (.text content) = _ :=
      IndexedPool.run_findOr_of_unknown (shown.unknown unresolved) _
    rw [answer]
    exact shown.append member (fun _ added _ _ => consistent.resolves_added_text added) unresolved

theorem append_reference (shown : pool.ShownBy indexed) (consistent : pool.Consistent)
    {name : BinaryName} {nameIndex : UInt16} (held : pool.get? nameIndex = some (.utf8 name.text))
    (unknown : indexed.known (.ofClass name) = none) :
    SameAnswer ((ConstantPool.number (.classRef nameIndex)).run.run pool)
      (IndexedPool.enter (.ofClass name)
        ((IndexedPool.append (.classRef nameIndex)).run.run indexed)) := by
  have unresolved (number : UInt16) : ¬pool.Resolves (.ofClass name) number := by
    rw [← shown.known, unknown]
    exact nofun
  have absent : .classRef nameIndex ∉ pool.toList := fun member =>
    unresolved _ ⟨nameIndex, consistent.get?_index member, held⟩
  exact shown.append absent (fun _ added _ _ => resolves_added_class held added) unresolved

theorem ask_class (shown : pool.ShownBy indexed) (consistent : pool.Consistent)
    (name : BinaryName) : SameAnswer (pool.ask (.ofClass name)) (indexed.ask (.ofClass name)) := by
  have run : pool.ask (.ofClass name) = _ := run_classOf pool name
  cases known : indexed.known (.ofClass name) with
  | some number =>
      obtain ⟨nameIndex, reference, text⟩ := (shown.known _ _).mp known
      have answer : indexed.ask (.ofClass name) = _ := IndexedPool.run_findOr_of_known known _
      have textRun : (utf8 name.text).run.run pool = _ :=
        run_number_present (consistent.position_of_get? text)
      have referenceRun := run_number_present (consistent.position_of_get? reference)
      rw [run, textRun, answer]
      dsimp only
      rw [referenceRun]
      exact ⟨rfl, shown⟩
  | none =>
      have answer : indexed.ask (.ofClass name) = _ := IndexedPool.run_classOf_of_unknown known
      have unknown := IndexedPool.known_utf8 indexed name.text name
      have alike := shown.ask_text consistent name.text
      have middleConsistent := (consistent.answered (.text name.text)).consistent
      have stays (nameIndex : UInt16) (given : (pool.ask (.text name.text)).1 = .ok nameIndex) :=
        (consistent.answer_stays given []).1
      simp only [ConstantPool.ask, IndexedPool.ask] at alike middleConsistent stays
      rw [run, answer]
      rcases first : (utf8 name.text).run.run pool with ⟨given, middle⟩
      rcases second : (IndexedPool.utf8 name.text).run.run indexed with ⟨other, indexedMiddle⟩
      rw [second] at unknown
      rw [first] at middleConsistent stays
      rw [first, second] at alike
      obtain ⟨same, shownMiddle⟩ := alike
      obtain rfl : given = other := same.symm
      cases given with
      | error full => exact ⟨rfl, shownMiddle⟩
      | ok nameIndex =>
          exact shownMiddle.append_reference middleConsistent (stays nameIndex rfl)
            (unknown.trans known)

theorem ask (shown : pool.ShownBy indexed) (consistent : pool.Consistent) (request : Request) :
    SameAnswer (pool.ask request) (indexed.ask request) := by
  cases request with
  | text content => exact shown.ask_text consistent content
  | ofClass name => exact shown.ask_class consistent name

theorem askAll (shown : pool.ShownBy indexed) (consistent : pool.Consistent)
    (requests : List Request) : (pool.askAll requests).ShownBy (indexed.askAll requests) := by
  induction requests generalizing pool indexed with
  | nil => exact shown
  | cons request rest ih =>
      exact ih (shown.ask consistent request).2 (consistent.answered request).consistent

end ShownBy

/-- After any requests, answered or not, both pools answer the next one alike, be it with a number
or for want of room, and hold the same constants then. -/
theorem ask_indexed (requests : List Request) (request : Request) :
    let outcome := (empty.askAll requests).ask request
    let answer := (IndexedPool.askAll {} requests).ask request
    answer.1 = outcome.1 ∧ answer.2.constants.toList = outcome.2.toList := by
  intro outcome answer
  have shown := shownBy_empty.askAll consistent_empty requests
  have alike := shown.ask (consistent_empty.askAll requests) request
  exact ⟨alike.1, alike.2.constants⟩

end ConstantPool

end JvmFrames
