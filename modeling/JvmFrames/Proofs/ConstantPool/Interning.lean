import JvmFrames.Proofs.ConstantPool.Numbering

/-!
Computations that look constants up. Such a computation wants certain constants, adds those that are
missing, and returns what follows from the numbers of the constants it wanted. As the constants of a
pool keep their numbers, what it returns may be read off any later pool.
-/

namespace JvmFrames.ConstantPool

variable {α β γ : Type}

inductive Interned (cost : Nat) (wanted : List Constant → List Constant)
    (result : List Constant → β) (pool : ConstantPool) : Except PoolFull β × ConstantPool → Prop
  | done {after} : after.Numbered →
      after.toList = pool.toList ++ missing pool.toList (wanted after.toList) →
      after.size ≤ pool.size + cost →
      Interned cost wanted result pool (.ok (result after.toList), after)
  | full {fault after} : after.Numbered → pool.toList <+: after.toList →
      65534 < pool.size + cost → Interned cost wanted result pool (.error fault, after)

/-- Whatever the pool holds, the computation wants these constants of it. Once they are there,
further ones change neither them nor the result. -/
structure Interns (cost : Nat) (wanted : List Constant → List Constant)
    (result : List Constant → β) (compute : PoolM β) : Prop where
  run : ∀ pool : ConstantPool, pool.Numbered →
    Interned cost wanted result pool (compute.run.run pool)
  stable : ∀ known more, wanted known ⊆ known →
    wanted (known ++ more) = wanted known ∧ result (known ++ more) = result known

theorem interns_pure (value : β) :
    Interns 0 (fun _ => []) (fun _ => value) (pure value) where
  run pool numbered := by
    refine .done numbered ?_ (Nat.le_refl _)
    rw [missing_nil, List.append_nil]
  stable _ _ _ := ⟨rfl, rfl⟩

theorem length_toList (pool : ConstantPool) : pool.toList.length = pool.size := rfl

theorem Numbered.add {pool grown : ConstantPool} {constant : Constant} (numbered : pool.Numbered)
    (absent : constant ∉ pool.toList) (room : pool.size < 65534)
    (added : grown.toList = pool.toList ++ [constant]) : grown.Numbered where
  distinct := by
    rw [added]
    refine List.nodup_append.mpr ⟨numbered.distinct, List.pairwise_singleton _ _, ?_⟩
    intro other otherMember last lastMember
    rw [List.mem_singleton.mp lastMember]
    rintro rfl
    exact absent otherMember
  bounded := by
    rw [← length_toList, added, List.length_append, length_toList, List.length_singleton]
    omega

inductive LookedUp (pool : ConstantPool) (constant : Constant) :
    Except PoolFull UInt16 × ConstantPool → Prop
  | known : constant ∈ pool.toList →
      LookedUp pool constant (.ok (index pool.toList constant), pool)
  | added {grown : ConstantPool} : constant ∉ pool.toList → pool.size < 65534 →
      grown.toList = pool.toList ++ [constant] →
      LookedUp pool constant (.ok (index grown.toList constant), grown)
  | full : constant ∉ pool.toList → pool.size = 65534 →
      LookedUp pool constant (.error ⟨constant⟩, pool)

theorem Numbered.lookedUp (numbered : pool.Numbered) (constant : Constant) :
    LookedUp pool constant ((number constant).run.run pool) := by
  by_cases member : constant ∈ pool.toList
  · rw [run_number_present (position_of_mem member)]
    exact .known member
  · have absent := position_eq_none_iff.mpr member
    by_cases room : pool.size + 1 < 65535
    · obtain ⟨grown, run, constants⟩ := run_number_absent absent room
      have number : index grown.toList constant = UInt16.ofNat (pool.size + 1) := by
        rw [constants, index_of_append_singleton member]
        rfl
      rw [run, ← number]
      exact .added member (by omega) constants
    · rw [run_number_full absent room]
      have bounded := numbered.bounded
      exact .full member (by omega)

theorem interns_number (constant : Constant) :
    Interns 1 (fun _ => [constant]) (fun known => index known constant) (number constant) where
  run pool numbered := by
    have lookedUp := numbered.lookedUp constant
    generalize (number constant).run.run pool = outcome at lookedUp
    cases lookedUp with
    | known member =>
        refine .done numbered ?_ (Nat.le_succ _)
        rw [missing_of_mem member, List.append_nil]
    | @added grown absent room constants =>
        refine .done (numbered.add absent room constants) ?_ ?_
        · rw [missing_of_notMem absent, constants]
        · simp [← length_toList, constants]
    | full _ full => exact .full numbered List.prefix_rfl (by omega)
  stable known more present := ⟨rfl, index_append_of_mem (by simpa using present) more⟩

theorem Interns.bind {cost otherCost : Nat} {wanted : List Constant → List Constant}
    {result : List Constant → β} {compute : PoolM β}
    {otherWanted : β → List Constant → List Constant} {otherResult : β → List Constant → γ}
    {next : β → PoolM γ} (first : Interns cost wanted result compute)
    (second : ∀ value, Interns otherCost (otherWanted value) (otherResult value) (next value)) :
    Interns (cost + otherCost)
      (fun known => wanted known ++ otherWanted (result known) known)
      (fun known => otherResult (result known) known) (compute >>= next) where
  run pool numbered := by
    rw [ExceptT.run_bind, StateT.run_bind]
    have start := first.run pool numbered
    generalize compute.run.run pool = outcome at start
    cases start with
    | full numbered grown room => exact .full numbered grown (by omega)
    | @done middle numbered constants size =>
        have following := (second (result middle.toList)).run middle numbered
        change Interned _ _ _ _ ((next (result middle.toList)).run.run middle)
        generalize (next (result middle.toList)).run.run middle = outcome at following
        cases following with
        | full numbered grown room =>
            refine .full numbered (List.IsPrefix.trans ?_ grown) (by omega)
            rw [constants]
            exact List.prefix_append _ _
        | @done after numbered others otherSize =>
            -- What came out first is still right in the later pool.
            obtain ⟨sameWanted, sameResult⟩ :=
              first.stable middle.toList _ (subset_of_added constants)
            rw [← others] at sameWanted sameResult
            rw [← sameResult] at others ⊢
            refine .done numbered ?_ (by omega)
            rw [missing_append, ← List.append_assoc, sameWanted, ← constants]
            exact others
  stable known more present := by
    obtain ⟨sameWanted, sameResult⟩ := first.stable known more (List.append_subset.mp present).1
    obtain ⟨sameOtherWanted, sameOtherResult⟩ :=
      (second (result known)).stable known more (List.append_subset.mp present).2
    rw [sameWanted, sameResult, sameOtherWanted, sameOtherResult]
    exact ⟨rfl, rfl⟩

def classIndex (constants : List Constant) (name : BinaryName) : UInt16 :=
  index constants (.classRef (index constants (.utf8 name.text)))

def classConstants (constants : List Constant) (name : BinaryName) : List Constant :=
  [.utf8 name.text, .classRef (index constants (.utf8 name.text))]

theorem interns_utf8 (text : String) :
    Interns 1 (fun _ => [.utf8 text]) (fun known => index known (.utf8 text)) (utf8 text) :=
  interns_number (.utf8 text)

theorem interns_classOf (name : BinaryName) :
    Interns 2 (fun known => classConstants known name) (fun known => classIndex known name)
      (classOf name) :=
  (interns_utf8 name.text).bind fun nameIndex => interns_number (.classRef nameIndex)

def InternsClasses (names : List BinaryName) (result : (BinaryName → UInt16) → β)
    (compute : PoolM β) : Prop :=
  Interns (2 * names.length) (fun known => names.flatMap (classConstants known))
    (fun known => result (classIndex known)) compute

theorem internsClasses_pure (value : β) : InternsClasses [] (fun _ => value) (pure value) :=
  interns_pure value

theorem internsClasses_classOf (name : BinaryName) :
    InternsClasses [name] (fun number => number name) (classOf name) := by
  simpa [InternsClasses] using interns_classOf name

theorem InternsClasses.bind {names others : List BinaryName} {result : (BinaryName → UInt16) → β}
    {compute : PoolM β} {otherResult : β → (BinaryName → UInt16) → γ} {next : β → PoolM γ}
    (first : InternsClasses names result compute)
    (second : ∀ value, InternsClasses others (otherResult value) (next value)) :
    InternsClasses (names ++ others) (fun number => otherResult (result number) number)
      (compute >>= next) := by
  have whole := Interns.bind first second
  rw [InternsClasses, List.length_append, Nat.mul_add]
  simpa using whole

theorem InternsClasses.map {names : List BinaryName} {result : (BinaryName → UInt16) → β}
    {compute : PoolM β} (interns : InternsClasses names result compute) (change : β → γ) :
    InternsClasses names (fun number => change (result number))
      (do
        let value ← compute
        pure (change value)) := by
  have whole := interns.bind fun value => internsClasses_pure (change value)
  rwa [List.append_nil] at whole

theorem internsClasses_mapM {compute : α → PoolM β} {names : α → List BinaryName}
    {result : (BinaryName → UInt16) → α → β}
    (each : ∀ item, InternsClasses (names item) (fun number => result number item) (compute item))
    (items : List α) :
    InternsClasses (items.flatMap names) (fun number => items.map (result number))
      (items.mapM compute) := by
  induction items with
  | nil => exact internsClasses_pure []
  | cons item rest ih =>
      rw [List.mapM_cons, List.flatMap_cons]
      exact (each item).bind fun value => ih.map fun values => value :: values

inductive Reachable : ConstantPool → Prop
  | empty : Reachable empty
  | utf8 {pool} (text) : Reachable pool → Reachable ((ConstantPool.utf8 text).run.run pool).2
  | classOf {pool} (name) : Reachable pool → Reachable ((ConstantPool.classOf name).run.run pool).2

theorem Interned.numbered {cost : Nat} {wanted : List Constant → List Constant}
    {result : List Constant → β} {pool : ConstantPool} {outcome : Except PoolFull β × ConstantPool}
    (interned : Interned cost wanted result pool outcome) : outcome.2.Numbered := by
  cases interned with
  | done numbered => exact numbered
  | full numbered => exact numbered

theorem Reachable.numbered {pool : ConstantPool} (reachable : pool.Reachable) : pool.Numbered := by
  induction reachable with
  | empty => exact ⟨List.nodup_nil, by decide⟩
  | utf8 text _ ih => exact ((interns_utf8 text).run _ ih).numbered
  | classOf name _ ih => exact ((interns_classOf name).run _ ih).numbered

theorem Numbered.get?_classIndex {pool : ConstantPool} (numbered : pool.Numbered)
    {name : BinaryName} (present : classConstants pool.toList name ⊆ pool.toList) :
    ∃ nameIndex, pool.get? (classIndex pool.toList name) = some (.classRef nameIndex) ∧
      pool.get? nameIndex = some (.utf8 name.text) := by
  have text := present List.mem_cons_self
  have reference := present (List.mem_cons_of_mem _ List.mem_cons_self)
  exact ⟨_, numbered.get?_index reference, numbered.get?_index text⟩

theorem Numbered.classIndex_inj {pool : ConstantPool} (numbered : pool.Numbered)
    {name other : BinaryName} (present : classConstants pool.toList name ⊆ pool.toList)
    (otherPresent : classConstants pool.toList other ⊆ pool.toList) :
    classIndex pool.toList name = classIndex pool.toList other ↔ name = other := by
  constructor
  · intro same
    have reference := (numbered.index_inj (present (List.mem_cons_of_mem _ List.mem_cons_self))
      (otherPresent (List.mem_cons_of_mem _ List.mem_cons_self))).mp same
    have text := (numbered.index_inj (present List.mem_cons_self)
      (otherPresent List.mem_cons_self)).mp (Constant.classRef.inj reference)
    exact congrArg BinaryName.mk (Constant.utf8.inj text)
  · rintro rfl
    rfl

end JvmFrames.ConstantPool
