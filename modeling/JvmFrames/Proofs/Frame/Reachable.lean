import JvmFrames.Frame.Merge
import JvmFrames.Listing
import JvmFrames.Proofs.Frame.Memos

/-!
The frames that can be made: those that a constructor or a listing gives, and those that the
operations on frames make of them. What such a frame remembers about its locals is true of them.
-/

namespace JvmFrames.Frame

inductive Reachable : Frame → Prop
  | new (pc : Int) : Reachable { pc }
  | ofSnapshot {pc locals stack frame} :
      Frame.ofSnapshot pc locals stack = .ok frame → Reachable frame
  | methodEntry (owner method isStatic isConstructor supply) :
      Reachable ((Frame.methodEntry owner method isStatic isConstructor).run supply).1
  | listed {source supply listing frame} :
      ((Listing.read source).run.run supply).1 = .ok listing →
      frame ∈ listing.entry :: listing.frames → Reachable frame
  | setPc {frame} (pc : Int) : Reachable frame → Reachable { frame with pc }
  | setAdoptsStack {frame} (adoptsStack : Bool) :
      Reachable frame → Reachable { frame with adoptsStack }
  | push {frame item pushed} : Reachable frame → frame.push item = .ok pushed → Reachable pushed
  | pop {frame item popped} : Reachable frame → frame.pop = .ok (item, popped) → Reachable popped
  | put {frame} (slot type) : Reachable frame → Reachable (frame.put slot type)
  | loadElement {frame loaded} :
      Reachable frame → frame.loadElement = .ok loaded → Reachable loaded
  | markInitialized {frame} (uninitialized name) :
      Reachable frame → Reachable (frame.markInitialized uninitialized name)
  | duplicate {frame} (supply) : Reachable frame → Reachable (frame.duplicate.run supply).1
  | merge {frame other merged} (superTypes) : Reachable frame → Reachable other →
      frame.merge superTypes other = .ok merged → Reachable merged
  | rememberCount {frame} : Reachable frame → Reachable frame.rememberCount
  | rememberNoChange {frame} : Reachable frame → Reachable (frame.rememberChange none)
  | rememberChange {frame previous} : Reachable frame → Reachable previous →
      Reachable (frame.rememberChange (some previous))
  | forgetChange {frame} : Reachable frame → Reachable frame.forgetChange

theorem countTrue_of_forgotten {frame : Frame} (forgotten : frame.knownCount = none) :
    frame.CountTrue := by
  intro number known
  rw [forgotten] at known
  contradiction

theorem countTrue_congr {frame other : Frame} (counted : frame.CountTrue)
    (sameLocals : other.locals = frame.locals) (sameCount : other.knownCount = frame.knownCount) :
    other.CountTrue := by
  intro number known
  rw [sameLocals]
  exact counted number (sameCount ▸ known)

theorem push_of_ne_top {frame : Frame} {type : VerificationType} (usable : type ≠ .top) :
    frame.push (some type) = .ok { frame with stack := frame.stack ++ [type] } := by
  cases type with
  | top => contradiction
  | _ => rfl

theorem push_eq_ok {frame pushed : Frame} {item : Option VerificationType}
    (success : frame.push item = .ok pushed) :
    ∃ type, type ≠ .top ∧ pushed = { frame with stack := frame.stack ++ [type] } := by
  cases item with
  | none => contradiction
  | some type =>
      by_cases top : type = .top
      · rw [top] at success
        contradiction
      · rw [push_of_ne_top top] at success
        exact ⟨type, top, (Except.ok.inj success).symm⟩

theorem push_eq {frame pushed : Frame} {item : Option VerificationType}
    (success : frame.push item = .ok pushed) : pushed = { frame with stack := pushed.stack } := by
  obtain ⟨type, _, rfl⟩ := push_eq_ok success
  rfl

theorem pushAll_eq {frame pushed : Frame} {types : List VerificationType}
    (success : frame.pushAll types = .ok pushed) :
    pushed = { frame with stack := pushed.stack } := by
  induction types generalizing frame with
  | nil =>
      obtain rfl := Except.ok.inj success
      rfl
  | cons type rest ih =>
      rw [pushAll] at success
      split at success
      · contradiction
      · rename_i first firstPushed
        rw [ih success, push_eq firstPushed]

theorem pushAll_of_noTop {frame : Frame} {types : List VerificationType} (noTop : .top ∉ types) :
    frame.pushAll types = .ok { frame with stack := frame.stack ++ types } := by
  induction types generalizing frame with
  | nil => simp [pushAll]
  | cons type rest ih =>
      rw [List.mem_cons, not_or] at noTop
      rw [pushAll, push_of_ne_top (Ne.symm noTop.1)]
      simp [ih noTop.2]

theorem pushAll_of_top {frame : Frame} {types : List VerificationType} (top : .top ∈ types) :
    frame.pushAll types = .error .topOnStack := by
  induction types generalizing frame with
  | nil => contradiction
  | cons type rest ih =>
      by_cases here : type = .top
      · rw [here]
        rfl
      · rw [pushAll, push_of_ne_top here]
        exact ih ((List.mem_cons.mp top).resolve_left (Ne.symm here))

theorem ofSnapshot_of_wellFormed {pc : Int} {locals : Locals} {stack : List VerificationType}
    (wellFormed : locals.WellFormed) (noTop : .top ∉ stack) :
    ofSnapshot pc locals stack = .ok { pc, locals, stack } := by
  rw [ofSnapshot, Locals.missingHole?_eq_none_iff.mpr wellFormed]
  exact pushAll_of_noTop noTop

theorem ofSnapshot_of_top {pc : Int} {locals : Locals} {stack : List VerificationType}
    (wellFormed : locals.WellFormed) (top : .top ∈ stack) :
    ofSnapshot pc locals stack = .error .topOnStack := by
  rw [ofSnapshot, Locals.missingHole?_eq_none_iff.mpr wellFormed]
  exact pushAll_of_top top

theorem knownCount_of_ofSnapshot {pc : Int} {locals : Locals} {stack : List VerificationType}
    {frame : Frame} (success : ofSnapshot pc locals stack = .ok frame) :
    frame.knownCount = none := by
  unfold ofSnapshot at success
  split at success
  · contradiction
  · rw [pushAll_eq success]

theorem pc_of_ofSnapshot {pc : Int} {locals : Locals} {stack : List VerificationType}
    {frame : Frame} (success : ofSnapshot pc locals stack = .ok frame) : frame.pc = pc := by
  unfold ofSnapshot at success
  split at success
  · contradiction
  · rw [pushAll_eq success]

theorem run_pop (frame : Frame) :
    FrameM.pop.run.run frame =
      match frame.stack.getLast? with
      | none => (.error .emptyStack, frame)
      | some type => (.ok type, { frame with stack := frame.stack.dropLast }) := by
  rw [FrameM.pop, run_get_bind]
  cases frame.stack.getLast? <;> rfl

theorem run_loadElement (frame : Frame) :
    FrameM.loadElement.run.run frame =
      match frame.stack.getLast? with
      | none => (.error .emptyStack, frame)
      | some type =>
        match type.element? with
        | none => (.error (.notArray type), frame)
        | some element => (.ok (), { frame with stack := frame.stack.dropLast ++ [element] }) := by
  rw [FrameM.loadElement, run_get_bind]
  cases frame.stack.getLast? with
  | none => rfl
  | some type =>
      dsimp only
      cases type.element? <;> rfl

theorem pop_eq_ok {frame popped : Frame} {item : VerificationType}
    (success : frame.pop = .ok (item, popped)) :
    popped = { frame with stack := frame.stack.dropLast } := by
  have run := resultOf_eq_ok_iff.mp success
  rw [run_pop] at run
  split at run
  · exact absurd (congrArg Prod.fst run) nofun
  · exact (congrArg Prod.snd run).symm

theorem loadElement_eq_ok {frame loaded : Frame} (success : frame.loadElement = .ok loaded) :
    ∃ type element, VerificationType.element? type = some element ∧
      loaded = { frame with stack := frame.stack.dropLast ++ [element] } := by
  have run := map_snd_resultOf_eq_ok_iff.mp success
  rw [run_loadElement] at run
  split at run
  · exact absurd (congrArg Prod.fst run) nofun
  · rename_i type _
    split at run
    · exact absurd (congrArg Prod.fst run) nofun
    · rename_i element found
      exact ⟨type, element, found, (congrArg Prod.snd run).symm⟩

theorem merge_eq_ok {superTypes : SuperTypes} {frame other merged : Frame}
    (success : frame.merge superTypes other = .ok merged) :
    other.isPlaceholder = true ∧ merged = frame ∨ frame.isPlaceholder = true ∧ merged = other ∨
      ∃ stack, VerificationType.mergeAll superTypes frame.stack other.stack = .ok stack ∧
        merged = { frame with stack } := by
  unfold Frame.merge at success
  split at success
  · rename_i placeholder
    exact .inl ⟨placeholder, (Except.ok.inj success).symm⟩
  · split at success
    · rename_i placeholder
      exact .inr (.inl ⟨placeholder, (Except.ok.inj success).symm⟩)
    · split at success
      · contradiction
      · cases found : VerificationType.mergeAll superTypes frame.stack other.stack with
        | error fault => simp [found, Except.map] at success
        | ok stack =>
            rw [found] at success
            exact .inr (.inr ⟨stack, rfl, (Except.ok.inj success).symm⟩)

/-- A placeholder gives way to the other frame. Any other frame at most gets another stack. -/
theorem merge_cases {superTypes : SuperTypes} {frame other merged : Frame}
    (success : frame.merge superTypes other = .ok merged) :
    frame.isPlaceholder = true ∧ merged = other ∨
      merged = { frame with stack := merged.stack } := by
  rcases merge_eq_ok success with ⟨_, rfl⟩ | gaveWay | ⟨stack, _, rfl⟩
  · exact .inr rfl
  · exact .inl gaveWay
  · exact .inr rfl

theorem merge_of_real {superTypes : SuperTypes} {frame other merged : Frame}
    (real : frame.isPlaceholder = false) (success : frame.merge superTypes other = .ok merged) :
    merged = { frame with stack := merged.stack } := by
  rcases merge_cases success with ⟨placeholder, _⟩ | kept
  · rw [real] at placeholder
    contradiction
  · exact kept

end JvmFrames.Frame

namespace JvmFrames.Listing

def IsPlace (isEntry : Bool) (pc : Int) : Prop :=
  if isEntry then pc = Frame.placeholderPc else ∃ word : UInt16, pc = word.toNat

def OfLine (isEntry : Bool) (frame : Frame) : Prop :=
  ∃ pc locals stack, IsPlace isEntry pc ∧ Frame.ofSnapshot pc locals stack = .ok frame

theorem OfLine.isPlace {isEntry : Bool} {frame : Frame} (line : OfLine isEntry frame) :
    IsPlace isEntry frame.pc := by
  obtain ⟨pc, locals, stack, place, made⟩ := line
  rwa [Frame.pc_of_ofSnapshot made]

theorem isPlace_of_readPc {isEntry : Bool} {text : List Char} {pc : Int}
    (success : readPc isEntry text = .ok pc) : IsPlace isEntry pc := by
  unfold readPc at success
  cases isEntry with
  | true =>
      simp only [if_true] at success
      split at success
      · exact (Except.ok.inj success).symm
      · contradiction
  | false =>
      simp only [Bool.false_eq_true, if_false] at success
      split at success
      · contradiction
      · split at success
        · rename_i word _
          exact ⟨word, (Except.ok.inj success).symm⟩
        · contradiction

theorem isPlace_of_readLine {isEntry : Bool} {line : List Char} {book : MarkerBook}
    {text : FrameText} (success : ((readLine isEntry line).run.run book).1 = .ok text) :
    IsPlace isEntry text.pc := by
  unfold readLine at success
  split at success
  · contradiction
  · split at success
    · contradiction
    · rename_i placed
      obtain ⟨locals, _, _, success⟩ := run_bind_ok success
      obtain ⟨stack, _, _, success⟩ := run_bind_ok success
      obtain rfl := Except.ok.inj success
      exact isPlace_of_readPc placed

theorem readFrame_ok {number : Nat} {isEntry : Bool} {line : List Char} {book : MarkerBook}
    {frame : Frame} (success : ((readFrame number isEntry line).run.run book).1 = .ok frame) :
    OfLine isEntry frame := by
  change (readFrame number isEntry line book).1 = .ok frame at success
  unfold readFrame at success
  split at success
  · contradiction
  · rename_i text after read
    split at success
    · contradiction
    · rename_i built
      obtain rfl := Except.ok.inj success
      exact ⟨_, _, _, isPlace_of_readLine (congrArg Prod.fst read), built⟩

theorem readFrames_ok {number : Nat} {isEntry : Bool} {lines : List (List Char)} {book : MarkerBook}
    {frames : List Frame}
    (success : ((readFrames number isEntry lines).run.run book).1 = .ok frames) :
    ∀ first following, frames = first :: following →
      OfLine isEntry first ∧ ∀ frame ∈ following, OfLine false frame := by
  induction lines generalizing number isEntry book frames with
  | nil =>
      obtain rfl := Except.ok.inj success
      simp
  | cons line rest ih =>
      rw [readFrames] at success
      split at success
      · exact ih success
      · obtain ⟨first, after, firstRead, success⟩ := run_bind_ok success
        obtain ⟨following, _, followingRead, success⟩ := run_bind_ok success
        obtain rfl := Except.ok.inj success
        rintro _ _ ⟨⟩
        refine ⟨readFrame_ok (congrArg Prod.fst firstRead), ?_⟩
        have others := ih (congrArg Prod.fst followingRead)
        cases following with
        | nil => simp
        | cons second behind =>
            exact List.forall_mem_cons.mpr (others second behind rfl)

/-- Every frame of a listing is made from what its line says: the first one on method entry, the
others at offsets that are words. -/
theorem ofLine_of_read {source : String} {supply : MarkerSupply} {listing : Listing}
    (success : ((Listing.read source).run.run supply).1 = .ok listing) :
    OfLine true listing.entry ∧ ∀ frame ∈ listing.frames, OfLine false frame := by
  change ((readFrames 1 true (source.toList.splitOn '\n')).run.run { supply }).1.bind ofFrames =
    .ok listing at success
  cases found : ((readFrames 1 true (source.toList.splitOn '\n')).run.run { supply }).1 with
  | error fault =>
      rw [found] at success
      contradiction
  | ok frames =>
      rw [found] at success
      cases frames with
      | nil => contradiction
      | cons entry frames =>
          obtain rfl := Except.ok.inj success
          exact readFrames_ok found entry frames rfl

theorem pc_of_read {source : String} {supply : MarkerSupply} {listing : Listing}
    (success : ((Listing.read source).run.run supply).1 = .ok listing) :
    listing.entry.pc = Frame.placeholderPc ∧
      ∀ frame ∈ listing.frames, 0 ≤ frame.pc ∧ frame.pc ≤ 65535 := by
  obtain ⟨entryLine, lines⟩ := ofLine_of_read success
  refine ⟨entryLine.isPlace, ?_⟩
  intro frame member
  obtain ⟨word, here⟩ := (lines frame member).isPlace
  have bound := word.toNat_lt
  omega

theorem read_ok {source : String} {supply : MarkerSupply} {listing : Listing}
    (success : ((Listing.read source).run.run supply).1 = .ok listing) :
    ∀ frame ∈ listing.entry :: listing.frames,
      ∃ pc locals stack, Frame.ofSnapshot pc locals stack = .ok frame := by
  have made {isEntry : Bool} {frame : Frame} (line : OfLine isEntry frame) :
      ∃ pc locals stack, Frame.ofSnapshot pc locals stack = .ok frame := by
    obtain ⟨pc, locals, stack, _, made⟩ := line
    exact ⟨pc, locals, stack, made⟩
  obtain ⟨entry, others⟩ := ofLine_of_read success
  exact List.forall_mem_cons.mpr ⟨made entry, fun frame member => made (others frame member)⟩

end JvmFrames.Listing

namespace JvmFrames.Frame

theorem Reachable.countTrue {frame : Frame} (reachable : frame.Reachable) : frame.CountTrue := by
  induction reachable with
  | new pc => exact countTrue_of_forgotten rfl
  | ofSnapshot made => exact countTrue_of_forgotten (knownCount_of_ofSnapshot made)
  | methodEntry owner method isStatic isConstructor supply => exact countTrue_of_forgotten rfl
  | listed read member =>
      obtain ⟨_, _, _, made⟩ := Listing.read_ok read _ member
      exact countTrue_of_forgotten (knownCount_of_ofSnapshot made)
  | setPc pc _ ih => exact countTrue_congr ih rfl rfl
  | setAdoptsStack adoptsStack _ ih => exact countTrue_congr ih rfl rfl
  | push _ pushed ih =>
      rw [push_eq pushed]
      exact countTrue_congr ih rfl rfl
  | pop _ popped ih =>
      obtain rfl := pop_eq_ok popped
      exact countTrue_congr ih rfl rfl
  | put slot type _ _ => exact countTrue_of_forgotten rfl
  | loadElement _ loaded ih =>
      obtain ⟨_, _, _, rfl⟩ := loadElement_eq_ok loaded
      exact countTrue_congr ih rfl rfl
  | markInitialized uninitialized name _ _ => exact countTrue_of_forgotten rfl
  | duplicate supply _ _ => exact countTrue_of_forgotten rfl
  | merge superTypes _ _ merged ih ihOther =>
      rcases merge_cases merged with ⟨_, rfl⟩ | same
      · exact ihOther
      · rw [same]
        exact countTrue_congr ih rfl rfl
  | rememberCount _ ih => exact countTrue_rememberCount ih
  | rememberNoChange _ ih => exact countTrue_rememberChange none ih
  | rememberChange _ _ ih _ => exact countTrue_rememberChange _ ih
  | forgetChange _ ih => exact countTrue_congr ih rfl rfl

end JvmFrames.Frame
