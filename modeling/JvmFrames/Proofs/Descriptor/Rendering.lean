import JvmFrames.Proofs.Descriptor.Readable

/-!
Descriptors read back from the text they are written as, whatever follows it. As a reader stops
where the descriptor ends, no descriptor is the beginning of a longer one.
-/

namespace JvmFrames

namespace FieldType

def Valid : FieldType → Prop
  | .base _ => True
  | .reference name => BinaryName.ofString name.text = .ok name

instance : DecidablePred Valid
  | .base _ => inferInstanceAs (Decidable True)
  | .reference name => inferInstanceAs (Decidable (BinaryName.ofString name.text = .ok name))

theorem Valid.grammar {type : FieldType} (valid : type.Valid) :
    FieldText BinaryName.checkInner type.render.toList type := by
  cases type with
  | base type =>
      rw [render, String.toList_singleton]
      exact .base type
  | reference name => exact BinaryName.readable_of_ofString valid

theorem read_render {type : FieldType} (valid : type.Valid) (rest : List Char) :
    read (type.render.toList ++ rest) = ⟨.ok type, rest⟩ :=
  readWith_append valid.grammar rest

/-- No type starts like the parts of a signature that are not types. -/
theorem Valid.head?_render {type : FieldType} (valid : type.Valid) :
    ∃ first, type.render.toList.head? = some first ∧ first ≠ '(' ∧ first ≠ ')' ∧ first ≠ 'V' := by
  have grammar := valid.grammar
  generalize type.render.toList = text at grammar
  cases grammar with
  | base type => exact ⟨_, rfl, by cases type <;> decide⟩
  | name _ _ => exact ⟨_, rfl, by decide⟩
  | array _ => exact ⟨_, rfl, by decide⟩

theorem valid_array {type : FieldType} (valid : type.Valid) : (array type).Valid := by
  have text : ("[" ++ type.render).toList = '[' :: type.render.toList := by simp
  refine BinaryName.ofString_eq_ok_iff.mpr ⟨?_, rfl⟩
  rw [text, BinaryName.check, BinaryName.checkWith,
    FieldType.whole_readWith_iff.mpr (.array valid.grammar)]

def nested (type : FieldType) (depth : Nat) : FieldType :=
  depth.repeat array type

theorem valid_nested {type : FieldType} (valid : type.Valid) (depth : Nat) :
    (type.nested depth).Valid := by
  induction depth with
  | zero => exact valid
  | succ depth ih => exact valid_array ih

end FieldType

namespace MethodDescriptor

def Valid (method : MethodDescriptor) : Prop :=
  (∀ type ∈ method.parameters, type.Valid) ∧ ∀ type ∈ method.result, type.Valid

instance (method : MethodDescriptor) : Decidable method.Valid :=
  inferInstanceAs (Decidable (_ ∧ _))

theorem readParameters_of_read {source rest : List Char} {type : FieldType}
    (notClosing : source.head? ≠ some ')') (success : FieldType.read source = ⟨.ok type, rest⟩) :
    readParameters source = (readParameters rest).map (type :: ·) := by
  rw [readParameters.eq_def]
  split
  · simp [FieldType.read, FieldType.readWith] at success
  · contradiction
  · split
    · rename_i failure
      rw [success] at failure
      contradiction
    · rename_i found
      rw [success] at found ⊢
      cases found
      rfl

theorem readResult_of_read {source rest : List Char} {type : FieldType}
    (notVoid : source.head? ≠ some 'V') (success : FieldType.read source = ⟨.ok type, rest⟩) :
    readResult source = ⟨.ok (some type), rest⟩ := by
  unfold readResult
  split
  · contradiction
  · rw [success]
    rfl

theorem readParameters_append {types : List FieldType} (valid : ∀ type ∈ types, type.Valid)
    (rest : List Char) :
    readParameters (types.flatMap (fun type => type.render.toList) ++ ')' :: rest) =
      ⟨.ok types, rest⟩ := by
  induction types with
  | nil => simp [readParameters]
  | cons type others ih =>
      obtain ⟨typeValid, othersValid⟩ := List.forall_mem_cons.mp valid
      obtain ⟨first, starts, _, notClosing, _⟩ := typeValid.head?_render
      rw [List.flatMap_cons, List.append_assoc,
        readParameters_of_read (by simp [starts, notClosing]) (FieldType.read_render typeValid _),
        ih othersValid]
      rfl

theorem readResult_append {result : Option FieldType} (valid : ∀ type ∈ result, type.Valid)
    (rest : List Char) :
    readResult ((renderResult result).toList ++ rest) = ⟨.ok result, rest⟩ := by
  cases result with
  | none => rfl
  | some type =>
      obtain ⟨first, starts, _, _, notVoid⟩ := (valid type rfl).head?_render
      exact readResult_of_read (by simp [renderResult, starts, notVoid])
        (FieldType.read_render (valid type rfl) rest)

theorem head?_render (method : MethodDescriptor) : method.render.toList.head? = some '(' := by
  simp [render]

theorem read_render {method : MethodDescriptor} (valid : method.Valid) (rest : List Char) :
    read (method.render.toList ++ rest) = ⟨.ok method, rest⟩ := by
  have text : method.render.toList ++ rest =
      '(' :: (method.parameters.flatMap (fun type => type.render.toList) ++
        ')' :: ((renderResult method.result).toList ++ rest)) := by
    simp [render, List.flatMap_map]
  simp only [text, read, readParameters_append valid.1, readResult_append valid.2]
  rfl

end MethodDescriptor

inductive IsDescriptor : String → Prop
  | field {type : FieldType} : type.Valid → IsDescriptor type.render
  | method {method : MethodDescriptor} : method.Valid → IsDescriptor method.render

/-- A reader that stops behind one text as well as behind a longer one stops in the same place. -/
theorem eq_of_prefix_of_read {α : Type} {read : List Char → Reading α} {text other : String}
    {value otherValue : α} (first : ∀ rest, read (text.toList ++ rest) = ⟨.ok value, rest⟩)
    (second : ∀ rest, read (other.toList ++ rest) = ⟨.ok otherValue, rest⟩)
    (starts : text.toList <+: other.toList) : text = other := by
  obtain ⟨more, whole⟩ := starts
  have readWhole := second []
  rw [List.append_nil, ← whole, first more, Reading.mk.injEq] at readWhole
  rw [readWhole.2, List.append_nil] at whole
  exact String.toList_inj.mp whole

theorem head?_of_starts {text other : List Char} {first : Char} (starts : text <+: other)
    (begins : text.head? = some first) : other.head? = some first := by
  obtain ⟨rest, rfl⟩ := starts
  rw [List.head?_append, begins]
  rfl

theorem eq_of_prefix {text other : String} (isDescriptor : IsDescriptor text)
    (otherIs : IsDescriptor other) (starts : text.toList <+: other.toList) : text = other := by
  cases isDescriptor with
  | @field type valid =>
      cases otherIs with
      | field otherValid =>
          exact eq_of_prefix_of_read (FieldType.read_render valid)
            (FieldType.read_render otherValid) starts
      | @method method _ =>
          obtain ⟨first, begins, notMethod, _⟩ := valid.head?_render
          have same := method.head?_render.symm.trans (head?_of_starts starts begins)
          exact absurd (Option.some.inj same).symm notMethod
  | @method method valid =>
      cases otherIs with
      | field otherValid =>
          obtain ⟨first, begins, notMethod, _⟩ := otherValid.head?_render
          have same := begins.symm.trans (head?_of_starts starts method.head?_render)
          exact absurd (Option.some.inj same) notMethod
      | method otherValid =>
          exact eq_of_prefix_of_read (MethodDescriptor.read_render valid)
            (MethodDescriptor.read_render otherValid) starts

/-- Types and signatures are read back from their text in any longer text, and what follows is left.
No descriptor is the beginning of another one, and the elements of an array of any depth are the
array of one dimension less. -/
theorem descriptor_reads_back :
    (∀ type : FieldType, type.Valid → ∀ rest,
      FieldType.read (type.render.toList ++ rest) = ⟨.ok type, rest⟩) ∧
    (∀ method : MethodDescriptor, method.Valid → ∀ rest,
      MethodDescriptor.read (method.render.toList ++ rest) = ⟨.ok method, rest⟩) ∧
    (∀ text other, IsDescriptor text → IsDescriptor other → text.toList <+: other.toList →
      text = other) ∧
    ∀ type : FieldType, type.Valid → ∀ depth, ∃ name,
      type.nested (depth + 1) = .reference name ∧
        name.elementType? = some (type.nested depth) := by
  refine ⟨fun _ valid => FieldType.read_render valid,
    fun _ valid => MethodDescriptor.read_render valid,
    fun _ _ isDescriptor otherIs => eq_of_prefix isDescriptor otherIs, ?_⟩
  intro type valid depth
  exact ⟨_, rfl, BinaryName.elementType?_array (FieldType.valid_nested valid depth).grammar⟩

/-- A method with a wide parameter, an array and a class, in front of the end of another one. -/
theorem descriptor_reads_back_arrays :
    let method : MethodDescriptor :=
      ⟨[.base .long, .reference ⟨"[[Lp/A;"⟩, .reference ⟨"p/B"⟩], none⟩
    method.Valid ∧ method.render = "(J[[Lp/A;Lp/B;)V" ∧
      MethodDescriptor.read ("(J[[Lp/A;Lp/B;)V".toList ++ [')', 'V']) = ⟨.ok method, [')', 'V']⟩ ∧
      FieldType.Valid (.reference ⟨"p/A"⟩) ∧
      ∃ name, FieldType.nested (.reference ⟨"p/A"⟩) 3 = .reference name ∧
        name.elementType? = some (FieldType.nested (.reference ⟨"p/A"⟩) 2) := by
  intro method
  have valid : method.Valid := by decide
  have elementValid : FieldType.Valid (.reference ⟨"p/A"⟩) := by decide
  have text : method.render = "(J[[Lp/A;Lp/B;)V" := by decide
  obtain ⟨_, readsMethod, _, elements⟩ := descriptor_reads_back
  exact ⟨valid, text, text ▸ readsMethod method valid [')', 'V'], elementValid,
    elements _ elementValid 2⟩

end JvmFrames
