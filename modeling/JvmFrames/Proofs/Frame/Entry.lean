import JvmFrames.Proofs.Frame.Sound
import JvmFrames.Proofs.Locals.Sequence

/-!
The frame on method entry. Its locals are the receiver, if there is one, and the parameters of the
signature, laid out one behind the other.
-/

namespace JvmFrames

def MarkerSupply.next (supply : MarkerSupply) : Marker :=
  ⟨supply.nextOrigin, supply.nextCopy⟩

def MarkerSupply.passed (supply : MarkerSupply) : MarkerSupply :=
  ⟨supply.nextOrigin + 1, supply.nextCopy + 1⟩

namespace Frame

def received (owner : BinaryName) (isStatic isConstructor : Bool) (marker : Marker) :
    List VerificationType :=
  match isConstructor, isStatic with
  | true, _ => [.uninitializedThis marker]
  | false, true => []
  | false, false => [.object owner]

variable (owner : BinaryName) (isStatic isConstructor : Bool) (supply : MarkerSupply)

theorem length_received (marker : Marker) :
    (received owner isStatic isConstructor marker).length =
      if isConstructor = true ∨ isStatic = false then 1 else 0 := by
  cases isConstructor <;> cases isStatic <;> rfl

theorem top_notMem_received (marker : Marker) :
    .top ∉ received owner isStatic isConstructor marker := by
  cases isConstructor <;> cases isStatic <;> simp [received]

theorem receiver_run :
    (receiver owner isStatic isConstructor).run supply =
      (received owner isStatic isConstructor supply.next,
        if isConstructor then supply.passed else supply) := by
  cases isConstructor <;> cases isStatic <;> rfl

theorem methodEntry_run (method : MethodDescriptor) :
    (methodEntry owner method isStatic isConstructor).run supply =
      ({ placeholder with
          locals := Locals.ofEntries (received owner isStatic isConstructor supply.next ++
            method.parameters.map VerificationType.ofField) },
        if isConstructor then supply.passed else supply) := by
  rw [← Locals.putAll_nil, methodEntry, StateT.run_bind, receiver_run]
  rfl

/-- On entry to a method no edge has been followed and nothing is on the stack. The locals are the
receiver and the parameters, each behind the one before, and the only empty slots are the holes of
wide parameters; so the receiver and the parameters are what is listed and counted. A constructor
takes the next marker of the supply for its receiver, any other method takes none. -/
theorem methodEntry_receiver_parameters (method : MethodDescriptor) :
    let entered := (methodEntry owner method isStatic isConstructor).run supply
    let frame := entered.1
    let arguments := received owner isStatic isConstructor supply.next ++
      method.parameters.map VerificationType.ofField
    frame.isPlaceholder = true ∧ frame.stack = [] ∧
      frame.locals = Locals.ofEntries arguments ∧
      (∀ slot, frame.locals[slot]? = some none ↔ frame.locals.IsHole slot) ∧
      some .top ∉ frame.locals ∧
      frame.locals.entries = arguments ∧
      frame.localsCount =
        method.parameters.length + (if isConstructor = true ∨ isStatic = false then 1 else 0) ∧
      entered.2 = if isConstructor then supply.passed else supply := by
  intro entered frame arguments
  have run : entered = ({ placeholder with locals := Locals.ofEntries arguments },
      if isConstructor then supply.passed else supply) :=
    methodEntry_run owner isStatic isConstructor supply method
  have made : frame = { placeholder with locals := Locals.ofEntries arguments } :=
    congrArg Prod.fst run
  rw [made, run]
  refine ⟨rfl, rfl, rfl, fun slot => Locals.getElem?_ofEntries_eq_none_iff, ?_,
    Locals.entries_ofEntries arguments, ?_, rfl⟩
  · intro member
    rcases List.mem_append.mp (Locals.mem_ofEntries_iff.mp member) with inReceived | inParameters
    · exact top_notMem_received owner isStatic isConstructor supply.next inReceived
    · obtain ⟨field, _, isTop⟩ := List.mem_map.mp inParameters
      exact VerificationType.ofField_ne_top field isTop
  · have counted : localsCount { placeholder with locals := Locals.ofEntries arguments } =
        arguments.length := Locals.count_ofEntries arguments
    rw [counted, List.length_append, List.length_map, length_received, Nat.add_comm]

/-- A constructor with wide parameters, one of them the last. -/
example :
    ((methodEntry ⟨"p/A"⟩ ⟨[.base .long, .reference ⟨"p/B"⟩, .base .double], none⟩ false true).run
      ⟨4, 9⟩).1.locals =
      [some (.uninitializedThis ⟨4, 9⟩), some .long, none, some (.object ⟨"p/B"⟩), some .double,
        none] :=
  rfl

end Frame

end JvmFrames
