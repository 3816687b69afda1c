/-!
Markers tell uninitialized objects apart. A marker's origin is the place where its object was made,
and decides which types are the same. Its copy number tells the copies apart that a duplicated
frame holds; it never makes two types different.
-/

namespace JvmFrames

structure Marker where
  origin : Nat
  copy : Nat
  deriving DecidableEq, Repr

def Marker.render (marker : Marker) : String :=
  s!"u{marker.origin}.{marker.copy}"

def Marker.forgetCopy (marker : Marker) : Marker :=
  ⟨marker.origin, 0⟩

structure MarkerSupply where
  nextOrigin : Nat := 0
  nextCopy : Nat := 0
  deriving DecidableEq, Repr

namespace MarkerSupply

def fresh : StateM MarkerSupply Marker := fun supply =>
  (⟨supply.nextOrigin, supply.nextCopy⟩, ⟨supply.nextOrigin + 1, supply.nextCopy + 1⟩)

def copyOf (marker : Marker) : StateM MarkerSupply Marker := fun supply =>
  (⟨marker.origin, supply.nextCopy⟩, { supply with nextCopy := supply.nextCopy + 1 })

end MarkerSupply

structure Copying where
  supply : MarkerSupply
  made : List (Nat × Marker) := []

def Copying.marker (marker : Marker) : StateM Copying Marker := fun copying =>
  match copying.made.lookup marker.copy with
  | some copied => (copied, copying)
  | none =>
    let (copied, supply) := (MarkerSupply.copyOf marker).run copying.supply
    (copied, ⟨supply, (marker.copy, copied) :: copying.made⟩)

end JvmFrames
