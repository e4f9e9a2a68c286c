import Interop.Memory.View

/-! Owned regions of native memory, which are given back exactly once. -/
namespace Interop

/-- Who takes a region back. -/
inductive Owner where
  /-- The allocator that gave it out. -/
  | allocator
  /-- The code that handed it over, which wants its address back. -/
  | foreign
  /-- Nobody, for there are no bytes. -/
  | nobody
deriving DecidableEq, Repr

structure Allocation where
  start : Nat
  size : Nat
  owner : Owner
deriving DecidableEq, Repr

namespace Allocation

/-- The largest size and alignment that may be asked for together. -/
def requestLimit : Nat := 2 ^ 63

/-- Gives out `size` zeroed bytes; no bytes at all lie at the alignment itself. -/
def new (size alignment : Nat) : EStateM MemoryError Store Allocation :=
  fun store =>
    match checkAlignment alignment with
    | .error reason => .error reason store
    | .ok () =>
      if size = 0 then .ok ⟨alignment, 0, .nobody⟩ store
      else if requestLimit < size + alignment then .error (.allocationFailed size alignment) store
      else match store.allocate? size alignment with
        | some (start, after) => .ok ⟨start, size, .allocator⟩ after
        | none => .error (.allocationFailed size alignment) store

def adopt (start size : Nat) : Allocation := ⟨start, size, .foreign⟩

def view (allocation : Allocation) : View := .atAddress allocation.start allocation.size false

def viewMut (allocation : Allocation) : View := .atAddress allocation.start allocation.size true

def release (allocation : Allocation) : Option Address :=
  match allocation.owner with
  | .foreign => some (Address.ofNat allocation.start)
  | .allocator | .nobody => none

end Allocation
end Interop
