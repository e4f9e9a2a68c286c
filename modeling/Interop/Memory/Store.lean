import Interop.Memory.Fault

/-! The contents of memory: one byte at every address, and how far addresses have been given out.
Each operation is described by the byte that every address holds afterwards. -/
namespace Interop

structure Store where
  byteAt : Nat → UInt8
  /-- No address from here on has been given out. -/
  frontier : Nat

namespace Store

/-- Memory before anything is allocated; the first page stays unused. -/
def initial : Store := ⟨fun _ => 0, 4096⟩

def read (store : Store) (start count : Nat) : List UInt8 :=
  (List.range count).map fun i => store.byteAt (start + i)

def write (store : Store) (start : Nat) (bytes : List UInt8) : Store :=
  let held := bytes.toArray
  { store with
    byteAt := fun address =>
      if address < start then store.byteAt address
      else (held[address - start]?).getD (store.byteAt address) }

def fill (store : Store) (start count : Nat) (byte : UInt8) : Store :=
  { store with
    byteAt := fun address =>
      if start ≤ address ∧ address < start + count then byte else store.byteAt address }

/-- Copies as if through a temporary, so the ranges may overlap. -/
def copy (store : Store) (source target count : Nat) : Store :=
  store.write target (store.read source count)

/-- Addresses of one process fit in forty-seven bits. -/
def addressSpace : Nat := 2 ^ 47

/-- Gives out a range of zeroed bytes, at a multiple of sixteen and of the alignment. -/
def allocate? (store : Store) (size alignment : Nat) : Option (Nat × Store) :=
  let stride := max 16 alignment
  let start := (store.frontier + stride - 1) / stride * stride
  if start + size ≤ addressSpace then
    some (start, { store.fill start size 0 with frontier := start + size })
  else none

@[simp] theorem length_read (store : Store) (start count : Nat) :
    (store.read start count).length = count := by
  simp [read]

theorem getElem?_read (store : Store) (start count i : Nat) :
    (store.read start count)[i]? = if i < count then some (store.byteAt (start + i)) else none := by
  by_cases inside : i < count <;> simp [read, inside]

theorem byteAt_write (store : Store) (start : Nat) (bytes : List UInt8) (address : Nat) :
    (store.write start bytes).byteAt address =
      if address < start then store.byteAt address
      else (bytes[address - start]?).getD (store.byteAt address) := by
  simp [write]

theorem byteAt_write_of_outside (store : Store) (start : Nat) (bytes : List UInt8) {address : Nat}
    (outside : address < start ∨ start + bytes.length ≤ address) :
    (store.write start bytes).byteAt address = store.byteAt address := by
  rw [byteAt_write]
  split
  · rfl
  · rw [List.getElem?_eq_none (by omega)]
    rfl

theorem read_write (store : Store) (start : Nat) (bytes : List UInt8) :
    (store.write start bytes).read start bytes.length = bytes := by
  apply List.ext_getElem?
  intro i
  rw [getElem?_read, byteAt_write]
  by_cases inside : i < bytes.length
  · have after : ¬ start + i < start := by omega
    simp [inside, after]
  · simp [inside]

/-- Carries out a change of the store if its check passes, and leaves the store alone otherwise. -/
def guarded {ε α : Type} (check : Except ε α) (change : α → Store → Store) : EStateM ε Store Unit :=
  fun store =>
    match check with
    | .ok target => .ok () (change target store)
    | .error reason => .error reason store

def observe {ε α : Type} (look : Store → Except ε α) : EStateM ε Store α :=
  fun store =>
    match look store with
    | .ok result => .ok result store
    | .error reason => .error reason store

end Store
end Interop
