import Interop.Memory.Allocation
import Interop.Number.Alignment

/-! A scratch stack: a region that is given out from its top downwards and taken back frame by frame.
Only the innermost frame gives out space, and what it gives out is zeroed. -/
namespace Interop

/-- The region from `bottom` to `top`, free below `pointer`, with `depth` live frames. -/
structure Scratch where
  bottom : Nat
  top : Nat
  pointer : Nat
  depth : Nat
deriving DecidableEq, Repr

/-- A live frame: the pointer to restore when it ends, and its depth from one. -/
structure Frame where
  saved : Nat
  depth : Nat
deriving DecidableEq, Repr

/-- Memory with a scratch stack in it, and whatever else native code keeps. -/
structure Machine (World : Type) where
  store : Store
  scratch : Scratch
  world : World

namespace Machine

variable {World ε α : Type}

def onStore (action : EStateM ε Store α) : EStateM ε (Machine World) α :=
  fun machine =>
    match action machine.store with
    | .ok result store => .ok result { machine with store }
    | .error reason store => .error reason { machine with store }

end Machine

namespace Scratch

def defaultSize : Nat := 4 * 1024 * 1024

def defaultAlignment : Nat := 8

def ofAllocation (region : Allocation) : Scratch :=
  ⟨region.start, region.start + region.size, region.start + region.size, 0⟩

def new (size alignment : Nat) : EStateM MemoryError Store Scratch := do
  return ofAllocation (← Allocation.new size alignment)

def size (scratch : Scratch) : Nat := scratch.top - scratch.bottom

def available (scratch : Scratch) : Nat := scratch.pointer - scratch.bottom

def nextFrame (scratch : Scratch) : Frame := ⟨scratch.pointer, scratch.depth + 1⟩

def enter (scratch : Scratch) : Scratch := { scratch with depth := scratch.depth + 1 }

def leave (scratch : Scratch) (frame : Frame) : Scratch :=
  { scratch with pointer := frame.saved, depth := frame.depth - 1 }

/-- The highest aligned start with room for `size` bytes below the pointer. -/
def place? (scratch : Scratch) (size alignment : Nat) : Option Nat :=
  if size ≤ scratch.pointer then
    let start := Alignment.backward (scratch.pointer - size) alignment
    if scratch.bottom ≤ start then some start else none
  else none

/-- Where an allocation from `frame` starts, or why there is none. -/
def reserve (scratch : Scratch) (frame : Frame) (size alignment : Nat) : Except MemoryError Nat := do
  checkAlignment alignment
  if scratch.depth ≠ frame.depth then .error .inactiveFrame
  else match scratch.place? size alignment with
    | some start => .ok start
    | none => .error (.stackExhausted size scratch.available)

variable {World ε α : Type}

/-- Gives out zeroed bytes that stay valid until the frame ends. -/
def allocate (frame : Frame) (size alignment : Nat) : EStateM MemoryError (Machine World) View := do
  let machine ← EStateM.get
  match machine.scratch.reserve frame size alignment with
  | .error reason => throw reason
  | .ok start =>
    modify fun machine => { machine with scratch := { machine.scratch with pointer := start } }
    let view := View.atAddress start size true
    Machine.onStore (view.fill 0)
    return view

/-- Runs a body in a new innermost frame and takes back what it allocated, however it ends. -/
def withFrame (body : Frame → EStateM ε (Machine World) α) : EStateM ε (Machine World) α :=
  fun machine =>
    let frame := machine.scratch.nextFrame
    match body frame { machine with scratch := machine.scratch.enter } with
    | .ok result after => .ok result { after with scratch := after.scratch.leave frame }
    | .error reason after => .error reason { after with scratch := after.scratch.leave frame }

end Scratch
end Interop
