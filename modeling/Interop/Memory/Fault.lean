import Interop.Memory.Address

/-! Why an access to memory is refused. -/
namespace Interop

inductive MemoryError where
  | outOfBounds (offset width size : Nat)
  | notReadable
  | notWritable
  | misaligned (address : Address) (alignment : Nat)
  | sizeMismatch (expected actual : Nat)
  | invalidAlignment (alignment : Nat)
  | overflow (position width size : Nat)
  | underflow (position width size : Nat)
  | addressOverflow (address : Address) (delta : Int)
  | allocationFailed (size alignment : Nat)
  | stackExhausted (requested available : Nat)
  | inactiveFrame
deriving DecidableEq, Repr

namespace MemoryError

def message : MemoryError → String
  | outOfBounds offset width size =>
    s!"Access out of bounds: offset {offset} with width {width} exceeds memory size {size}"
  | notReadable => "Memory is not readable"
  | notWritable => "Memory is not writable"
  | misaligned address alignment =>
    s!"Address {address.text} is not aligned to {alignment} bytes"
  | sizeMismatch expected actual =>
    s!"Memory size {actual} does not match required size {expected}"
  | invalidAlignment alignment =>
    s!"Invalid alignment {alignment}: must be a non-zero power of two"
  | overflow position width size =>
    s!"Encoder overflow: cannot put {width} bytes at position {position} of {size}"
  | underflow position width size =>
    s!"Decoder underflow: cannot take {width} bytes at position {position} of {size}"
  | addressOverflow address delta =>
    s!"Address arithmetic overflow: {address.text} by {delta}"
  | allocationFailed size alignment =>
    s!"Native allocation of {size} bytes aligned to {alignment} failed"
  | stackExhausted requested available =>
    s!"Insufficient space in memory stack: {requested} bytes requested, {available} available"
  | inactiveFrame => "Memory stack frame is not the innermost live frame"

def isOutOfBounds : MemoryError → Bool
  | outOfBounds .. | overflow .. | underflow .. => true
  | _ => false

def isPermission : MemoryError → Bool
  | notReadable | notWritable => true
  | _ => false

end MemoryError

/-- An alignment is a power of two. -/
def checkAlignment (alignment : Nat) : Except MemoryError Unit :=
  if alignment.isPowerOfTwo then .ok () else .error (.invalidAlignment alignment)

namespace Address

def requireAlignedTo (address : Address) (alignment : Nat) : Except MemoryError Unit := do
  checkAlignment alignment
  if address.isAlignedTo alignment then .ok () else .error (.misaligned address alignment)

def add (address : Address) (offset : Nat) : Except MemoryError Address :=
  if address.toNat + offset < 2 ^ 64 then .ok (ofNat (address.toNat + offset))
  else .error (.addressOverflow address offset)

def sub (address : Address) (offset : Nat) : Except MemoryError Address :=
  if offset ≤ address.toNat then .ok (ofNat (address.toNat - offset))
  else .error (.addressOverflow address (-offset))

/-- The signed distance from `origin`, which must fit a signed word. -/
def distanceFrom (address origin : Address) : Except MemoryError Int :=
  let delta : Int := (address.toNat : Int) - origin.toNat
  if -2 ^ 63 ≤ delta ∧ delta < 2 ^ 63 then .ok delta
  else .error (.addressOverflow origin delta)

end Address
end Interop
