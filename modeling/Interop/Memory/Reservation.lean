import Interop.Memory.Scratch

/-! The reservation of scratch memory as it is carried out on words. What is left of the region is computed before it is
known whether the request fits into it. -/
namespace Interop
open Words

namespace Scratch

def executeAvailable (scratch : Scratch) : Except Stop Nat := sub scratch.pointer scratch.bottom

def executePlace? (scratch : Scratch) (size alignment : UInt64) : Option Nat :=
  let pointer := UInt64.ofNat scratch.pointer
  if size ≤ pointer then
    let start := Alignment.maskBackward (pointer - size) alignment
    if UInt64.ofNat scratch.bottom ≤ start then some start.toNat else none
  else none

def executeReserve (scratch : Scratch) (frame : Frame) (size alignment : UInt64) :
    Except Stop (Except MemoryError Nat) :=
  match checkAlignment alignment.toNat with
  | .error reason => .ok (.error reason)
  | .ok () =>
    if scratch.depth ≠ frame.depth then .ok (.error .inactiveFrame)
    else do
      let available ← scratch.executeAvailable
      match scratch.executePlace? size alignment with
      | some start => .ok (.ok start)
      | none => .ok (.error (.stackExhausted size.toNat available))

end Scratch
end Interop
