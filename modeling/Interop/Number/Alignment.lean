import Interop.Number.Words

/-! Rounding of word values to multiples of an alignment, in numbers and by masks.
Values are below two to the power of 64, and rounding up is refused when its result is not. -/
namespace Interop

namespace Alignment

/-- The bits that are clear in every multiple of a power of two; alignment zero clears them all. -/
def lowMask (alignment : Nat) : Nat :=
  if alignment = 0 then wordBound - 1 else alignment - 1

def backward (value alignment : Nat) : Nat :=
  value - (value &&& lowMask alignment)

/-- Clears the low bits of the last word below `value + alignment`. -/
def forward? (value alignment : Nat) : Option Nat :=
  if alignment = 0 then none
  else (addWords? value (alignment - 1)).map (backward · alignment)

/-- Clears the low bits with a mask, which is made by a subtraction that may wrap around. -/
def maskBackward (value alignment : UInt64) : UInt64 := value &&& ~~~(alignment - 1)

/-- Clears the low bits of the value and one less than the alignment, if their sum is a word. -/
def maskForward? (value alignment : UInt64) : Option UInt64 := do
  let mask ← Words.checkedSub alignment 1
  let sum ← Words.checkedAdd value mask
  some (sum &&& ~~~mask)

theorem and_lowMask {alignment : Nat} (power : alignment.isPowerOfTwo) (value : Nat) :
    value &&& lowMask alignment = value % alignment := by
  obtain ⟨exponent, rfl⟩ := power
  simp [lowMask, Nat.and_two_pow_sub_one_eq_mod]

theorem backward_eq {alignment : Nat} (power : alignment.isPowerOfTwo) (value : Nat) :
    backward value alignment = value - value % alignment := by
  rw [backward, and_lowMask power]

end Alignment
end Interop
