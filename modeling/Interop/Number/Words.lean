/-! Words, and operations on them that are refused, or that a machine stops at, when their operands are out of range.
A difference of counts may not fall below zero, a shift must be shorter than the word, and a buffer must be of a
length that can be requested. -/
namespace Interop

-- A power of natural numbers is the one of the core library, also in a module that knows the powers of a monoid.
attribute [instance (20000)] instPowNat

attribute [default_instance 20000] instPowNat

/-- One more than the largest size, offset or address. -/
def wordBound : Nat := 2 ^ 64

def addWords? (a b : Nat) : Option Nat :=
  if a + b < wordBound then some (a + b) else none

def mulWords? (a b : Nat) : Option Nat :=
  if a * b < wordBound then some (a * b) else none

/-- Why a computation stops without a result. -/
inductive Stop where
  | difference (left right : Nat)
  | shift (amount bits : Nat)
  | buffer (length : Nat)
deriving DecidableEq, Repr

/-- One more than the length of the longest buffer. -/
def bufferBound : Nat := 2 ^ 63

namespace Words

def checkedAdd (left right : UInt64) : Option UInt64 :=
  let sum := left + right
  if sum < left then none else some sum

def checkedSub (left right : UInt64) : Option UInt64 :=
  if left < right then none else some (left - right)

def sub (left right : Nat) : Except Stop Nat :=
  if right ≤ left then .ok (left - right) else .error (.difference left right)

def shiftLeft (bits : UInt64) (amount : Nat) : Except Stop UInt64 :=
  if amount < 64 then .ok (bits <<< UInt64.ofNat amount) else .error (.shift amount 64)

/-- Shifts to the right and keeps the sign. -/
def shiftRight (bits : UInt64) (amount : Nat) : Except Stop UInt64 :=
  if amount < 64 then .ok (UInt64.ofBitVec (bits.toBitVec.sshiftRight amount)) else .error (.shift amount 64)

def widePower (exponent : Nat) : Except Stop Int :=
  if exponent < 128 then .ok (1#128 <<< exponent).toInt else .error (.shift exponent 128)

/-- Asks for a buffer, where every length below the limit can be had. -/
def requestBuffer (limit length : Nat) : Except Stop Unit :=
  if length < limit then .ok () else .error (.buffer length)

end Words
end Interop
