import Interop.Number.Words

/-! Binary floating-point formats as bit patterns, with exact values and one rounding rule.
Every operation computes the exact result and rounds it once, to the nearest pattern and to even on ties. -/
namespace Interop

/-- A binary interchange format, given by its significand precision and its exponent field. -/
structure BinaryFormat where
  precision : Nat
  exponentBits : Nat

namespace BinaryFormat

def single : BinaryFormat := ⟨24, 8⟩

def double : BinaryFormat := ⟨53, 11⟩

def specialField (format : BinaryFormat) : Nat := 2 ^ format.exponentBits - 1

/-- The weight of the last bit of a subnormal, as a power of two. -/
def leastExponent (format : BinaryFormat) : Int :=
  3 - 2 ^ (format.exponentBits - 1) - format.precision

def signBit (format : BinaryFormat) : Nat := 2 ^ (format.exponentBits + format.precision - 1)

def infinityBits (format : BinaryFormat) : Nat := format.specialField * 2 ^ (format.precision - 1)

/-- What a pattern stands for; a finite one has the value `significand * 2 ^ exponent`. -/
inductive Datum where
  | nan
  | infinity (negative : Bool)
  | finite (negative : Bool) (significand : Nat) (exponent : Int)
deriving DecidableEq, Repr

def datum (format : BinaryFormat) (bits : Nat) : Datum :=
  let negative := decide (format.signBit ≤ bits)
  let field := bits / 2 ^ (format.precision - 1) % 2 ^ format.exponentBits
  let fraction := bits % 2 ^ (format.precision - 1)
  if field = format.specialField then
    if fraction = 0 then .infinity negative else .nan
  else if field = 0 then .finite negative fraction format.leastExponent
  else .finite negative (2 ^ (format.precision - 1) + fraction) (format.leastExponent + field - 1)

def withSign (format : BinaryFormat) (negative : Bool) (magnitude : Nat) : Nat :=
  if negative then format.signBit + magnitude else magnitude

/-- The quotient rounded to the nearest integer, and to the even one of two. -/
def roundQuotient (numerator denominator : Nat) : Nat :=
  let quotient := numerator / denominator
  let twice := 2 * (numerator % denominator)
  if denominator < twice ∨ (twice = denominator ∧ quotient % 2 = 1) then quotient + 1 else quotient

def scaleRatio (numerator denominator : Nat) (exponent : Int) : Nat × Nat :=
  if 0 ≤ exponent then (numerator * 2 ^ exponent.toNat, denominator)
  else (numerator, denominator * 2 ^ (-exponent).toNat)

/-- The greatest power of two that is at most a positive ratio. -/
def ratioLog (numerator denominator : Nat) : Int :=
  let guess : Int := numerator.log2 - denominator.log2
  let (scaled, unit) := scaleRatio numerator denominator (-guess)
  if scaled < unit then guess - 1 else guess

/-- The pattern nearest to a ratio; one past the largest finite pattern is the infinity. -/
def round (format : BinaryFormat) (negative : Bool) (numerator denominator : Nat) : Nat :=
  format.withSign negative <|
    if numerator = 0 then 0
    else
      let exponent := max format.leastExponent
        (ratioLog numerator denominator - (format.precision - 1 : Nat))
      let (scaled, unit) := scaleRatio numerator denominator (-exponent)
      min format.infinityBits
        ((exponent - format.leastExponent).toNat * 2 ^ (format.precision - 1)
          + roundQuotient scaled unit)

def quiet (format : BinaryFormat) (bits : Nat) : Nat := bits ||| 2 ^ (format.precision - 2)

/-- Beyond this many binary places every scaled value is zero or infinite. -/
def scaleLimit : Int := 5000

def scale (format : BinaryFormat) (bits : Nat) (exponent : Int) : Nat :=
  match format.datum bits with
  | .nan => format.quiet bits
  | .infinity _ => bits
  | .finite negative significand own =>
    let shift := max (-scaleLimit) (min scaleLimit exponent)
    let (numerator, denominator) := scaleRatio significand 1 (own + shift)
    format.round negative numerator denominator

/-- The sum of an integer and a value; a sum of zero is positive. -/
def addInt (format : BinaryFormat) (integer : Int) (bits : Nat) : Nat :=
  match format.datum bits with
  | .nan => format.quiet bits
  | .infinity _ => bits
  | .finite negative significand exponent =>
    let (numerator, denominator) := scaleRatio significand 1 exponent
    let signed : Int := if negative then -numerator else numerator
    let total := integer * denominator + signed
    format.round (decide (total < 0)) total.natAbs denominator

end BinaryFormat

/-- A single-precision number, kept as its pattern so that what is not a number keeps its payload. -/
structure Binary32 where
  bits : UInt32
deriving DecidableEq, Repr, Inhabited

structure Binary64 where
  bits : UInt64
deriving DecidableEq, Repr, Inhabited

namespace Binary32

def ofNat (bits : Nat) : Binary32 := ⟨UInt32.ofNat bits⟩

def scale (x : Binary32) (exponent : Int) : Binary32 :=
  ofNat (BinaryFormat.single.scale x.bits.toNat exponent)

end Binary32

namespace Binary64

def ofNat (bits : Nat) : Binary64 := ⟨UInt64.ofNat bits⟩

def scale (x : Binary64) (exponent : Int) : Binary64 :=
  ofNat (BinaryFormat.double.scale x.bits.toNat exponent)

def addInt (integer : Int) (x : Binary64) : Binary64 :=
  ofNat (BinaryFormat.double.addInt integer x.bits.toNat)

def copySign (magnitude sign : Binary64) : Binary64 :=
  ⟨(magnitude.bits &&& 0x7fffffffffffffff) ||| (sign.bits &&& 0x8000000000000000)⟩

end Binary64
end Interop
