import Interop.Number.Binary

/-! The shortest decimal text of a binary floating-point number.
The digits are the fewest that read back as the same number, and the nearest to it among those;
of two equally near the larger is taken. -/
namespace Interop.Shortest

def decimalDigits (value : Nat) : List Char := Nat.toDigits 10 value

/-- The numbers that round to the same pattern, with both ends as multiples of a common unit. -/
structure Interval where
  low : Nat
  value : Nat
  high : Nat
  unit : Nat
  closed : Bool

/-- Half a step to either side, and a quarter below a power of two, where the lower step is half as wide. -/
def interval (format : BinaryFormat) (significand : Nat) (exponent : Int) : Interval :=
  let atBoundary := significand = 2 ^ (format.precision - 1)
  let (factor, unit) := BinaryFormat.scaleRatio 1 1 (exponent - 2)
  { low := (4 * significand - if atBoundary then 1 else 2) * factor
    value := 4 * significand * factor
    high := (4 * significand + 2) * factor
    unit := unit
    closed := significand % 2 = 0 }

def Interval.contains (range : Interval) (numerator denominator : Nat) : Bool :=
  let point := numerator * range.unit
  if range.closed then decide (range.low * denominator ≤ point ∧ point ≤ range.high * denominator)
  else decide (range.low * denominator < point ∧ point < range.high * denominator)

def tenPower (exponent : Int) : Nat × Nat :=
  if 0 ≤ exponent then (10 ^ exponent.toNat, 1) else (1, 10 ^ (-exponent).toNat)

/-- The multiple of `10 ^ exponent` next to the value that lies in the interval, if one does. -/
def onGrid? (range : Interval) (exponent : Int) : Option Nat :=
  let (up, down) := tenPower exponent
  let scaled := range.value * down
  let unit := range.unit * up
  let below := scaled / unit
  let lowHit := range.contains (below * up) down
  let highHit := range.contains ((below + 1) * up) down
  if lowHit ∧ highHit then
    if 2 * (scaled % unit) < unit then some below else some (below + 1)
  else if lowHit then some below
  else if highHit then some (below + 1)
  else none

/-- Tries ever finer grids, and takes the exact value where none is left. -/
def search (range : Interval) : (grids : Nat) → (exponent : Int) → Nat × Int
  | 0, exponent =>
    let (up, down) := tenPower exponent
    (range.value * down / (range.unit * up), exponent)
  | grids + 1, exponent =>
    match onGrid? range exponent with
    | some value => (value, exponent)
    | none => search range grids (exponent - 1)

def leadingExponent (range : Interval) : Int :=
  let digits : Int := (decimalDigits range.value).length - (decimalDigits range.unit).length
  digits

def dropZeros (digits : List Char) : List Char :=
  (digits.reverse.dropWhile (· == '0')).reverse

def positional (digits : List Char) (exponent : Int) : List Char :=
  let kept := dropZeros digits
  let dropped : Int := (digits.length : Int) - kept.length
  let exponent := exponent + dropped
  let point : Int := kept.length + exponent
  if 0 ≤ exponent then kept ++ List.replicate exponent.toNat '0'
  else if 0 < point then kept.take point.toNat ++ '.' :: kept.drop point.toNat
  else '0' :: '.' :: List.replicate (-point).toNat '0' ++ kept

/-- Seventeen digits tell any two double-precision numbers apart; one grid more covers the guess of the first. -/
def gridCount : Nat := 19

def magnitudeText (format : BinaryFormat) (significand : Nat) (exponent : Int) : List Char :=
  if significand = 0 then ['0']
  else
    let range := interval format significand exponent
    let (value, exponent) := search range gridCount (leadingExponent range)
    positional (decimalDigits value) exponent

def text (format : BinaryFormat) (bits : Nat) : String :=
  match format.datum bits with
  | .nan => "NaN"
  | .infinity false => "inf"
  | .infinity true => "-inf"
  | .finite negative significand exponent =>
    let digits := magnitudeText format significand exponent
    String.ofList (if negative then '-' :: digits else digits)

end Interop.Shortest

namespace Interop

def Binary32.text (x : Binary32) : String := Shortest.text .single x.bits.toNat

def Binary64.text (x : Binary64) : String := Shortest.text .double x.bits.toNat

end Interop
