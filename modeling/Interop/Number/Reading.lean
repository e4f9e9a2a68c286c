import Interop.Number.Binary
import Interop.Text.Hex

/-! Numbers from their decimal text.
An integer is read from the left, so the first digit that leaves its range decides before what follows. -/
namespace Interop.Reading

inductive IntegerError where
  | empty
  | invalidDigit
  | tooLarge
  | tooSmall
deriving DecidableEq, Repr

def IntegerError.message : IntegerError → String
  | empty => "cannot parse integer from empty string"
  | invalidDigit => "invalid digit found in string"
  | tooLarge => "number too large to fit in target type"
  | tooSmall => "number too small to fit in target type"

/-- Appends digits to `total` while it stays within `limit`. -/
def magnitude (radix limit : Nat) (beyond : IntegerError) :
    (total : Nat) → List Char → Except IntegerError Nat
  | total, [] => .ok total
  | total, c :: rest =>
    match Hex.value? c with
    | none => .error .invalidDigit
    | some digit =>
      if radix ≤ digit then .error .invalidDigit
      else if limit < total * radix + digit then .error beyond
      else magnitude radix limit beyond (total * radix + digit) rest

def unsigned (radix limit : Nat) : List Char → Except IntegerError Nat
  | [] => .error .empty
  | ['+'] => .error .invalidDigit
  | '+' :: rest => magnitude radix limit .tooLarge 0 rest
  | text => magnitude radix limit .tooLarge 0 text

/-- A signed integer from `-limit - 1` to `limit`, with an optional sign. -/
def signed (radix limit : Nat) : List Char → Except IntegerError Int
  | [] => .error .empty
  | ['+'] | ['-'] => .error .invalidDigit
  | '+' :: rest => Int.ofNat <$> magnitude radix limit .tooLarge 0 rest
  | '-' :: rest => (fun size : Nat => -(size : Int)) <$> magnitude radix (limit + 1) .tooSmall 0 rest
  | text => Int.ofNat <$> magnitude radix limit .tooLarge 0 text

inductive FloatError where
  | empty
  | invalid
deriving DecidableEq, Repr

def FloatError.message : FloatError → String
  | empty => "cannot parse float from empty string"
  | invalid => "invalid float literal"

def isDigit (c : Char) : Bool := '0' ≤ c && c ≤ '9'

def digitsValue (digits : List Char) : Nat :=
  digits.foldl (fun total c => total * 10 + (c.toNat - '0'.toNat)) 0

/-- A decimal number: its digits as one integer, and the power of ten of the last of them. -/
structure Decimal where
  significand : Nat
  exponent : Int
deriving DecidableEq, Repr

/-- Beyond this exponent, and below its negative, a number of the wider format is infinite or zero. -/
def exponentLimit : Int := 400

def Decimal.round (number : Decimal) (format : BinaryFormat) (negative : Bool) : Nat :=
  let length : Int := (Nat.toDigits 10 number.significand).length
  if number.significand = 0 then format.withSign negative 0
  else if exponentLimit < number.exponent + length then
    format.withSign negative format.infinityBits
  else if number.exponent + length < -exponentLimit then format.withSign negative 0
  else if 0 ≤ number.exponent then
    format.round negative (number.significand * 10 ^ number.exponent.toNat) 1
  else format.round negative number.significand (10 ^ (-number.exponent).toNat)

def exponent? (text : List Char) : Option Int :=
  let (negative, digits) := match text with
    | '-' :: rest => (true, rest)
    | '+' :: rest => (false, rest)
    | rest => (false, rest)
  if digits.isEmpty || !digits.all isDigit then none
  else
    let size : Int := digitsValue digits
    some (if negative then -size else size)

/-- Digits with at most one point among or beside them, and an optional exponent. -/
def decimal? (text : List Char) : Option Decimal := do
  let whole := text.takeWhile isDigit
  let rest := text.dropWhile isDigit
  let (fraction, rest) := match rest with
    | '.' :: rest => (rest.takeWhile isDigit, rest.dropWhile isDigit)
    | rest => ([], rest)
  if whole.isEmpty && fraction.isEmpty then none
  let exponent ← match rest with
    | [] => some 0
    | c :: rest => if c = 'e' ∨ c = 'E' then exponent? rest else none
  some ⟨digitsValue (whole ++ fraction), exponent - fraction.length⟩

/-- A number that is written with letters, in either case. -/
def special? (format : BinaryFormat) (negative : Bool) (text : List Char) : Option Nat :=
  match String.ofList (text.map Char.toLower) with
  | "inf" | "infinity" => some (format.withSign negative format.infinityBits)
  | "nan" => some (format.withSign negative (format.quiet format.infinityBits))
  | _ => none

def float (format : BinaryFormat) (text : List Char) : Except FloatError Nat :=
  if text.isEmpty then .error .empty
  else
    let (negative, rest) := match text with
      | '-' :: rest => (true, rest)
      | '+' :: rest => (false, rest)
      | rest => (false, rest)
    match special? format negative rest with
    | some bits => .ok bits
    | none =>
      match decimal? rest with
      | some number => .ok (number.round format negative)
      | none => .error .invalid

end Interop.Reading
