import Interop.Library.Routine

/-! Functions of the C library that every process of the host has: absolute values, character case,
string lengths, numbers from text, division with remainder, and floating-point scaling. -/
namespace Interop.CRoutines

def int : NativeType := .scalar .i32
def long : NativeType := .scalar .long
def double : NativeType := .scalar .f64

def quotientLayout (name : String) (type : CScalar) : StructLayout :=
  let width := type.width .host
  ⟨name, 2 * width, width, .host, [⟨"quot", 0, .scalar type⟩, ⟨"rem", width, .scalar type⟩]⟩

/-- The upper case of a character of the C locale; negative bytes come back as unsigned ones. -/
def toUpper (c : Int) : Int :=
  if 97 ≤ c ∧ c ≤ 122 then c - 32 else if -128 ≤ c ∧ c < -1 then c + 256 else c

def toLower (c : Int) : Int :=
  if 65 ≤ c ∧ c ≤ 90 then c + 32 else if -128 ≤ c ∧ c < -1 then c + 256 else c

/-- One more than the index of the lowest bit that is set, of `count` bits from `index` on. -/
def firstSet (bits : Nat) : (count index : Nat) → Nat
  | 0, _ => 0
  | count + 1, index => if bits.testBit index then index + 1 else firstSet bits count (index + 1)

def isSpace (byte : UInt8) : Bool := byte = 32 || (9 ≤ byte && byte ≤ 13)

def isDigit (byte : UInt8) : Bool := 48 ≤ byte && byte ≤ 57

def digitsValue (bytes : List UInt8) : Nat :=
  (bytes.takeWhile isDigit).foldl (fun total byte => total * 10 + (byte.toNat - 48)) 0

/-- The number at the start of a text, kept within the range of a long. -/
def leadingLong (bytes : List UInt8) : Int :=
  match bytes.dropWhile isSpace with
  | 45 :: digits => max (-2 ^ 63) (-(digitsValue digits : Int))
  | 43 :: digits => min (2 ^ 63 - 1) (digitsValue digits : Int)
  | digits => min (2 ^ 63 - 1) (digitsValue digits : Int)

def stringAt (store : Store) (address : Address) : List UInt8 :=
  store.cString address.toNat Store.addressSpace

def all : List Routine := [
  ⟨"abs", [.i32], some int, fun
    | _, [.i32 x] => some (.i32 (if x < 0 then -x else x))
    | _, _ => none⟩,
  ⟨"labs", [.long], some long, fun
    | _, [.i64 x] => some (.i64 (if x < 0 then -x else x))
    | _, _ => none⟩,
  ⟨"llabs", [.i64], some (.scalar .i64), fun
    | _, [.i64 x] => some (.i64 (if x < 0 then -x else x))
    | _, _ => none⟩,
  ⟨"strlen", [.pointer], some (.scalar .size), fun
    | store, [.address text] => some (.u64 (.ofNat (stringAt store text).length))
    | _, _ => none⟩,
  ⟨"toupper", [.i32], some int, fun
    | _, [.i32 c] => some (.i32 (.ofInt (toUpper c.toInt)))
    | _, _ => none⟩,
  ⟨"tolower", [.i32], some int, fun
    | _, [.i32 c] => some (.i32 (.ofInt (toLower c.toInt)))
    | _, _ => none⟩,
  ⟨"ffs", [.i32], some int, fun
    | _, [.i32 x] => some (.i32 (.ofInt (firstSet x.toUInt32.toNat 32 0)))
    | _, _ => none⟩,
  ⟨"atoi", [.pointer], some int, fun
    | store, [.address text] => some (.i32 (.ofInt (leadingLong (stringAt store text))))
    | _, _ => none⟩,
  ⟨"atol", [.pointer], some long, fun
    | store, [.address text] => some (.i64 (.ofInt (leadingLong (stringAt store text))))
    | _, _ => none⟩,
  ⟨"div", [.i32, .i32], some (.struct (quotientLayout "div_t" .i32)), fun
    | _, [.i32 x, .i32 y] =>
      some (.struct (Bytes.ofNat 4 (x / y).toUInt32.toNat ++ Bytes.ofNat 4 (x % y).toUInt32.toNat))
    | _, _ => none⟩,
  ⟨"ldiv", [.long, .long], some (.struct (quotientLayout "ldiv_t" .long)), fun
    | _, [.i64 x, .i64 y] =>
      some (.struct (Bytes.ofNat 8 (x / y).toUInt64.toNat ++ Bytes.ofNat 8 (x % y).toUInt64.toNat))
    | _, _ => none⟩,
  ⟨"copysign", [.f64, .f64], some double, fun
    | _, [.f64 x, .f64 y] => some (.f64 (x.copySign y))
    | _, _ => none⟩,
  ⟨"ldexp", [.f64, .i32], some double, fun
    | _, [.f64 x, .i32 exponent] => some (.f64 (x.scale exponent.toInt))
    | _, _ => none⟩,
  ⟨"ldexpf", [.f32, .i32], some (.scalar .f32), fun
    | _, [.f32 x, .i32 exponent] => some (.f32 (x.scale exponent.toInt))
    | _, _ => none⟩,
  ⟨"srand", [.u32], none, fun _ _ => none⟩]

def process {World : Type} (name : String) : Option (NativeCode World) := Routine.find? all name

end Interop.CRoutines
