import Interop.CType.Spelling
import Interop.Marshal.Value
import Interop.Memory.View

/-! Lowering values to native bytes and lifting them back.
A conversion is checked as a whole before any byte is written. -/
namespace Interop

inductive MarshalError where
  | typeMismatch (expected got : String)
  | outOfRange (value : Int) (type : String) (width : Nat)
  | unsupportedWidth (width : Nat)
  | memory (error : MemoryError)
deriving DecidableEq, Repr

def MarshalError.message : MarshalError → String
  | typeMismatch expected got => s!"Type mismatch: expected {expected}, got {got}"
  | outOfRange value type width => s!"Value {value} does not fit in {type} ({width} bytes)"
  | unsupportedWidth width => s!"Unsupported native width: {width} bytes"
  | memory error => error.message

/-- What happens to an integer that its native width cannot hold. -/
inductive Narrowing where
  /-- It is refused. -/
  | checked
  /-- Its low bytes are kept. -/
  | wrap
deriving DecidableEq, Repr

namespace CScalar

/-- The managed value whose number is `integer` reduced to the range of its kind. -/
def valueOf (scalar : CScalar) (integer : Int) : Value :=
  match scalar with
  | i8 => .i8 (.ofInt integer)
  | u8 => .u8 (.ofInt integer)
  | i16 => .i16 (.ofInt integer)
  | u16 => .u16 (.ofInt integer)
  | i32 => .i32 (.ofInt integer)
  | u32 => .u32 (.ofInt integer)
  | i64 | long | ptrdiff => .i64 (.ofInt integer)
  | u64 | unsignedLong | size => .u64 (.ofInt integer)
  | f32 => .f32 ⟨.ofInt integer⟩
  | f64 => .f64 ⟨.ofInt integer⟩
  | pointer => .address ⟨.ofInt integer⟩

end CScalar

/-- The low bytes of an integer in two's complement. -/
def lowBytes (width : Nat) (integer : Int) : UInt64 :=
  UInt64.ofNat (integer % 2 ^ (8 * width)).toNat

/-- The low bytes of a register as a number in two's complement. -/
def signedReading (width : Nat) (bits : UInt64) : Int :=
  let low := bits.toNat % 2 ^ (8 * width)
  if 2 ^ (8 * width) ≤ 2 * low then (low : Int) - 2 ^ (8 * width) else low

def unsignedReading (width : Nat) (bits : UInt64) : Int :=
  bits.toNat % 2 ^ (8 * width)

/-- The integers that a width holds, in two's complement for the signed class. -/
def fits (integer : Int) (width : Nat) : AbiClass → Bool
  | .signed => decide (-2 ^ (8 * width - 1) ≤ integer ∧ integer < 2 ^ (8 * width - 1))
  | _ => decide (0 ≤ integer ∧ integer < 2 ^ (8 * width))

namespace AbiType

def mismatch (type : AbiType) (value : Value) : MarshalError :=
  .typeMismatch s!"{type.text} ({type.kind.text})" value.kind.text

def lowerBits (type : AbiType) (policy : Narrowing) (value : Value) : Except MarshalError UInt64 :=
  match type.native with
  | .struct _ => .error (type.mismatch value)
  | .scalar own =>
    if value.kind ≠ own.kind then .error (type.mismatch value)
    else match value with
      | .f32 number => .ok number.bits.toUInt64
      | .f64 number => .ok number.bits
      | _ => match value.toInt? with
        | none => .error (type.mismatch value)
        | some integer =>
          if policy = .checked ∧ fits integer type.width own.abiClass = false then
            .error (.outOfRange integer type.text type.width)
          else .ok (lowBytes type.width integer)

def liftBits (type : AbiType) (bits : UInt64) : Except MarshalError Value :=
  match type.native with
  | .struct _ => .error (.typeMismatch "scalar" type.text)
  | .scalar own =>
    .ok (own.valueOf (match own.extension type.platform with
      | .sign => signedReading type.width bits
      | .zero | .none => unsignedReading type.width bits))

/-- The memory scalar that carries the bits of a width. -/
def carrier? : Nat → Option ScalarType
  | 1 => some .u8
  | 2 => some .u16
  | 4 => some .u32
  | 8 => some .u64
  | _ => none

def readBits (view : View) (offset width : Nat) (store : Store) : Except MarshalError UInt64 :=
  match carrier? width with
  | none => .error (.unsupportedWidth width)
  | some carrier =>
    match view.get carrier offset .native store with
    | .ok bits => .ok (UInt64.ofNat bits.toNat)
    | .error error => .error (.memory error)

def writeBits (view : View) (offset width : Nat) (bits : UInt64) : EStateM MarshalError Store Unit :=
  match carrier? width with
  | none => throw (.unsupportedWidth width)
  | some carrier => (view.set carrier offset (BitVec.ofNat _ bits.toNat) .native).adaptExcept .memory

def lift (type : AbiType) (view : View) (offset : Nat) (store : Store) : Except MarshalError Value :=
  match type.native with
  | .struct layout =>
    match view.readBytes offset layout.size store with
    | .ok bytes => .ok (.struct bytes)
    | .error error => .error (.memory error)
  | .scalar _ => do
    let bits ← readBits view offset type.width store
    type.liftBits bits

def lower (type : AbiType) (policy : Narrowing) (view : View) (offset : Nat) (value : Value) :
    EStateM MarshalError Store Unit :=
  match value with
  | .struct bytes =>
    match type.native with
    | .scalar _ => throw (type.mismatch value)
    | .struct layout =>
      if bytes.length = layout.size then (view.writeBytes offset bytes).adaptExcept .memory
      else throw (.typeMismatch s!"{type.text} ({layout.size} bytes)" s!"{bytes.length} bytes")
  | _ =>
    match type.lowerBits policy value with
    | .ok bits => writeBits view offset type.width bits
    | .error error => throw error

end AbiType
end Interop
