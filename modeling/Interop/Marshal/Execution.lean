import Interop.Marshal.Signature
import Interop.Number.Words

/-! The conversions step by step, as they are carried out on words: with shifts and masks, and with the buffer that a
struct is read into. A step out of range stops the conversion before it has a result or an error to report. -/
namespace Interop
open Words

def mask (bits : UInt64) (width : Nat) : Except Stop UInt64 :=
  if 8 ≤ width then .ok bits
  else do
    let next ← shiftLeft 1 (width * 8)
    let low ← sub next.toNat 1
    .ok (bits &&& UInt64.ofNat low)

def signExtend (bits : UInt64) (width : Nat) : Except Stop UInt64 := do
  let amount ← sub 64 (min width 8 * 8)
  let high ← shiftLeft bits amount
  shiftRight high amount

/-- Whether an integer is in the native range; sixteen bytes hold all that occur. -/
def inRange (integer : Int) (width : Nat) (abiClass : AbiClass) : Except Stop Bool :=
  if 16 ≤ width then .ok true
  else match abiClass with
    | .signed => do
      let exponent ← sub (width * 8) 1
      let limit ← widePower exponent
      .ok (decide (-limit ≤ integer ∧ integer < limit))
    | _ => do
      let limit ← widePower (width * 8)
      .ok (decide (0 ≤ integer ∧ integer < limit))

def accepts (policy : Narrowing) (integer : Int) (width : Nat) (abiClass : AbiClass) : Except Stop Bool :=
  match policy with
  | .checked => inRange integer width abiClass
  | .wrap => .ok true

def widen (extension : Extension) (bits : UInt64) (width : Nat) : Except Stop UInt64 :=
  match extension with
  | .sign => signExtend bits width
  | .zero | .none => .ok bits

namespace AbiType

def executeLowerBits (type : AbiType) (policy : Narrowing) (value : Value) :
    Except Stop (Except MarshalError UInt64) :=
  if value.kind ≠ type.kind then .ok (.error (type.mismatch value))
  else match value with
    | .f32 number => .ok (.ok number.bits.toUInt64)
    | .f64 number => .ok (.ok number.bits)
    | _ => match value.toInt? with
      | none => .ok (.error (type.mismatch value))
      | some integer => do
        let accepted ← accepts policy integer type.width type.abiClass
        if accepted then Except.ok <$> mask (UInt64.ofInt integer) type.width
        else .ok (.error (.outOfRange integer type.text type.width))

/-- The bits are masked and extended before the type is looked at. -/
def executeLiftBits (type : AbiType) (bits : UInt64) : Except Stop (Except MarshalError Value) := do
  let raw ← mask bits type.width
  let widened ← widen type.extension raw type.width
  match type.native with
  | .struct _ => .ok (.error (.typeMismatch "scalar" type.text))
  | .scalar own => .ok (.ok (own.valueOf widened.toNat))

/-- A struct is read into a buffer that is requested before the bounds of the view are looked at. Only buffers shorter
than the limit can be had. -/
def executeLiftWithin (type : AbiType) (limit : Nat) (view : View) (offset : Nat) (store : Store) :
    Except Stop (Except MarshalError Value) :=
  match type.native with
  | .struct layout => do
    requestBuffer limit layout.size
    match view.readBytes offset layout.size store with
    | .ok bytes => .ok (.ok (.struct bytes))
    | .error error => .ok (.error (.memory error))
  | .scalar _ =>
    match readBits view offset type.width store with
    | .ok bits => type.executeLiftBits bits
    | .error error => .ok (.error error)

def executeLift (type : AbiType) (view : View) (offset : Nat) (store : Store) :
    Except Stop (Except MarshalError Value) :=
  type.executeLiftWithin bufferBound view offset store

/-- What to do with the store; the bytes of a struct are at hand and need no conversion. -/
def executeLower (type : AbiType) (policy : Narrowing) (view : View) (offset : Nat) (value : Value) :
    Except Stop (EStateM MarshalError Store Unit) :=
  match value with
  | .struct _ => .ok (type.lower policy view offset value)
  | _ => do
    match ← type.executeLowerBits policy value with
    | .ok bits => .ok (writeBits view offset type.width bits)
    | .error error => .ok (throw error)

end AbiType

def Signature.executeLowerResultBits (signature : Signature) (value : Value) :
    Except Stop (Except MarshalError UInt64) :=
  match signature.result with
  | none => .ok (.error (.typeMismatch "void" value.kind.text))
  | some type => do
    match ← type.executeLowerBits signature.narrowing value with
    | .error error => .ok (.error error)
    | .ok bits =>
      if type.abiClass = .signed ∧ type.width < Signature.registerWidth then do
        let amount ← sub 64 (type.width * 8)
        let high ← shiftLeft bits amount
        Except.ok <$> shiftRight high amount
      else .ok (.ok bits)

end Interop
