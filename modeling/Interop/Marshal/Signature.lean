import Interop.Marshal.Conversion

/-! Signatures of native functions, and how results travel through a return register.
Narrow integers and addresses fill a whole register; all else is written as it lies in memory. -/
namespace Interop

structure Signature where
  params : List AbiType
  /-- None for a function that returns nothing. -/
  result : Option AbiType
  platform : Platform
  narrowing : Narrowing

namespace Signature

/-- A struct passed by value has fields. -/
def resolveType (platform : Platform) (type : NativeType) : Except LayoutError AbiType :=
  match type with
  | .struct layout => if layout.fields.isEmpty then .error (.emptyStruct layout.name) else type.resolve platform
  | .scalar _ => type.resolve platform

def resolve (params : List NativeType) (result : Option NativeType) (platform : Platform) :
    Except LayoutError Signature := do
  let params ← params.mapM (resolveType platform)
  let result ← result.mapM (resolveType platform)
  .ok ⟨params, result, platform, .checked⟩

def withNarrowing (signature : Signature) (narrowing : Narrowing) : Signature :=
  { signature with narrowing }

def arity (signature : Signature) : Nat := signature.params.length

def requireHost (signature : Signature) : Except LayoutError Unit :=
  if signature.platform.isHost then .ok () else .error (.foreignPlatform signature.platform)

def registerWidth : Nat := 8

end Signature

def AbiType.fillsRegister (type : AbiType) : Bool :=
  match type.abiClass with
  | .signed | .unsigned | .address => type.width < Signature.registerWidth
  | .float | .struct => false

namespace Signature

def liftResultBits (signature : Signature) (bits : UInt64) : Except MarshalError (Option Value) :=
  match signature.result with
  | none => .ok none
  | some type => some <$> type.liftBits bits

/-- The register that carries a result, sign-extended for the signed class. -/
def lowerResultBits (signature : Signature) (value : Value) : Except MarshalError UInt64 :=
  match signature.result with
  | none => .error (.typeMismatch "void" value.kind.text)
  | some type => do
    let bits ← type.lowerBits signature.narrowing value
    if type.abiClass = .signed then .ok (lowBytes registerWidth (signedReading type.width bits))
    else .ok bits

def liftResult (signature : Signature) (buffer : View) (store : Store) :
    Except MarshalError (Option Value) :=
  match signature.result with
  | none => .ok none
  | some type =>
    if type.fillsRegister then
      match buffer.get .usize 0 .native store with
      | .ok register => some <$> type.liftBits (UInt64.ofNat register.toNat)
      | .error error => .error (.memory error)
    else some <$> type.lift buffer 0 store

def lowerResult (signature : Signature) (buffer : View) (value : Value) :
    EStateM MarshalError Store Unit :=
  match signature.result with
  | none => pure ()
  | some type =>
    if type.fillsRegister then
      match signature.lowerResultBits value with
      | .ok register =>
        (buffer.set .usize 0 (BitVec.ofNat _ register.toNat) .native).adaptExcept .memory
      | .error error => throw error
    else type.lower signature.narrowing buffer 0 value

/-- Room for the result and for a pair of registers. -/
def resultBufferSize (signature : Signature) : Nat :=
  max ((signature.result.map AbiType.width).getD 0) (2 * registerWidth)

end Signature
end Interop
