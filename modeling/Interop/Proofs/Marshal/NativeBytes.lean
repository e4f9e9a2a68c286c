import Interop.Proofs.Marshal.Reduction
import Interop.Proofs.Memory.Access

/-! Marshalling through memory as one conversion between values and byte strings, followed or preceded by an access.
Main statements: `lower_eq` and `lift_eq` take an access apart, and `valueOf_nativeBytes` is the law of the
conversion. -/
namespace Interop
open Outcome

private theorem Bytes.ofNat_mod (count value : Nat) : ofNat count (value % 256 ^ count) = ofNat count value := by
  have back := ofNat_toNat (ofNat count value)
  rwa [length_ofNat, toNat_ofNat] at back

theorem Bytes.ofNat_congr {count value other : Nat} (same : value % byteRange count = other % byteRange count) :
    ofNat count value = ofNat count other := by
  rw [byteRange, Nat.pow_mul] at same
  rw [← ofNat_mod, ← ofNat_mod count other]
  exact congrArg (ofNat count) same

theorem Bytes.take_ofNat {first count : Nat} (within : first ≤ count) (value : Nat) :
    (ofNat count value).take first = ofNat first value := by
  induction first generalizing count value with
  | zero => rfl
  | succ first ih =>
    cases count with
    | zero => cases within
    | succ count =>
      rw [ofNat, ofNat, List.take_succ_cons, ih (Nat.le_of_succ_le_succ within)]

theorem Bytes.toNat_ofNat_of_lt {count value : Nat} (small : value < byteRange count) :
    toNat (ofNat count value) = value := by
  rw [byteRange, Nat.pow_mul] at small
  rw [toNat_ofNat, Nat.mod_eq_of_lt small]

namespace ScalarType

theorem range_eq (type : ScalarType) : 2 ^ (8 * type.width) = 256 ^ type.width := by
  rw [Nat.pow_mul]

theorem encode_ofNat (type : ScalarType) (value : Nat) :
    type.encode .native (BitVec.ofNat _ value) = Bytes.ofNat type.width value := by
  rw [encode, BitVec.toNat_ofNat, range_eq]
  exact Bytes.ofNat_mod type.width value

theorem toNat_decode (type : ScalarType) {bytes : List UInt8} (length : bytes.length = type.width) :
    (type.decode .native bytes).toNat = Bytes.toNat bytes := by
  have bound := Bytes.toNat_lt bytes
  rw [length, ← range_eq] at bound
  rw [decode, BitVec.toNat_ofNat]
  exact Nat.mod_eq_of_lt bound

end ScalarType

namespace AbiType

/-- The bytes that a value takes as one of a type. -/
def nativeBytes (type : AbiType) (policy : Narrowing) (value : Value) : Except MarshalError (List UInt8) :=
  match type.native, value with
  | .struct layout, .struct bytes =>
    if bytes.length = layout.size then .ok bytes
    else .error (.typeMismatch s!"{type.text} ({layout.size} bytes)" s!"{bytes.length} bytes")
  | .scalar _, .struct _ => .error (type.mismatch value)
  | _, _ => (type.lowerBits policy value).map fun bits => Bytes.ofNat type.width bits.toNat

/-- The value that bytes stand for as one of a type. -/
def valueOfBytes (type : AbiType) (bytes : List UInt8) : Except MarshalError Value :=
  match type.native with
  | .struct _ => .ok (.struct bytes)
  | .scalar _ => type.liftBits (UInt64.ofNat (Bytes.toNat bytes))

theorem kind_of_valueOfBytes {type : AbiType} {bytes : List UInt8} {value : Value}
    (read : type.valueOfBytes bytes = .ok value) : value.kind = type.native.kind := by
  obtain ⟨native, platform⟩ := type
  cases native with
  | struct layout =>
    cases read
    rfl
  | scalar own =>
    cases read
    exact CScalar.kind_valueOf _ _

def Exact (type : AbiType) (policy : Narrowing) (value : Value) : Prop :=
  ∃ bytes, type.nativeBytes policy value = .ok bytes ∧ type.valueOfBytes bytes = .ok value

private theorem carrier?_width (own : CScalar) (platform : Platform) :
    ∃ carrier, carrier? (own.width platform) = some carrier ∧ carrier.width = own.width platform := by
  cases own <;> cases platform <;> exact ⟨_, rfl, rfl⟩

private theorem writeBits_eq (own : CScalar) (platform : Platform) (view : View) (offset : Nat) (bits : UInt64) :
    writeBits view offset (own.width platform) bits =
      (view.writeBytes offset (Bytes.ofNat (own.width platform) bits.toNat)).adaptExcept .memory := by
  obtain ⟨carrier, found, width⟩ := carrier?_width own platform
  rw [writeBits, found, ← width]
  dsimp only
  rw [View.set_eq_writeBytes, ScalarType.encode_ofNat]

private theorem readBits_eq (own : CScalar) (platform : Platform) (view : View) (offset : Nat) (store : Store) :
    readBits view offset (own.width platform) store =
      match view.readBytes offset (own.width platform) store with
      | .ok bytes => .ok (UInt64.ofNat (Bytes.toNat bytes))
      | .error error => .error (.memory error) := by
  obtain ⟨carrier, found, width⟩ := carrier?_width own platform
  rw [readBits, found, ← width]
  dsimp only
  rw [View.get_eq_readBytes]
  cases read : view.readBytes offset carrier.width store with
  | error error => rfl
  | ok bytes =>
    have length : bytes.length = carrier.width := View.length_of_readBytes read
    exact congrArg (fun value => Except.ok (UInt64.ofNat value)) (carrier.toNat_decode length)

theorem lower_eq (type : AbiType) (policy : Narrowing) (view : View) (offset : Nat) (value : Value) :
    type.lower policy view offset value =
      match type.nativeBytes policy value with
      | .ok bytes => (view.writeBytes offset bytes).adaptExcept .memory
      | .error error => throw error := by
  obtain ⟨native, platform⟩ := type
  cases native with
  | struct layout =>
    cases value <;> try rfl
    case struct bytes =>
      simp only [lower, nativeBytes]
      split <;> rfl
  | scalar own =>
    have numbers : ∀ bits, writeBits view offset (own.width platform) bits =
        (view.writeBytes offset (Bytes.ofNat (own.width platform) bits.toNat)).adaptExcept .memory :=
      writeBits_eq own platform view offset
    cases value <;> try rfl
    all_goals
      simp only [lower, nativeBytes, width_scalar, numbers]
      cases lowerBits _ policy _ <;> rfl

theorem lift_eq (type : AbiType) (view : View) (offset : Nat) (store : Store) :
    type.lift view offset store =
      match view.readBytes offset type.width store with
      | .ok bytes => type.valueOfBytes bytes
      | .error error => .error (.memory error) := by
  obtain ⟨native, platform⟩ := type
  cases native with
  | struct layout => rfl
  | scalar own =>
    simp only [lift, width_scalar, readBits_eq]
    cases view.readBytes offset (own.width platform) store <;> rfl

theorem lift_eq_ok {type : AbiType} {view : View} (readable : view.readable = true) {offset : Nat}
    (inside : offset + type.width ≤ view.size) {store : Store} {value : Value}
    (lifted : type.valueOfBytes (store.read (view.start + offset) type.width) = .ok value) :
    type.lift view offset store = .ok value := by
  rw [lift_eq, View.readBytes_eq_ok readable inside]
  exact lifted

theorem lower_eq_ok {type : AbiType} {policy : Narrowing} {view : View} (writable : view.writable = true)
    {offset : Nat} {value : Value} {bytes : List UInt8} (converted : type.nativeBytes policy value = .ok bytes)
    (inside : offset + bytes.length ≤ view.size) (store : Store) :
    type.lower policy view offset value store = .ok () (store.write (view.start + offset) bytes) := by
  rw [lower_eq, converted]
  exact adaptExcept_of_ok _ (View.writeBytes_eq_ok writable inside store)

theorem bytes_of_scalar {own : CScalar} {platform : Platform} {policy : Narrowing} {value : Value}
    {bytes : List UInt8} (ok : nativeBytes ⟨.scalar own, platform⟩ policy value = .ok bytes) :
    ∃ bits, lowerBits ⟨.scalar own, platform⟩ policy value = .ok bits ∧
      bytes = Bytes.ofNat (own.width platform) bits.toNat := by
  have mapped : (lowerBits ⟨.scalar own, platform⟩ policy value).map
      (fun bits => Bytes.ofNat (own.width platform) bits.toNat) = .ok bytes := by
    cases value <;> first | exact ok | cases ok
  cases lowered : lowerBits ⟨.scalar own, platform⟩ policy value with
  | error error =>
    rw [lowered] at mapped
    cases mapped
  | ok bits =>
    rw [lowered] at mapped
    cases mapped
    exact ⟨bits, rfl, rfl⟩

theorem valueOfBytes_ofNat {own : CScalar} {platform : Platform} {bits : UInt64}
    (narrow : bits.toNat < byteRange (own.width platform)) :
    valueOfBytes ⟨.scalar own, platform⟩ (Bytes.ofNat (own.width platform) bits.toNat) =
      liftBits ⟨.scalar own, platform⟩ bits := by
  simp only [valueOfBytes, Bytes.toNat_ofNat_of_lt narrow, UInt64.ofNat_toNat]

/-- The bytes of a value have the width of the type, and they stand for what that width keeps of the value. -/
theorem valueOf_nativeBytes {type : AbiType} {policy : Narrowing} {value : Value} {bytes : List UInt8}
    (ok : type.nativeBytes policy value = .ok bytes) :
    bytes.length = type.width ∧ ∃ result, type.valueOfBytes bytes = .ok result ∧
      value.ReducesTo type result ∧ (policy = .checked → result = value) := by
  obtain ⟨native, platform⟩ := type
  cases native with
  | struct layout =>
    cases value <;> try cases ok
    case struct given =>
      simp only [nativeBytes] at ok
      split at ok
      next length =>
        cases ok
        exact ⟨length, _, rfl, ⟨rfl, rfl, fun _ => rfl⟩, fun _ => rfl⟩
      next => cases ok
  | scalar own =>
    obtain ⟨bits, lowered, rfl⟩ := bytes_of_scalar ok
    obtain ⟨range, result, lifted, reduced⟩ := liftBits_of_lowerBits lowered
    exact ⟨Bytes.length_ofNat _ _, result, (valueOfBytes_ofNat range).trans lifted, reduced⟩

end AbiType
end Interop
