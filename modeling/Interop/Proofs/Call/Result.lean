import Interop.Call.Upcall
import Interop.Proofs.Marshal.Host
import Interop.Proofs.Memory.Writing

/-! Results on their way through a register or a buffer.
Main statements: `storeResult_answers` says what a handler leaves for its caller, and `liftResult_eq` what a caller makes
of the bytes that it finds. -/
namespace Interop
open Outcome

private theorem Bytes.toNat_zeros (count : Nat) : toNat (List.replicate count 0) = 0 := by
  induction count with
  | zero => rfl
  | succ count ih => simp [List.replicate_succ, toNat, ih]

namespace AbiType

/-- The bytes that carry a result: a whole register for integers and addresses, those of the type for all else. -/
def resultWidth (type : AbiType) : Nat :=
  match type.abiClass with
  | .signed | .unsigned | .address => Signature.registerWidth
  | .float | .struct => type.width

def valueOfResult (type : AbiType) (bytes : List UInt8) : Except MarshalError Value :=
  if type.fillsRegister then type.liftBits (UInt64.ofNat (Bytes.toNat bytes)) else type.valueOfBytes bytes

def zero (type : AbiType) : Value :=
  match type.native with
  | .scalar own => own.valueOf 0
  | .struct layout => .struct (List.replicate layout.size 0)

theorem resultWidth_of_fills {type : AbiType} (fills : type.fillsRegister = true) :
    type.resultWidth = Signature.registerWidth := by
  unfold fillsRegister at fills
  unfold resultWidth
  split at fills <;> simp_all

theorem resultWidth_of_not_fills {type : AbiType} (narrow : type.fillsRegister = false) :
    type.resultWidth = type.width := by
  obtain ⟨native, platform⟩ := type
  cases native with
  | struct layout => rfl
  | scalar own => cases own <;> cases platform <;> first | rfl | cases narrow

theorem scalar_of_fills {type : AbiType} (fills : type.fillsRegister = true) :
    ∃ own platform, type = ⟨.scalar own, platform⟩ := by
  obtain ⟨native, platform⟩ := type
  cases native with
  | struct layout => cases fills
  | scalar own => exact ⟨own, platform, rfl⟩

theorem resultWidth_le (type : AbiType) : type.resultWidth ≤ max type.width Signature.registerWidth := by
  cases fills : type.fillsRegister with
  | true => rw [resultWidth_of_fills fills]; exact Nat.le_max_right _ _
  | false => rw [resultWidth_of_not_fills fills]; exact Nat.le_max_left _ _

private theorem liftBits_zero (own : CScalar) (platform : Platform) :
    liftBits ⟨.scalar own, platform⟩ 0 = .ok (zero ⟨.scalar own, platform⟩) := by
  have signed : signedReading (own.width platform) 0 = 0 := by simp [signedReading]
  have unsigned : unsignedReading (own.width platform) 0 = 0 := by simp [unsignedReading]
  simp only [liftBits, width_scalar, signed, unsigned]
  cases own.extension platform <;> rfl

private theorem valueOfResult_zeros (type : AbiType) :
    type.valueOfResult (List.replicate type.resultWidth 0) = .ok type.zero := by
  obtain ⟨native, platform⟩ := type
  cases native with
  | struct layout => rfl
  | scalar own =>
    have register : UInt64.ofNat (Bytes.toNat (List.replicate (resultWidth ⟨.scalar own, platform⟩) 0)) = 0 := by
      rw [Bytes.toNat_zeros]
      rfl
    unfold valueOfResult valueOfBytes
    rw [register, liftBits_zero, ite_self]

end AbiType

namespace Signature

theorem resultBuffer_le {signature : Signature} {type : AbiType} (declared : signature.result = some type) :
    max type.width registerWidth ≤ signature.resultBufferSize := by
  simp only [resultBufferSize, declared, Option.map_some, Option.getD_some]
  omega

theorem resultWidth_le_resultBufferSize {signature : Signature} {type : AbiType}
    (declared : signature.result = some type) : type.resultWidth ≤ signature.resultBufferSize :=
  type.resultWidth_le.trans (resultBuffer_le declared)

/-- The caller reads a result from the bytes at the start of its buffer. -/
theorem liftResult_eq {signature : Signature} {type : AbiType} (declared : signature.result = some type)
    {buffer : View} (readable : buffer.readable = true) (room : type.resultWidth ≤ buffer.size) (store : Store) :
    signature.liftResult buffer store =
      some <$> type.valueOfResult (store.read buffer.start type.resultWidth) := by
  have inside : 0 + type.resultWidth ≤ buffer.size := by omega
  rw [liftResult, declared]
  dsimp only
  cases fills : type.fillsRegister with
  | true =>
    rw [AbiType.resultWidth_of_fills fills] at inside ⊢
    have read : buffer.readBytes 0 (ScalarType.width .usize) store = .ok (store.read buffer.start registerWidth) :=
      View.readBytes_eq_ok readable inside store
    have length : (store.read buffer.start registerWidth).length = ScalarType.width .usize := Store.length_read _ _ _
    rw [if_pos rfl, View.get_eq_readBytes, read]
    simp only [AbiType.valueOfResult, fills, if_true]
    exact congrArg (fun bits => some <$> type.liftBits (UInt64.ofNat bits)) (ScalarType.toNat_decode .usize length)
  | false =>
    rw [AbiType.resultWidth_of_not_fills fills] at inside ⊢
    obtain ⟨value, lifted⟩ := type.valueOfBytes_eq_ok (store.read buffer.start type.width)
    simp only [AbiType.valueOfResult, fills, lifted]
    exact congrArg (some <$> ·) (AbiType.lift_eq_ok readable inside lifted)

theorem lowerResultBits_low {signature : Signature} {own : CScalar} {platform : Platform}
    (declared : signature.result = some ⟨.scalar own, platform⟩) {value : Value} {bits : UInt64}
    (lowered : AbiType.lowerBits ⟨.scalar own, platform⟩ signature.narrowing value = .ok bits) :
    ∃ register, signature.lowerResultBits value = .ok register ∧
      AbiType.lowBits ⟨.scalar own, platform⟩ register = AbiType.lowBits ⟨.scalar own, platform⟩ bits := by
  simp only [lowerResultBits, declared, lowered, ok_bind]
  split
  next signed =>
    refine ⟨_, rfl, BitVec.eq_of_toNat_eq ?_⟩
    have narrow := own.width_le_register platform
    have divides : (byteRange (own.width platform) : Int) ∣ byteRange 8 :=
      Int.natCast_dvd_natCast.mpr (Nat.pow_dvd_pow 2 (by omega))
    have kept := toNat_lowBytes (Nat.le_refl 8) (signedReading (own.width platform) bits)
    rw [AbiType.toNat_lowBits, AbiType.toNat_lowBits, ← Int.ofNat_inj]
    push_cast
    rw [AbiType.width_scalar, registerWidth, kept, Int.emod_emod_of_dvd _ divides, signedReading_eq,
      AbiClass.emod_reduce]
  next => exact ⟨bits, rfl, rfl⟩

structure Stored (signature : Signature) (type : AbiType) (value : Value) (bytes : List UInt8) : Prop where
  length : bytes.length = type.resultWidth
  stands : type.valueOfResult bytes = .ok value
  native : type.nativeBytes signature.narrowing value = .ok (bytes.take type.width)

theorem lowerResult_admitted {signature : Signature} {type : AbiType} (declared : signature.result = some type)
    (host : type.platform = .host) {value : Value} (admitted : type.Admits value) {buffer : View}
    (writable : buffer.writable = true) (room : type.resultWidth ≤ buffer.size) (store : Store) :
    ∃ bytes, signature.Stored type value bytes ∧
      signature.lowerResult buffer value store = .ok () (store.write buffer.start bytes) := by
  obtain ⟨bytes, converted, lifted⟩ := AbiType.exact_on_host host admitted signature.narrowing
  cases fills : type.fillsRegister with
  | true =>
    obtain ⟨own, platform, rfl⟩ := AbiType.scalar_of_fills fills
    obtain ⟨bits, lowered, rfl⟩ := AbiType.bytes_of_scalar converted
    obtain ⟨register, widened, low⟩ := lowerResultBits_low declared lowered
    rw [AbiType.valueOfBytes_ofNat (AbiType.liftBits_of_lowerBits lowered).1] at lifted
    have back : Bytes.toNat (Bytes.ofNat registerWidth register.toNat) = register.toNat :=
      Bytes.toNat_ofNat_of_lt register.toNat_lt
    have inside : 0 + (Bytes.ofNat registerWidth register.toNat).length ≤ buffer.size := by
      rw [AbiType.resultWidth_of_fills fills] at room
      rw [Bytes.length_ofNat]
      omega
    have first : (Bytes.ofNat registerWidth register.toNat).take (own.width platform) =
        Bytes.ofNat (own.width platform) bits.toNat := by
      have same := congrArg BitVec.toNat low
      rw [AbiType.toNat_lowBits, AbiType.toNat_lowBits] at same
      rw [registerWidth, Bytes.take_ofNat (own.width_le_register platform)]
      exact Bytes.ofNat_congr same
    refine ⟨Bytes.ofNat registerWidth register.toNat, ⟨?_, ?_, ?_⟩, ?_⟩
    · rw [Bytes.length_ofNat, AbiType.resultWidth_of_fills fills]
    · rw [AbiType.valueOfResult, if_pos fills, back, UInt64.ofNat_toNat, AbiType.liftBits_congr low, lifted]
    · rw [AbiType.width_scalar, first]
      exact converted
    · have encoded : ScalarType.encode .usize .native (BitVec.ofNat _ register.toNat) =
          Bytes.ofNat registerWidth register.toNat := ScalarType.encode_ofNat .usize _
      simp only [lowerResult, declared, fills, if_true, widened, View.set_eq_writeBytes, encoded]
      exact adaptExcept_of_ok _ (View.writeBytes_eq_ok writable inside store)
  | false =>
    have length := (AbiType.valueOf_nativeBytes converted).1
    have exact := AbiType.resultWidth_of_not_fills fills
    rw [exact] at room
    have inside : 0 + bytes.length ≤ buffer.size := by omega
    refine ⟨bytes, ⟨length.trans exact.symm, ?_, ?_⟩, ?_⟩
    · rw [AbiType.valueOfResult, fills]
      exact lifted
    · rw [← length, List.take_length]
      exact converted
    · simp only [lowerResult, declared, fills]
      exact AbiType.lower_eq_ok writable converted inside store

theorem lowerResult_other {signature : Signature} {type : AbiType} (declared : signature.result = some type)
    {value : Value} (other : ¬ type.Admits value) (buffer : View) (store : Store) :
    ∃ error, signature.lowerResult buffer value store = .error error store := by
  cases fills : type.fillsRegister with
  | true =>
    obtain ⟨own, platform, rfl⟩ := AbiType.scalar_of_fills fills
    have refused : AbiType.lowerBits ⟨.scalar own, platform⟩ signature.narrowing value =
        .error (AbiType.mismatch ⟨.scalar own, platform⟩ value) :=
      if_pos fun kind => other (AbiType.admits_scalar.mpr kind)
    refine ⟨AbiType.mismatch ⟨.scalar own, platform⟩ value, ?_⟩
    simp only [lowerResult, declared, fills, lowerResultBits, refused, error_bind]
    rfl
  | false =>
    rcases type.lower_cases signature.narrowing buffer 0 value store with ⟨converts, _⟩ | ⟨error, refused, _⟩
    · exact absurd converts.1 other
    · refine ⟨error, ?_⟩
      simp only [lowerResult, declared, fills]
      exact refused

end Signature

/-- What a call returns where the handler gave an optional value: the value itself if it is of the result type, and
zeros for anything else. -/
inductive Answers (given : Option Value) : (result : Option AbiType) → Option Value → Prop
  | void : Answers given none none
  | value {type : AbiType} {value : Value} (same : given = some value) (admitted : type.Admits value) :
    Answers given (some type) (some value)
  | zero {type : AbiType} (other : ∀ value, given = some value → ¬ type.Admits value) :
    Answers given (some type) (some type.zero)

namespace UpcallHandler

variable {World : Type} {handler : UpcallHandler World} {type : AbiType}

theorem storeResult_cases (declared : handler.signature.result = some type) (host : type.platform = .host)
    (result : Nat) (given : Option Value) (store : Store) :
    (∃ value bytes, given = some value ∧ type.Admits value ∧ handler.signature.Stored type value bytes ∧
      handler.storeResult result given store = .ok () (store.write result bytes)) ∨
    (∀ value, given = some value → ¬ type.Admits value) ∧ ∃ error, handler.storeResult result given store =
      .error (.result handler.name error) (store.fill result (max type.width Signature.registerWidth) 0) := by
  cases given with
  | none =>
    refine .inr ⟨nofun, .typeMismatch type.text "no value", ?_⟩
    simp only [storeResult, declared]
    rfl
  | some value =>
    by_cases admitted : type.Admits value
    · have writable : (resultBuffer type result).writable = true := rfl
      obtain ⟨bytes, stored, written⟩ :=
        Signature.lowerResult_admitted declared host admitted writable type.resultWidth_le store
      refine .inl ⟨value, bytes, rfl, admitted, stored, ?_⟩
      simp only [storeResult, declared, written]
      rfl
    · obtain ⟨error, refused⟩ := Signature.lowerResult_other declared admitted (resultBuffer type result) store
      refine .inr ⟨?_, error, ?_⟩
      · intro other same
        cases same
        exact admitted
      · simp only [storeResult, declared, refused]
        rfl

theorem storeResult_kept (hosted : ∀ type, handler.signature.result = some type → type.platform = .host)
    (result : Nat) (given : Option Value) (store : Store) {address : Nat}
    (outside : ∀ type, handler.signature.result = some type → ¬ (resultBuffer type result).Covers address) :
    (left (handler.storeResult result given store)).byteAt address = store.byteAt address := by
  cases declared : handler.signature.result with
  | none =>
    simp only [storeResult, declared]
    rfl
  | some type =>
    have apart := outside type declared
    have room := type.resultWidth_le
    simp only [View.Covers, resultBuffer, View.atAddress] at apart
    obtain ⟨value, bytes, _, _, stored, written⟩ | ⟨_, error, zeroed⟩ :=
      storeResult_cases declared (hosted type declared) result given store
    · rw [written]
      have length := stored.length
      exact Store.byteAt_write_of_outside _ _ _ (by omega)
    · rw [zeroed]
      exact Store.byteAt_fill_of_outside _ _ (by omega)

/-- What a handler leaves for its caller answers what it gave. -/
theorem storeResult_answers (declared : handler.signature.result = some type) (host : type.platform = .host)
    (result : Nat) (given : Option Value) (store : Store) :
    ∃ value, type.valueOfResult
        ((left (handler.storeResult result given store)).read result type.resultWidth) = .ok value ∧
      Answers given (some type) (some value) := by
  obtain ⟨value, bytes, rfl, admitted, stored, written⟩ | ⟨other, error, zeroed⟩ :=
    storeResult_cases declared host result given store
  · refine ⟨value, ?_, .value rfl admitted⟩
    rw [written, left, ← stored.length, Store.read_write]
    exact stored.stands
  · refine ⟨type.zero, ?_, .zero other⟩
    rw [zeroed, left, Store.read_fill_of_le _ _ type.resultWidth_le]
    exact type.valueOfResult_zeros

end UpcallHandler
end Interop
