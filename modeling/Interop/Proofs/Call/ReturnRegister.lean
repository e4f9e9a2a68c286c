import Interop.Proofs.Call.Result
import Interop.Proofs.Marshal.Execution

/-! The register of a result: how the bytes of a value fill it, and what it comes back as.
Main statement: `resultBits_decided`, for every signature on every platform. -/
namespace Interop
open Outcome

namespace AbiType

/-- The register that the low bytes of another one extend to, by their sign or with zeros. -/
def extended (type : AbiType) (bits : UInt64) : BitVec 64 :=
  match type.abiClass with
  | .signed => (type.lowBits bits).signExtend 64
  | _ => (type.lowBits bits).setWidth 64

variable {own : CScalar} {platform : Platform}

private theorem toInt_lowBits (own : CScalar) (platform : Platform) (bits : UInt64) :
    (lowBits ⟨.scalar own, platform⟩ bits).toInt = signedReading (own.width platform) bits := by
  rw [BitVec.toInt_eq_toNat_bmod, toNat_lowBits, signedReading_eq, ← AbiClass.reduce_emod, ← Int.natCast_emod]
  rfl

private theorem extended_of_signed (signed : own.abiClass = .signed) (bits : UInt64) :
    (lowBytes 8 (signedReading (own.width platform) bits)).toBitVec = extended ⟨.scalar own, platform⟩ bits := by
  have positive := own.width_pos platform
  have narrow := own.width_le_register platform
  have fits : 8 * (AbiType.mk (.scalar own) platform).width ≤ 64 := Nat.mul_le_mul_left 8 narrow
  have shape : (AbiType.mk (.scalar own) platform).abiClass = .signed := signed
  rw [extended, shape]
  apply BitVec.eq_of_toInt_eq
  rw [BitVec.toInt_signExtend_of_le fits, toInt_lowBits, ← ofInt_eq_lowBytes, toInt_toBitVec_ofInt, signedReading_eq]
  exact AbiClass.signed.reduce_reduce positive narrow bits.toNat

private theorem extended_of_unsigned (unsigned : own.abiClass ≠ .signed) {bits : UInt64}
    (range : bits.toNat < byteRange (own.width platform)) :
    bits.toBitVec = extended ⟨.scalar own, platform⟩ bits := by
  have narrow : byteRange (own.width platform) ≤ 2 ^ 64 := byteRange_mono (own.width_le_register platform)
  have zeros : extended ⟨.scalar own, platform⟩ bits = (lowBits ⟨.scalar own, platform⟩ bits).setWidth 64 := by
    unfold extended
    split
    next signed => exact absurd signed unsigned
    next => rfl
  rw [zeros]
  apply BitVec.eq_of_toNat_eq
  rw [BitVec.toNat_setWidth, toNat_lowBits, width_scalar, Nat.mod_eq_of_lt range,
    Nat.mod_eq_of_lt (range.trans_le narrow)]
  rfl

end AbiType

namespace Signature

variable {signature : Signature} {own : CScalar} {platform : Platform} {value : Value} {bits : UInt64}

private theorem lowerResultBits_of_ok (declared : signature.result = some ⟨.scalar own, platform⟩)
    (lowered : AbiType.lowerBits ⟨.scalar own, platform⟩ signature.narrowing value = .ok bits) :
    signature.lowerResultBits value = .ok ⟨AbiType.extended ⟨.scalar own, platform⟩ bits⟩ := by
  simp only [lowerResultBits, declared, lowered, ok_bind]
  split
  next signed =>
    rw [registerWidth, ← AbiType.extended_of_signed signed]
    rfl
  next unsigned => rw [← AbiType.extended_of_unsigned unsigned (AbiType.liftBits_of_lowerBits lowered).1]

private theorem lowerBits_of_lowerResultBits (declared : signature.result = some ⟨.scalar own, platform⟩)
    {register : UInt64} (widened : signature.lowerResultBits value = .ok register) :
    ∃ bits, AbiType.lowerBits ⟨.scalar own, platform⟩ signature.narrowing value = .ok bits := by
  simp only [lowerResultBits, declared] at widened
  obtain ⟨bits, lowered, _⟩ := bind_eq_ok.mp widened
  exact ⟨bits, lowered⟩

private theorem liftResultBits_of_low (declared : signature.result = some ⟨.scalar own, platform⟩)
    (lowered : AbiType.lowerBits ⟨.scalar own, platform⟩ signature.narrowing value = .ok bits) {pattern : UInt64}
    (low : AbiType.lowBits ⟨.scalar own, platform⟩ pattern = AbiType.lowBits ⟨.scalar own, platform⟩ bits) :
    ∃ result, signature.liftResultBits pattern = .ok (some result) ∧ value.ReducesTo ⟨.scalar own, platform⟩ result ∧
      (signature.narrowing = .checked → result = value) := by
  obtain ⟨_, result, lifted, reduced⟩ := AbiType.liftBits_of_lowerBits lowered
  refine ⟨result, ?_, reduced⟩
  simp only [liftResultBits, declared, AbiType.liftBits_congr low, lifted]
  rfl

/-- What the register of a result makes of a value, against the native bits of the value. -/
structure Carries (signature : Signature) (type : AbiType) (value : Value) : Prop where
  accepted : (∃ register, signature.lowerResultBits value = .ok register) ↔
    ∃ bits, type.lowerBits signature.narrowing value = .ok bits
  extended : ∀ bits register, type.lowerBits signature.narrowing value = .ok bits →
    signature.lowerResultBits value = .ok register → register.toBitVec = type.extended bits
  plain : type.abiClass ≠ .signed → ∀ bits, type.lowerBits signature.narrowing value = .ok bits →
    signature.lowerResultBits value = .ok bits
  /-- The bytes above those of the type may hold anything. -/
  readBack : ∀ register pattern, signature.lowerResultBits value = .ok register →
    type.lowBits pattern = type.lowBits register →
      ∃ result, signature.liftResultBits pattern = .ok (some result) ∧ value.ReducesTo type result ∧
        (signature.narrowing = .checked → result = value)

private theorem carries (declared : signature.result = some ⟨.scalar own, platform⟩) (value : Value) :
    signature.Carries ⟨.scalar own, platform⟩ value where
  accepted := by
    constructor
    · rintro ⟨register, widened⟩
      exact lowerBits_of_lowerResultBits declared widened
    · rintro ⟨bits, lowered⟩
      exact ⟨_, lowerResultBits_of_ok declared lowered⟩
  extended := by
    intro bits register lowered widened
    cases widened.symm.trans (lowerResultBits_of_ok declared lowered)
    rfl
  plain := by
    intro unsigned bits lowered
    rw [lowerResultBits_of_ok declared lowered,
      ← AbiType.extended_of_unsigned unsigned (AbiType.liftBits_of_lowerBits lowered).1]
  readBack := by
    intro register pattern widened read
    obtain ⟨bits, lowered⟩ := lowerBits_of_lowerResultBits declared widened
    obtain ⟨same, again, low⟩ := lowerResultBits_low declared lowered
    cases again.symm.trans widened
    exact liftResultBits_of_low declared lowered (read.trans low)

/-- A scalar result fills the register as its type extends, and whoever reads the low bytes of that register has the
value back as far as the native width holds it. A struct has no register, and a function without a result has nothing
in it. The extension is carried out on words. -/
theorem resultBits_decided (signature : Signature) :
    (∀ value, signature.executeLowerResultBits value = .ok (signature.lowerResultBits value)) ∧
    match signature.result with
    | none =>
      (∀ bits, signature.liftResultBits bits = .ok none) ∧
        ∀ value, ∃ error, signature.lowerResultBits value = .error error
    | some ⟨.struct _, _⟩ =>
      (∀ bits, ∃ expected got, signature.liftResultBits bits = .error (.typeMismatch expected got)) ∧
        ∀ value, ∃ expected got, signature.lowerResultBits value = .error (.typeMismatch expected got)
    | some ⟨.scalar own, platform⟩ => ∀ value, signature.Carries ⟨.scalar own, platform⟩ value := by
  refine ⟨signature.executeLowerResultBits_eq, ?_⟩
  split
  next declared =>
    constructor
    · intro bits
      simp only [liftResultBits, declared]
    · intro value
      simp only [lowerResultBits, declared]
      exact ⟨_, rfl⟩
  next declared =>
    constructor
    · intro bits
      simp only [liftResultBits, declared]
      exact ⟨_, _, rfl⟩
    · intro value
      simp only [lowerResultBits, declared]
      exact ⟨_, _, rfl⟩
  next declared => exact carries declared

/-- A long of four bytes that wraps to minus one fills the register, and is read from any other with the same low
bytes. -/
theorem resultBits_decided_long :
    lowerResultBits ⟨[], some ⟨.scalar .long, .llp64⟩, .llp64, .wrap⟩ (.i64 0x1ffffffff) = .ok 0xffffffffffffffff ∧
      liftResultBits ⟨[], some ⟨.scalar .long, .llp64⟩, .llp64, .wrap⟩ 0x12345678ffffffff = .ok (some (.i64 (-1))) := by
  obtain ⟨_, carried⟩ := resultBits_decided ⟨[], some ⟨.scalar .long, .llp64⟩, .llp64, .wrap⟩
  have lowered : AbiType.lowerBits ⟨.scalar .long, .llp64⟩ .wrap (.i64 0x1ffffffff) = .ok 0xffffffff := rfl
  obtain ⟨register, widened⟩ := (carried (.i64 0x1ffffffff)).accepted.mpr ⟨_, lowered⟩
  have extended := (carried (.i64 0x1ffffffff)).extended _ _ lowered widened
  have ones : register = 0xffffffffffffffff := UInt64.eq_of_toBitVec_eq (extended.trans (by decide))
  subst ones
  obtain ⟨result, lifted, reduced, _⟩ :=
    (carried (.i64 0x1ffffffff)).readBack _ 0x12345678ffffffff widened (by decide)
  have low : result = .i64 (-1) := Value.eq_of_toInt? reduced.kind reduced.number (by decide)
  exact ⟨widened, low ▸ lifted⟩

end Signature
end Interop
