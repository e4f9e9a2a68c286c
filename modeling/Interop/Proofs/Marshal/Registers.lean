import Interop.Proofs.Marshal.Execution

/-! Scalars in registers: only the low bytes of a register count, and they correspond one to one to the values that
a type has there.
Main statement: `liftBits_inverse`, for every scalar type on every platform. -/
namespace Interop

namespace Value

def pattern? : Value → Option Nat
  | f32 number => some number.bits.toNat
  | f64 number => some number.bits.toNat
  | _ => none

/-- The value is what bits of the width of its type say: a number in two's complement or without a sign, or a
floating-point pattern. -/
def Reads (value : Value) (abiClass : AbiClass) {width : Nat} (bits : BitVec width) : Prop :=
  match abiClass with
  | .signed => value.toInt? = some bits.toInt
  | .unsigned | .address => value.toInt? = some (bits.toNat : Int)
  | .float => value.pattern? = some bits.toNat
  | .struct => False

private theorem reads_float {value : Value} {width : Nat} {bits : BitVec width} :
    value.Reads .float bits ↔ value.pattern? = some bits.toNat := Iff.rfl

end Value

def AbiType.lowBits (type : AbiType) (bits : UInt64) : BitVec (8 * type.width) :=
  bits.toBitVec.setWidth _

namespace AbiClass

theorem emod_reduce (abiClass : AbiClass) (width : Nat) (integer : Int) :
    abiClass.reduce width integer % byteRange width = integer % byteRange width := by
  by_cases signed : abiClass = .signed
  · subst signed
    exact Int.bmod_emod
  · rw [reduce_of_ne_signed signed]
    exact Int.emod_emod integer _

theorem fits_reduce (abiClass : AbiClass) {width : Nat} (positive : 0 < width) (integer : Int) :
    fits (abiClass.reduce width integer) width abiClass = true := by
  have pos := byteRange_pos width
  by_cases signed : abiClass = .signed
  · subst signed
    have halves := byteRange_eq_two_mul positive
    have half : ((2 ^ (8 * width - 1) : Nat) : Int) = 2 ^ (8 * width - 1) := by simp
    have lower := Int.le_bmod (x := integer) pos
    have upper := Int.bmod_lt (x := integer) pos
    simp only [fits, reduce]
    apply decide_eq_true
    omega
  · rw [reduce_of_ne_signed signed]
    have lower := Int.emod_nonneg integer (b := byteRange width) (by omega)
    have upper := Int.emod_lt_of_pos integer (b := byteRange width) (by omega)
    rw [byteRange_eq_pow] at lower upper ⊢
    cases abiClass <;> first | exact decide_eq_true ⟨lower, upper⟩ | exact absurd rfl signed

end AbiClass

namespace AbiType

theorem toNat_lowBits (type : AbiType) (bits : UInt64) :
    (type.lowBits bits).toNat = bits.toNat % byteRange type.width := by
  simp [lowBits, byteRange]

theorem liftBits_congr {type : AbiType} {bits other : UInt64}
    (same : type.lowBits other = type.lowBits bits) : type.liftBits other = type.liftBits bits := by
  obtain ⟨native, platform⟩ := type
  cases native with
  | struct layout => rfl
  | scalar own =>
    have low := congrArg BitVec.toNat same
    rw [toNat_lowBits, toNat_lowBits, byteRange] at low
    simp only [liftBits, signedReading, unsignedReading]
    norm_cast
    rw [low]

end AbiType

namespace CScalar

theorem abiClass_ne_struct (own : CScalar) : own.abiClass ≠ .struct := by
  cases own <;> decide

private theorem reads_iff {own : CScalar} (whole : own.abiClass ≠ .float) {value : Value} {width : Nat}
    (low : BitVec (8 * width)) :
    value.Reads own.abiClass low ↔ value.toInt? = some (own.abiClass.reduce width low.toNat) := by
  have signed : low.toInt = AbiClass.signed.reduce width low.toNat := low.toInt_eq_toNat_bmod
  have unsigned : (low.toNat : Int) = low.toNat % byteRange width := by
    have bound := low.isLt
    rw [← byteRange] at bound
    exact (Int.emod_eq_of_lt (by omega) (by omega)).symm
  cases shape : own.abiClass with
  | signed => rw [← signed]; rfl
  | unsigned | address => exact (congrArg (value.toInt? = some ·) unsigned).to_iff
  | float => exact absurd shape whole
  | struct => exact absurd shape own.abiClass_ne_struct

private theorem pattern?_valueOf {own : CScalar} (float : own.abiClass = .float) (platform : Platform) (bits : UInt64) :
    (own.valueOf (unsignedReading (own.width platform) bits)).pattern? =
      some (bits.toNat % byteRange (own.width platform)) := by
  rcases AbiType.mem_of_float float with rfl | rfl
  · have low : (UInt32.ofInt (unsignedReading 4 bits)).toNat = bits.toNat % 2 ^ 32 := by
      simp [UInt32.ofInt, unsignedReading]
      omega
    exact congrArg some low
  · have low : (UInt64.ofInt (unsignedReading 8 bits)).toNat = bits.toNat % 2 ^ 64 := by
      have bound := bits.toNat_lt
      simp [UInt64.ofInt, unsignedReading]
      omega
    exact congrArg some low

private theorem reads_liftBits (own : CScalar) (platform : Platform) (bits : UInt64) :
    ∃ value, AbiType.liftBits ⟨.scalar own, platform⟩ bits = .ok value ∧ value.kind = own.kind ∧
      value.Reads own.abiClass (AbiType.lowBits ⟨.scalar own, platform⟩ bits) := by
  by_cases float : own.abiClass = .float
  · have plain : own.extension platform = .none := by
      rcases AbiType.mem_of_float float with rfl | rfl <;> rfl
    refine ⟨own.valueOf (unsignedReading (own.width platform) bits), ?_, kind_valueOf own _, ?_⟩
    · simp [AbiType.liftBits, plain]
    · rw [float, Value.reads_float, AbiType.toNat_lowBits]
      exact pattern?_valueOf float platform bits
  · obtain ⟨value, lifted, kind, number⟩ := toInt?_liftBits float platform bits
    refine ⟨value, lifted, kind, (reads_iff float _).mpr ?_⟩
    rw [AbiType.toNat_lowBits, Int.natCast_emod, AbiClass.reduce_emod]
    exact number

private theorem lowerBits_of_reads {own : CScalar} {platform : Platform} {value : Value}
    {low : BitVec (8 * own.width platform)} (kind : value.kind = own.kind) (reads : value.Reads own.abiClass low) :
    ∃ bits, AbiType.lowerBits ⟨.scalar own, platform⟩ .checked value = .ok bits ∧ bits.toNat = low.toNat := by
  by_cases float : own.abiClass = .float
  · rw [float, Value.reads_float] at reads
    rcases AbiType.mem_of_float float with rfl | rfl
    · obtain ⟨number, rfl⟩ := Value.eq_f32_of_kind kind
      have pattern : number.bits.toNat = low.toNat := Option.some.inj reads
      exact ⟨_, rfl, (UInt32.toNat_toUInt64 _).trans pattern⟩
    · obtain ⟨number, rfl⟩ := Value.eq_f64_of_kind kind
      exact ⟨_, rfl, Option.some.inj reads⟩
  · have number := (reads_iff float low).mp reads
    have inside := own.abiClass.fits_reduce (own.width_pos platform) low.toNat
    refine ⟨_, (AbiType.lowerBits_eq_ok_iff kind number).mpr ⟨fun _ => inside, rfl⟩, ?_⟩
    have kept := toNat_lowBytes (own.width_le_register platform) (own.abiClass.reduce (own.width platform) low.toNat)
    have bound : low.toNat < byteRange (own.width platform) := low.isLt
    rw [AbiClass.emod_reduce, Int.emod_eq_of_lt (by omega) (by omega)] at kept
    exact Int.ofNat_inj.mp kept

end CScalar
namespace AbiType

/-- Lifting and lowering are inverse to one another between the patterns of the width of a scalar type and the values
that it has without narrowing; what a register holds above that width never counts. The shifts and masks that they are
carried out by come to the same. -/
theorem liftBits_inverse {own : CScalar} {platform : Platform} {type : AbiType}
    (resolved : (NativeType.scalar own).resolve platform = .ok type) :
    (∀ bits, type.executeLiftBits bits = .ok (type.liftBits bits)) ∧
    (∀ policy value, type.executeLowerBits policy value = .ok (type.lowerBits policy value)) ∧
    (∀ bits, ∃ value, type.liftBits bits = .ok value ∧ value.kind = type.kind ∧
      value.Reads type.abiClass (type.lowBits bits) ∧
      (∀ other, type.lowBits other = type.lowBits bits → type.liftBits other = .ok value) ∧
      ∃ back, type.lowerBits .checked value = .ok back ∧ back.toNat = bits.toNat % 2 ^ (8 * type.width)) ∧
    ∀ value bits, type.lowerBits .checked value = .ok bits →
      bits.toNat < 2 ^ (8 * type.width) ∧ type.liftBits bits = .ok value := by
  cases resolved
  refine ⟨executeLiftBits_eq _, executeLowerBits_eq _, ?_, ?_⟩
  · intro bits
    obtain ⟨value, lifted, kind, reads⟩ := own.reads_liftBits platform bits
    obtain ⟨back, lowered, same⟩ := CScalar.lowerBits_of_reads kind reads
    refine ⟨value, lifted, kind, reads, ?_, back, lowered, same.trans (toNat_lowBits _ bits)⟩
    intro other low
    exact (liftBits_congr low).trans lifted
  · intro value bits lowered
    obtain ⟨range, result, lifted, _, same⟩ := liftBits_of_lowerBits lowered
    exact ⟨range, same rfl ▸ lifted⟩

/-- A long of four bytes is negative when its own highest bit is set, whatever stands above it. -/
theorem liftBits_inverse_long :
    (NativeType.scalar .long).resolve .llp64 = .ok ⟨.scalar .long, .llp64⟩ ∧
      executeLiftBits ⟨.scalar .long, .llp64⟩ 0x1234567880000000 = .ok (.ok (.i64 (-2147483648))) ∧
      ∃ back, executeLowerBits ⟨.scalar .long, .llp64⟩ .checked (.i64 (-2147483648)) = .ok (.ok back) ∧
        back.toNat = 0x80000000 := by
  have resolved : (NativeType.scalar .long).resolve .llp64 = .ok ⟨.scalar .long, .llp64⟩ := rfl
  have lifted : liftBits ⟨.scalar .long, .llp64⟩ 0x1234567880000000 = .ok (.i64 (-2147483648)) := by cbv
  obtain ⟨lifts, lowers, inverse, _⟩ := liftBits_inverse resolved
  obtain ⟨value, same, _, _, _, back, lowered, low⟩ := inverse 0x1234567880000000
  cases same.symm.trans lifted
  exact ⟨resolved, by rw [lifts, lifted], back, by rw [lowers, lowered], low⟩

end AbiType
end Interop
