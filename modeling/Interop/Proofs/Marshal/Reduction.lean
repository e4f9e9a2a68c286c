import Interop.Marshal.Conversion
import Interop.Proofs.CType.Placement

/-! Registers and integers: what a native width keeps of a value, and what comes back from it.
Main statement: `liftBits_of_lowerBits`, that a lowered value comes back reduced to its native width. -/
namespace Interop

def byteRange (width : Nat) : Nat := 2 ^ (8 * width)

theorem byteRange_pos (width : Nat) : 0 < byteRange width := Nat.two_pow_pos _

theorem byteRange_mono {width wider : Nat} (below : width ≤ wider) : byteRange width ≤ byteRange wider :=
  Nat.pow_le_pow_right (by decide) (by omega)

theorem byteRange_eq_pow (width : Nat) : (byteRange width : Int) = 2 ^ (8 * width) := by
  simp [byteRange]

theorem byteRange_eq_two_mul {width : Nat} (positive : 0 < width) :
    byteRange width = 2 * 2 ^ (8 * width - 1) := by
  rw [byteRange, ← Nat.pow_succ']
  congr 1
  omega

/-- The integer that the low bytes of another one stand for. -/
def AbiClass.reduce (abiClass : AbiClass) (width : Nat) (integer : Int) : Int :=
  match abiClass with
  | .signed => integer.bmod (byteRange width)
  | _ => integer % byteRange width

/-- What is left of a value in the native width of a type: the same float or struct, the reduced integer. -/
structure Value.ReducesTo (type : AbiType) (value result : Value) : Prop where
  kind : result.kind = value.kind
  number : result.toInt? = value.toInt?.map (type.abiClass.reduce type.width)
  rest : value.toInt? = none → result = value

theorem Value.eq_of_toInt? {a b : Value} {number : Int} (kind : a.kind = b.kind)
    (left : a.toInt? = some number) (right : b.toInt? = some number) : a = b := by
  cases a <;> cases b <;> simp only [Value.kind, reduceCtorEq] at kind <;>
    simp only [Value.toInt?, reduceCtorEq, Option.some.injEq] at left right
  case i8.i8 => exact congrArg Value.i8 (Int8.toInt.inj (left.trans right.symm))
  case i16.i16 => exact congrArg Value.i16 (Int16.toInt.inj (left.trans right.symm))
  case i32.i32 => exact congrArg Value.i32 (Int32.toInt.inj (left.trans right.symm))
  case i64.i64 => exact congrArg Value.i64 (Int64.toInt.inj (left.trans right.symm))
  case u8.u8 => exact congrArg Value.u8 (UInt8.toNat.inj (by omega))
  case u16.u16 => exact congrArg Value.u16 (UInt16.toNat.inj (by omega))
  case u32.u32 => exact congrArg Value.u32 (UInt32.toNat.inj (by omega))
  case u64.u64 => exact congrArg Value.u64 (UInt64.toNat.inj (by omega))
  case address.address first second =>
    have same : first.bits = second.bits := UInt64.toNat.inj (by unfold Address.toNat at left right; omega)
    obtain ⟨_⟩ := first
    obtain ⟨_⟩ := second
    exact congrArg (fun bits => Value.address ⟨bits⟩) same

namespace AbiClass

theorem reduce_of_ne_signed {abiClass : AbiClass} (unsigned : abiClass ≠ .signed) (width : Nat)
    (integer : Int) : abiClass.reduce width integer = integer % byteRange width := by
  cases abiClass <;> first | rfl | exact absurd rfl unsigned

theorem reduce_of_fits {abiClass : AbiClass} {width : Nat} {integer : Int} (positive : 0 < width)
    (inside : fits integer width abiClass = true) : abiClass.reduce width integer = integer := by
  by_cases signed : abiClass = .signed
  · subst signed
    have halves := byteRange_eq_two_mul positive
    obtain ⟨lower, upper⟩ := of_decide_eq_true inside
    have half : ((2 ^ (8 * width - 1) : Nat) : Int) = 2 ^ (8 * width - 1) := by simp
    apply Int.bmod_eq_of_le <;> omega
  · rw [reduce_of_ne_signed signed]
    have bounds : 0 ≤ integer ∧ integer < 2 ^ (8 * width) := by
      cases abiClass <;> first | exact of_decide_eq_true inside | exact absurd rfl signed
    exact Int.emod_eq_of_lt bounds.1 (byteRange_eq_pow width ▸ bounds.2)

theorem reduce_reduce (abiClass : AbiClass) {width wider : Nat} (positive : 0 < width)
    (below : width ≤ wider) (integer : Int) :
    abiClass.reduce wider (abiClass.reduce width integer) = abiClass.reduce width integer := by
  have range := byteRange_mono below
  have pos := byteRange_pos width
  by_cases signed : abiClass = .signed
  · subst signed
    have narrow := byteRange_eq_two_mul positive
    have wide := byteRange_eq_two_mul (positive.trans_le below)
    have lower := Int.le_bmod (x := integer) pos
    have upper := Int.bmod_lt (x := integer) pos
    simp only [reduce]
    apply Int.bmod_eq_of_le <;> omega
  · simp only [reduce_of_ne_signed signed]
    have lower := Int.emod_nonneg integer (b := byteRange width) (by omega)
    have upper := Int.emod_lt_of_pos integer (b := byteRange width) (by omega)
    exact Int.emod_eq_of_lt lower (by omega)

theorem reduce_emod (abiClass : AbiClass) (width : Nat) (integer : Int) :
    abiClass.reduce width (integer % byteRange width) = abiClass.reduce width integer := by
  by_cases signed : abiClass = .signed
  · subst signed
    exact Int.emod_bmod integer _
  · rw [reduce_of_ne_signed signed, reduce_of_ne_signed signed]
    exact Int.emod_emod integer _

end AbiClass

/-! ## Registers -/

theorem toNat_lowBytes {width : Nat} (narrow : width ≤ 8) (integer : Int) :
    ((lowBytes width integer).toNat : Int) = integer % byteRange width := by
  have range : byteRange width ≤ 2 ^ 64 := byteRange_mono narrow
  have pos := byteRange_pos width
  have lower := Int.emod_nonneg integer (b := byteRange width) (by omega)
  have upper := Int.emod_lt_of_pos integer (b := byteRange width) (by omega)
  rw [lowBytes, ← byteRange_eq_pow, UInt64.toNat_ofNat', Nat.mod_eq_of_lt (by omega)]
  omega

theorem signedReading_eq (width : Nat) (bits : UInt64) :
    signedReading width bits = AbiClass.signed.reduce width bits.toNat := by
  have low : ((bits.toNat % byteRange width : Nat) : Int) = (bits.toNat : Int) % byteRange width := by
    simp
  have split : (2 : Int) ^ (8 * width) = byteRange width := (byteRange_eq_pow width).symm
  simp only [signedReading, AbiClass.reduce, Int.bmod_def, split]
  rw [← byteRange]
  split <;> split <;> omega

theorem unsignedReading_eq (width : Nat) (bits : UInt64) :
    unsignedReading width bits = (bits.toNat : Int) % byteRange width := by
  rw [unsignedReading, byteRange_eq_pow]

/-! ## Values -/

namespace CScalar

theorem kind_valueOf (own : CScalar) (integer : Int) : (own.valueOf integer).kind = own.kind := by
  cases own <;> rfl

theorem width_le_managed {own : CScalar} {managed : Nat} (sized : own.kind.width? = some managed)
    (platform : Platform) : own.width platform ≤ managed := by
  cases own <;> cases sized <;> cases platform <;> decide

theorem width_le_register (own : CScalar) (platform : Platform) : own.width platform ≤ 8 := by
  cases own <;> cases platform <;> decide

private theorem toInt?_valueOf {own : CScalar} {managed : Nat} (whole : own.abiClass ≠ .float)
    (sized : own.kind.width? = some managed) (integer : Int) :
    (own.valueOf integer).toInt? = some (own.abiClass.reduce managed integer) := by
  cases own <;> cases sized <;>
    simp only [abiClass, reduceCtorEq, not_true_eq_false, not_false_eq_true, ne_eq] at whole
  case i8 => exact congrArg some Int8.toInt_ofInt
  case i16 => exact congrArg some Int16.toInt_ofInt
  case i32 => exact congrArg some Int32.toInt_ofInt
  case i64 | long | ptrdiff => exact congrArg some Int64.toInt_ofInt
  case u8 => simp [valueOf, Value.toInt?, UInt8.ofInt, AbiClass.reduce, abiClass, byteRange]; omega
  case u16 => simp [valueOf, Value.toInt?, UInt16.ofInt, AbiClass.reduce, abiClass, byteRange]; omega
  case u32 => simp [valueOf, Value.toInt?, UInt32.ofInt, AbiClass.reduce, abiClass, byteRange]; omega
  case u64 | unsignedLong | size =>
    simp [valueOf, Value.toInt?, UInt64.ofInt, AbiClass.reduce, abiClass, byteRange]; omega
  case pointer =>
    simp [valueOf, Value.toInt?, Address.toNat, UInt64.ofInt, AbiClass.reduce, abiClass, byteRange]; omega

private theorem extension_eq_sign_iff {own : CScalar} {platform : Platform} :
    own.extension platform = .sign ↔ own.kind.width? ≠ some (own.width platform) ∧ own.abiClass = .signed := by
  unfold extension
  by_cases same : own.kind.width? = some (own.width platform)
  · simp [same]
  · cases shape : own.abiClass <;> simp [same]

private theorem reduce_unsignedReading {own : CScalar} {platform : Platform} {managed : Nat}
    (sized : own.kind.width? = some managed) (unextended : own.extension platform ≠ .sign) (bits : UInt64) :
    own.abiClass.reduce managed (unsignedReading (own.width platform) bits) =
      own.abiClass.reduce (own.width platform) bits.toNat := by
  rw [unsignedReading_eq]
  by_cases signed : own.abiClass = .signed
  · have same : managed = own.width platform := by
      by_contra wider
      refine unextended (extension_eq_sign_iff.mpr ⟨?_, signed⟩)
      intro width
      exact wider (Option.some.inj (sized.symm.trans width))
    rw [same, AbiClass.reduce_emod]
  · rw [← AbiClass.reduce_of_ne_signed signed,
      AbiClass.reduce_reduce _ (own.width_pos platform) (width_le_managed sized platform)]

/-- Lifted bits stand for what their low bytes hold, whichever way the register is widened. -/
theorem toInt?_liftBits {own : CScalar} (whole : own.abiClass ≠ .float) (platform : Platform)
    (bits : UInt64) : ∃ result, AbiType.liftBits ⟨.scalar own, platform⟩ bits = .ok result ∧
      result.kind = own.kind ∧
      result.toInt? = some (own.abiClass.reduce (own.width platform) bits.toNat) := by
  refine ⟨_, rfl, kind_valueOf own _, ?_⟩
  obtain ⟨managed, sized⟩ : ∃ managed, own.kind.width? = some managed := by cases own <;> exact ⟨_, rfl⟩
  have positive := own.width_pos platform
  have narrow := width_le_managed sized platform
  rw [toInt?_valueOf whole sized]
  refine congrArg some ?_
  simp only [AbiType.width_scalar]
  split
  next sign =>
    rw [(extension_eq_sign_iff.mp sign).2, signedReading_eq, AbiClass.reduce_reduce _ positive narrow]
  next zero => exact reduce_unsignedReading sized (by rw [zero]; decide) bits
  next none => exact reduce_unsignedReading sized (by rw [none]; decide) bits

end CScalar

private theorem Value.toInt?_of_kind {own : CScalar} {value : Value} (kind : value.kind = own.kind)
    (whole : own.abiClass ≠ .float) : ∃ integer, value.toInt? = some integer := by
  cases value <;> first | exact ⟨_, rfl⟩ | (cases own <;> first | exact absurd rfl whole | cases kind)

theorem Value.eq_f32_of_kind {value : Value} (kind : value.kind = .f32) : ∃ number, value = .f32 number := by
  cases value <;> cases kind
  exact ⟨_, rfl⟩

theorem Value.eq_f64_of_kind {value : Value} (kind : value.kind = .f64) : ∃ number, value = .f64 number := by
  cases value <;> cases kind
  exact ⟨_, rfl⟩

theorem AbiType.mem_of_float {own : CScalar} (float : own.abiClass = .float) : own = .f32 ∨ own = .f64 := by
  cases own <;> simp_all [CScalar.abiClass]

namespace AbiType

theorem lowerBits_eq_ite {own : CScalar} {platform : Platform} {policy : Narrowing} {value : Value}
    {integer : Int} (kind : value.kind = own.kind) (number : value.toInt? = some integer) :
    lowerBits ⟨.scalar own, platform⟩ policy value =
      if policy = .checked ∧ fits integer (own.width platform) own.abiClass = false then
        .error (.outOfRange integer own.text (own.width platform))
      else .ok (lowBytes (own.width platform) integer) := by
  simp only [lowerBits, kind, ne_eq, not_true_eq_false, if_false]
  cases value <;> cases number <;> rfl

theorem lowerBits_eq_ok_iff {own : CScalar} {platform : Platform} {policy : Narrowing} {value : Value}
    {integer : Int} (kind : value.kind = own.kind) (number : value.toInt? = some integer) {bits : UInt64} :
    lowerBits ⟨.scalar own, platform⟩ policy value = .ok bits ↔
      (policy = .checked → fits integer (own.width platform) own.abiClass = true) ∧
        bits = lowBytes (own.width platform) integer := by
  rw [lowerBits_eq_ite kind number]
  split
  next refused => simp [refused.1, refused.2]
  next accepted =>
    constructor
    · rintro ⟨⟩
      exact ⟨fun checked => Bool.of_not_eq_false fun out => accepted ⟨checked, out⟩, rfl⟩
    · rintro ⟨_, rfl⟩
      rfl

theorem kind_of_lowerBits {own : CScalar} {platform : Platform} {policy : Narrowing} {value : Value}
    {bits : UInt64} (ok : lowerBits ⟨.scalar own, platform⟩ policy value = .ok bits) : value.kind = own.kind := by
  by_contra other
  simp [lowerBits, other] at ok

/-- A lowered value takes no more than its native bytes, and lifting them gives what they have kept of it. -/
theorem liftBits_of_lowerBits {own : CScalar} {platform : Platform} {policy : Narrowing} {value : Value}
    {bits : UInt64} (ok : lowerBits ⟨.scalar own, platform⟩ policy value = .ok bits) :
    bits.toNat < byteRange (own.width platform) ∧
      ∃ result, liftBits ⟨.scalar own, platform⟩ bits = .ok result ∧
        value.ReducesTo ⟨.scalar own, platform⟩ result ∧ (policy = .checked → result = value) := by
  have kind := kind_of_lowerBits ok
  by_cases float : own.abiClass = .float
  · rcases mem_of_float float with rfl | rfl
    · obtain ⟨number, rfl⟩ := Value.eq_f32_of_kind kind
      cases ok
      have pattern : UInt32.ofInt (unsignedReading 4 number.bits.toUInt64) = number.bits := by
        apply UInt32.toNat.inj
        have bound := number.bits.toNat_lt
        simp [UInt32.ofInt, unsignedReading]
        omega
      exact ⟨number.bits.toNat_lt, .f32 number, congrArg (fun bits => Except.ok (Value.f32 ⟨bits⟩)) pattern,
        ⟨rfl, rfl, fun _ => rfl⟩, fun _ => rfl⟩
    · obtain ⟨number, rfl⟩ := Value.eq_f64_of_kind kind
      cases ok
      have pattern : UInt64.ofInt (unsignedReading 8 number.bits) = number.bits := by
        apply UInt64.toNat.inj
        have bound := number.bits.toNat_lt
        simp [UInt64.ofInt, unsignedReading]
        omega
      exact ⟨number.bits.toNat_lt, .f64 number, congrArg (fun bits => Except.ok (Value.f64 ⟨bits⟩)) pattern,
        ⟨rfl, rfl, fun _ => rfl⟩, fun _ => rfl⟩
  · obtain ⟨integer, number⟩ := Value.toInt?_of_kind kind float
    obtain ⟨inside, rfl⟩ := (lowerBits_eq_ok_iff kind number).mp ok
    have positive := own.width_pos platform
    have low := toNat_lowBytes (own.width_le_register platform) integer
    have upper := Int.emod_lt_of_pos integer (b := byteRange (own.width platform))
      (by have := byteRange_pos (own.width platform); omega)
    obtain ⟨result, lifted, same, reading⟩ :=
      CScalar.toInt?_liftBits float platform (lowBytes (own.width platform) integer)
    rw [low, AbiClass.reduce_emod] at reading
    refine ⟨by omega, result, lifted, ⟨same.trans kind.symm, ?_, ?_⟩, ?_⟩
    · rw [reading, number]
      rfl
    · intro none
      cases number.symm.trans none
    · intro checked
      rw [AbiClass.reduce_of_fits positive (inside checked)] at reading
      exact Value.eq_of_toInt? (same.trans kind.symm) reading number

end AbiType
end Interop
