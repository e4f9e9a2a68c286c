import Interop.Proofs.Marshal.Execution
import Interop.Proofs.Marshal.Lowering
import Interop.Proofs.Marshal.Registers

/-! The narrowing policies: which values each of them accepts, and what becomes of those in a register.
Main statement: `narrowing_decided`, for every scalar type on every platform. -/
namespace Interop

namespace Value

private theorem pattern_or_number {own : CScalar} {value : Value} (kind : value.kind = own.kind) :
    (∃ pattern, value.pattern? = some pattern) ∨ ∃ integer, value.toInt? = some integer := by
  cases value
  case f32 | f64 => exact .inl ⟨_, rfl⟩
  case struct => cases own <;> cases kind
  all_goals exact .inr ⟨_, rfl⟩

private theorem toInt?_of_pattern {value : Value} {pattern : Nat} (float : value.pattern? = some pattern) :
    value.toInt? = none := by
  cases value <;> first | rfl | cases float

end Value
namespace AbiType

/-- The result is in the native range, and its number agrees with that of the given value in the bytes of the type. -/
structure Remainder (type : AbiType) (value result : Value) : Prop where
  kind : result.kind = value.kind
  holds : type.Holds result
  congruent : ∃ integer remainder, value.toInt? = some integer ∧ result.toInt? = some remainder ∧
    remainder % 2 ^ (8 * type.width) = integer % 2 ^ (8 * type.width)

variable {own : CScalar} {platform : Platform} {value : Value}

private theorem Remainder.number {result : Value} (remainder : Remainder ⟨.scalar own, platform⟩ value result)
    {integer : Int} (given : value.toInt? = some integer) :
    result.toInt? = some (own.abiClass.reduce (own.width platform) integer) := by
  obtain ⟨source, kept, same, target, congruent⟩ := remainder.congruent
  cases given.symm.trans same
  have inside := (holds_iff_fits target).mp remainder.holds
  have residue : kept % byteRange (own.width platform) = integer % byteRange (own.width platform) := by
    rw [byteRange_eq_pow]
    exact congruent
  -- A number in the range is its own reduction, and reducing sees the residue only.
  rw [target, ← AbiClass.reduce_emod, ← residue, AbiClass.reduce_emod]
  exact congrArg some (AbiClass.reduce_of_fits (own.width_pos platform) inside).symm

private theorem remainder_of_number {result : Value} {integer : Int} (given : value.toInt? = some integer)
    (kind : result.kind = value.kind)
    (number : result.toInt? = some (own.abiClass.reduce (own.width platform) integer)) :
    Remainder ⟨.scalar own, platform⟩ value result := by
  refine ⟨kind, ?_, integer, _, given, number, ?_⟩
  · exact (holds_iff_fits number).mpr (own.abiClass.fits_reduce (own.width_pos platform) integer)
  · have kept := own.abiClass.emod_reduce (own.width platform) integer
    rwa [byteRange_eq_pow] at kept

private theorem lowerBits_of_pattern (platform : Platform) {pattern : Nat} (kind : value.kind = own.kind)
    (float : value.pattern? = some pattern) :
    ∃ bits, bits.toNat = pattern ∧ ∀ policy, lowerBits ⟨.scalar own, platform⟩ policy value = .ok bits := by
  cases value <;> cases float <;> cases own <;> cases kind
  · exact ⟨_, UInt32.toNat_toUInt64 _, fun _ => rfl⟩
  · exact ⟨_, rfl, fun _ => rfl⟩

private theorem lowerBits_cases (platform : Platform) (kind : value.kind = own.kind) (policy : Narrowing) :
    (∃ bits, lowerBits ⟨.scalar own, platform⟩ policy value = .ok bits ∧
      (policy = .checked → Holds ⟨.scalar own, platform⟩ value)) ∨
    policy = .checked ∧ ¬ Holds ⟨.scalar own, platform⟩ value ∧ ∃ integer, value.toInt? = some integer ∧
      lowerBits ⟨.scalar own, platform⟩ policy value =
        .error (.outOfRange integer own.text (own.width platform)) := by
  rcases Value.pattern_or_number kind with ⟨pattern, float⟩ | ⟨integer, number⟩
  · obtain ⟨bits, _, lowered⟩ := lowerBits_of_pattern platform kind float
    exact .inl ⟨bits, lowered policy, fun _ => holds_of_no_number (Value.toInt?_of_pattern float)⟩
  · have range : Holds ⟨.scalar own, platform⟩ value ↔ fits integer (own.width platform) own.abiClass = true :=
      holds_iff_fits number
    rw [lowerBits_eq_ite kind number, range]
    split
    next refused =>
      obtain ⟨checked, outside⟩ := refused
      exact .inr ⟨checked, by simp [outside], integer, number, rfl⟩
    next accepted =>
      refine .inl ⟨_, rfl, ?_⟩
      intro checked
      exact Bool.of_not_eq_false fun outside => accepted ⟨checked, outside⟩

theorem lowerBits_wrap_of_checked {bits : UInt64}
    (lowered : lowerBits ⟨.scalar own, platform⟩ .checked value = .ok bits) :
    lowerBits ⟨.scalar own, platform⟩ .wrap value = .ok bits := by
  have kind := kind_of_lowerBits lowered
  rcases Value.pattern_or_number kind with ⟨pattern, float⟩ | ⟨integer, number⟩
  · obtain ⟨_, _, either⟩ := lowerBits_of_pattern platform kind float
    rw [either, ← either .checked, lowered]
  · exact (lowerBits_eq_ok_iff kind number).mpr ⟨nofun, ((lowerBits_eq_ok_iff kind number).mp lowered).2⟩

private theorem lowerBits_wrap (platform : Platform) (kind : value.kind = own.kind) :
    ∃ bits result, lowerBits ⟨.scalar own, platform⟩ .wrap value = .ok bits ∧
      liftBits ⟨.scalar own, platform⟩ bits = .ok result ∧
      (∀ pattern, value.pattern? = some pattern → bits.toNat = pattern ∧ result = value) ∧
      ∀ integer, value.toInt? = some integer →
        (bits.toNat : Int) = integer % 2 ^ (8 * own.width platform) ∧
          ∀ other, Remainder ⟨.scalar own, platform⟩ value other ↔ other = result := by
  obtain ⟨bits, lowered, _⟩ | ⟨checked, _⟩ := lowerBits_cases platform kind .wrap
  swap
  · cases checked
  obtain ⟨_, result, lifted, reduces, _⟩ := liftBits_of_lowerBits lowered
  refine ⟨bits, result, lowered, lifted, ?_, ?_⟩
  · intro pattern float
    obtain ⟨same, exact, either⟩ := lowerBits_of_pattern platform kind float
    cases lowered.symm.trans (either .wrap)
    exact ⟨exact, reduces.rest (Value.toInt?_of_pattern float)⟩
  · intro integer given
    have low := ((lowerBits_eq_ok_iff kind given).mp lowered).2
    have number := reduces.number
    rw [given, Option.map_some] at number
    constructor
    · rw [low, toNat_lowBytes (own.width_le_register platform), byteRange_eq_pow]
    · intro other
      constructor
      · intro remainder
        exact Value.eq_of_toInt? (remainder.kind.trans reduces.kind.symm) (remainder.number given) number
      · rintro rfl
        exact remainder_of_number given reduces.kind number

/-- A value of another kind is refused under both policies. One of the right kind is accepted without narrowing exactly
when it is a float or its number is in the native range, and else the number is reported. Wrapping accepts it always:
a float comes back as it was, an integer or address as the only value of the native range with its remainder. What
both policies accept they agree on. The test of the range and the mask are carried out on words. -/
theorem narrowing_decided {type : AbiType} (resolved : (NativeType.scalar own).resolve platform = .ok type)
    (value : Value) :
    (∀ policy, type.executeLowerBits policy value = .ok (type.lowerBits policy value)) ∧
    (∀ policy, (∃ expected got, type.lowerBits policy value = .error (.typeMismatch expected got)) ↔
      value.kind ≠ type.kind) ∧
    (value.kind = type.kind →
      ((∃ bits, type.lowerBits .checked value = .ok bits) ↔ type.Holds value) ∧
      (¬ type.Holds value → ∃ integer, value.toInt? = some integer ∧
        type.lowerBits .checked value = .error (.outOfRange integer type.text type.width)) ∧
      ∃ bits result, type.lowerBits .wrap value = .ok bits ∧ type.liftBits bits = .ok result ∧
        (∀ pattern, value.pattern? = some pattern → bits.toNat = pattern ∧ result = value) ∧
        ∀ integer, value.toInt? = some integer →
          (bits.toNat : Int) = integer % 2 ^ (8 * type.width) ∧
            ∀ other, type.Remainder value other ↔ other = result) ∧
    ∀ bits, type.lowerBits .checked value = .ok bits → type.lowerBits .wrap value = .ok bits := by
  cases resolved
  refine ⟨fun policy => executeLowerBits_eq _ policy value, ?_, ?_, fun bits => lowerBits_wrap_of_checked⟩
  · intro policy
    by_cases kind : value.kind = own.kind
    · refine iff_of_false ?_ (not_not.mpr kind)
      rintro ⟨expected, got, mismatched⟩
      obtain ⟨bits, lowered, _⟩ | ⟨_, _, _, _, refused⟩ := lowerBits_cases platform kind policy
      · cases mismatched.symm.trans lowered
      · cases mismatched.symm.trans refused
    · exact iff_of_true ⟨_, _, if_pos kind⟩ kind
  · intro kind
    refine ⟨?_, ?_, lowerBits_wrap platform kind⟩
    · obtain ⟨bits, lowered, holds⟩ | ⟨_, outside, _, _, refused⟩ := lowerBits_cases platform kind .checked
      · exact iff_of_true ⟨bits, lowered⟩ (holds rfl)
      · refine iff_of_false ?_ outside
        rintro ⟨bits, lowered⟩
        cases refused.symm.trans lowered
    · intro outside
      obtain ⟨_, _, holds⟩ | ⟨_, _, refused⟩ := lowerBits_cases platform kind .checked
      · exact absurd (holds rfl) outside
      · exact refused

/-- One more than the largest long of four bytes is refused, and wraps to the least one. -/
theorem narrowing_decided_long :
    (NativeType.scalar .long).resolve .llp64 = .ok ⟨.scalar .long, .llp64⟩ ∧
      lowerBits ⟨.scalar .long, .llp64⟩ .checked (.i64 2147483648) = .error (.outOfRange 2147483648 "long" 4) ∧
      ∃ bits, lowerBits ⟨.scalar .long, .llp64⟩ .wrap (.i64 2147483648) = .ok bits ∧
        liftBits ⟨.scalar .long, .llp64⟩ bits = .ok (.i64 (-2147483648)) := by
  have resolved : (NativeType.scalar .long).resolve .llp64 = .ok ⟨.scalar .long, .llp64⟩ := rfl
  have outside : ¬ Holds ⟨.scalar .long, .llp64⟩ (.i64 2147483648) := by
    intro holds
    exact absurd (holds 2147483648 rfl).2 (by decide)
  have least : Remainder ⟨.scalar .long, .llp64⟩ (.i64 2147483648) (.i64 (-2147483648)) :=
    remainder_of_number rfl rfl rfl
  obtain ⟨_, _, decided, _⟩ := narrowing_decided resolved (.i64 2147483648)
  obtain ⟨_, refused, bits, result, lowered, lifted, _, numbers⟩ := decided rfl
  obtain ⟨integer, number, reported⟩ := refused outside
  cases number
  have same := ((numbers _ rfl).2 _).mp least
  exact ⟨resolved, reported, bits, lowered, same ▸ lifted⟩

end AbiType
end Interop
