import Interop.Marshal.Execution
import Interop.Proofs.CType.ExactLayout
import Interop.Proofs.Marshal.NativeBytes

/-! No step of a conversion is out of range, but for the buffer of a struct that is too large for one.
Main statement: `execution_decided`. -/
namespace Interop
open Interop.Alignment Outcome Words

/-! ## Words -/

private theorem Words.sub_of_le {left right : Nat} (below : right ≤ left) :
    sub left right = .ok (left - right) := if_pos below

private theorem Words.widePower_of_lt {exponent : Nat} (short : exponent < 127) :
    widePower exponent = .ok (2 ^ exponent) := by
  have word : exponent < 128 := by omega
  have bound : 2 ^ exponent < 2 ^ 127 := Nat.pow_lt_pow_right (by decide) short
  have whole : (1#128 <<< exponent).toNat = 2 ^ exponent := by
    rw [BitVec.toNat_shiftLeft, Nat.shiftLeft_eq, BitVec.toNat_ofNat, Nat.mod_eq_of_lt] <;> omega
  have small : 2 * (1#128 <<< exponent).toNat < 2 ^ 128 := by omega
  rw [widePower, if_pos word, BitVec.toInt_eq_toNat_of_lt small, whole]
  simp

private theorem toNat_ofInt (integer : Int) : ((UInt64.ofInt integer).toNat : Int) = integer % (2 ^ 64 : Nat) := by
  have lower := Int.emod_nonneg integer (b := 2 ^ 64) (by decide)
  have upper := Int.emod_lt_of_pos integer (b := 2 ^ 64) (by decide)
  rw [UInt64.ofInt, UInt64.toNat_ofNat']
  omega

theorem toInt_toBitVec_ofInt (integer : Int) : (UInt64.ofInt integer).toBitVec.toInt = integer.bmod (2 ^ 64) := by
  rw [BitVec.toInt_eq_toNat_bmod, UInt64.toNat_toBitVec, toNat_ofInt, Int.emod_bmod]

private theorem Words.shiftRight_shiftLeft {amount : Nat} (short : amount < 64) (bits : UInt64) :
    (do let high ← shiftLeft bits amount; shiftRight high amount) =
      .ok (UInt64.ofInt ((bits.toNat : Int).bmod (2 ^ (64 - amount)))) := by
  have split : 2 ^ amount * 2 ^ (64 - amount) = 2 ^ 64 := by
    rw [← Nat.pow_add]
    congr 1
    omega
  have double : 2 ^ (64 - amount) = 2 * 2 ^ (63 - amount) := by
    rw [← Nat.pow_succ']
    congr 1
    omega
  have high : (bits <<< UInt64.ofNat amount).toBitVec.toInt =
      (2 ^ amount : Nat) * (bits.toNat : Int).bmod (2 ^ (64 - amount)) := by
    -- What the shift drops is a multiple of the word, and scaling passes through the balanced remainder.
    rw [← Int.mod_bmod_mul_of_pos _ _ (Nat.two_pow_pos amount) ⟨_, double⟩, split, BitVec.toInt_eq_toNat_bmod,
      UInt64.toNat_toBitVec, UInt64.toNat_shiftLeft, UInt64.toNat_ofNat', Nat.shiftLeft_eq]
    rw [Nat.mod_eq_of_lt (show amount < 2 ^ 64 by omega), Nat.mod_eq_of_lt short, Int.natCast_emod, Int.emod_bmod]
    rw [Int.natCast_mul, Int.mul_comm]
  have low : ((bits.toNat : Int).bmod (2 ^ (64 - amount))).bmod (2 ^ 64) =
      (bits.toNat : Int).bmod (2 ^ (64 - amount)) := by
    have lower := Int.le_bmod (x := bits.toNat) (Nat.two_pow_pos (64 - amount))
    have upper := Int.bmod_lt (x := bits.toNat) (Nat.two_pow_pos (64 - amount))
    have below : 2 ^ (64 - amount) ≤ 2 ^ 64 := Nat.pow_le_pow_right (by decide) (Nat.sub_le _ _)
    apply Int.bmod_eq_of_le <;> omega
  rw [shiftLeft, if_pos short, ok_bind, shiftRight, if_pos short]
  refine congrArg Except.ok (UInt64.eq_of_toBitVec_eq (BitVec.eq_of_toInt_eq ?_))
  rw [UInt64.toBitVec_ofBitVec, BitVec.toInt_sshiftRight, high, Int.shiftRight_eq_div_pow,
    Int.mul_ediv_cancel_left _ (Int.natCast_ne_zero.mpr (Nat.two_pow_pos amount).ne'), toInt_toBitVec_ofInt, low]

private theorem mask_eq (bits : UInt64) (width : Nat) :
    mask bits width = .ok (UInt64.ofNat (bits.toNat % byteRange width)) := by
  unfold mask
  split
  next wide =>
    have range : byteRange 8 ≤ byteRange width := byteRange_mono wide
    have bound := bits.toNat_lt
    rw [Nat.mod_eq_of_lt (bound.trans_le range), UInt64.ofNat_toNat]
  next narrow =>
    have short : width * 8 < 64 := by omega
    have bound : 2 ^ (width * 8) < 2 ^ 64 := Nat.pow_lt_pow_right (by decide) short
    have next : ((1 : UInt64) <<< UInt64.ofNat (width * 8)).toNat = 2 ^ (width * 8) := by
      rw [UInt64.toNat_shiftLeft, UInt64.toNat_ofNat', Nat.mod_eq_of_lt (show width * 8 < 2 ^ 64 by omega),
        Nat.mod_eq_of_lt short, Nat.shiftLeft_eq, show (1 : UInt64).toNat = 1 from rfl, Nat.one_mul,
        Nat.mod_eq_of_lt bound]
    rw [shiftLeft, if_pos short, ok_bind, next, sub_of_le (Nat.two_pow_pos _), ok_bind]
    refine congrArg Except.ok (UInt64.toNat.inj ?_)
    rw [UInt64.toNat_and, UInt64.toNat_ofNat', UInt64.toNat_ofNat', byteRange, Nat.mul_comm 8,
      Nat.mod_eq_of_lt (show 2 ^ (width * 8) - 1 < 2 ^ 64 by omega), Nat.and_two_pow_sub_one_eq_mod]
    exact (Nat.mod_eq_of_lt ((Nat.mod_lt _ (Nat.two_pow_pos _)).trans bound)).symm

private theorem toNat_masked (bits : UInt64) (width : Nat) :
    (UInt64.ofNat (bits.toNat % byteRange width)).toNat = bits.toNat % byteRange width := by
  rw [UInt64.toNat_ofNat', Nat.mod_eq_of_lt ((Nat.mod_le _ _).trans_lt bits.toNat_lt)]

private theorem signedReading_masked (bits : UInt64) (width : Nat) :
    signedReading width (UInt64.ofNat (bits.toNat % byteRange width)) = signedReading width bits := by
  simp only [signedReading, toNat_masked]
  rw [← byteRange, Nat.mod_mod]

private theorem emod_lowBytes (integer : Int) :
    ((lowBytes 8 integer).toNat : Int) % (2 ^ 64 : Nat) = integer % (2 ^ 64 : Nat) := by
  rw [toNat_lowBytes (Nat.le_refl 8), byteRange, Int.emod_emod]

private theorem lowBytes_signedReading (bits : UInt64) : lowBytes 8 (signedReading 8 bits) = bits := by
  apply UInt64.toNat.inj
  have residue : signedReading 8 bits % byteRange 8 = bits.toNat % byteRange 8 := by
    rw [signedReading_eq, AbiClass.reduce, Int.bmod_emod]
  have low := toNat_lowBytes (Nat.le_refl 8) (signedReading 8 bits)
  have bound := bits.toNat_lt
  rw [residue, byteRange] at low
  omega

theorem ofInt_eq_lowBytes (integer : Int) : UInt64.ofInt integer = lowBytes 8 integer := rfl

private theorem fill_eq {width : Nat} (positive : 0 < width) (narrow : width ≤ 8) (bits : UInt64) :
    (do let amount ← sub 64 (width * 8); let high ← shiftLeft bits amount; shiftRight high amount) =
      .ok (lowBytes 8 (signedReading width bits)) := by
  rw [sub_of_le (by omega), ok_bind, shiftRight_shiftLeft (by omega), ofInt_eq_lowBytes, signedReading_eq,
    show 64 - (64 - width * 8) = 8 * width by omega]
  rfl

private theorem signExtend_eq {width : Nat} (positive : 0 < width) (narrow : width ≤ 8) (bits : UInt64) :
    signExtend bits width = .ok (lowBytes 8 (signedReading width bits)) := by
  rw [signExtend, min_eq_left narrow]
  exact fill_eq positive narrow bits

private theorem inRange_eq {width : Nat} (positive : 0 < width) (narrow : width ≤ 8) (integer : Int)
    (abiClass : AbiClass) :
    inRange integer width abiClass = .ok (fits integer width abiClass) := by
  have small : ¬ 16 ≤ width := by omega
  unfold inRange
  rw [if_neg small, Nat.mul_comm]
  cases abiClass
  case signed =>
    dsimp only
    rw [sub_of_le (by omega), ok_bind, widePower_of_lt (by omega)]
    rfl
  all_goals
    dsimp only
    rw [widePower_of_lt (by omega)]
    rfl

/-! ## Conversions -/

private theorem emod_of_width {first second : Int} (same : first % (2 ^ 64 : Nat) = second % (2 ^ 64 : Nat))
    {bits : Nat} (narrow : bits ≤ 64) : first % (2 ^ bits : Nat) = second % (2 ^ bits : Nat) := by
  have divides : ((2 ^ bits : Nat) : Int) ∣ (2 ^ 64 : Nat) := Int.natCast_dvd_natCast.mpr (Nat.pow_dvd_pow 2 narrow)
  rw [← Int.emod_emod_of_dvd first divides, same, Int.emod_emod_of_dvd second divides]

private theorem CScalar.valueOf_congr {first second : Int} (same : first % (2 ^ 64 : Nat) = second % (2 ^ 64 : Nat))
    (own : CScalar) : own.valueOf first = own.valueOf second := by
  have signed : ∀ {bits : Nat}, bits ≤ 64 → BitVec.ofInt bits first = BitVec.ofInt bits second := by
    intro bits narrow
    apply BitVec.eq_of_toNat_eq
    rw [BitVec.toNat_ofInt, BitVec.toNat_ofInt, emod_of_width same narrow]
  have byte : first % 2 ^ 8 = second % 2 ^ 8 := emod_of_width same (by decide : 8 ≤ 64)
  have half : first % 2 ^ 16 = second % 2 ^ 16 := emod_of_width same (by decide : 16 ≤ 64)
  have single : first % 2 ^ 32 = second % 2 ^ 32 := emod_of_width same (by decide : 32 ≤ 64)
  have double : first % 2 ^ 64 = second % 2 ^ 64 := same
  cases own
  case i8 => exact congrArg (fun bits => Value.i8 ⟨⟨bits⟩⟩) (signed (by decide))
  case i16 => exact congrArg (fun bits => Value.i16 ⟨⟨bits⟩⟩) (signed (by decide))
  case i32 => exact congrArg (fun bits => Value.i32 ⟨⟨bits⟩⟩) (signed (by decide))
  case i64 | long | ptrdiff => exact congrArg (fun bits => Value.i64 ⟨⟨bits⟩⟩) (signed (by decide))
  all_goals simp only [valueOf, UInt8.ofInt, UInt16.ofInt, UInt32.ofInt, UInt64.ofInt, byte, half, single, double]

private theorem mask_ofInt {width : Nat} (narrow : width ≤ 8) (integer : Int) :
    mask (UInt64.ofInt integer) width = .ok (lowBytes width integer) := by
  have divides : (byteRange width : Int) ∣ (2 ^ 64 : Nat) :=
    Int.natCast_dvd_natCast.mpr (Nat.pow_dvd_pow 2 (by omega))
  rw [mask_eq, lowBytes, ← byteRange_eq_pow]
  refine congrArg (fun low => Except.ok (UInt64.ofNat low)) ?_
  rw [← Int.toNat_natCast (_ % _), Int.natCast_emod, toNat_ofInt, Int.emod_emod_of_dvd integer divides]

namespace AbiType

private theorem width_of_signed {type : AbiType} (signed : type.abiClass = .signed) :
    0 < type.width ∧ type.width ≤ 8 := by
  obtain ⟨native, platform⟩ := type
  cases native with
  | struct layout => cases signed
  | scalar own => exact ⟨own.width_pos platform, own.width_le_register platform⟩

private theorem executeLowerBits_of_number {own : CScalar} {platform : Platform} {policy : Narrowing} {value : Value}
    {integer : Int} (kind : value.kind = own.kind) (number : value.toInt? = some integer) :
    executeLowerBits ⟨.scalar own, platform⟩ policy value = (do
      let accepted ← accepts policy integer (own.width platform) own.abiClass
      if accepted then Except.ok <$> mask (UInt64.ofInt integer) (own.width platform)
      else .ok (.error (.outOfRange integer own.text (own.width platform)))) := by
  unfold executeLowerBits
  rw [if_neg (not_not.mpr (show value.kind = (AbiType.mk (.scalar own) platform).kind from kind))]
  cases value <;> cases number <;> rfl

theorem executeLowerBits_eq (type : AbiType) (policy : Narrowing) (value : Value) :
    type.executeLowerBits policy value = .ok (type.lowerBits policy value) := by
  obtain ⟨native, platform⟩ := type
  cases native with
  | struct layout => cases value <;> rfl
  | scalar own =>
    by_cases kind : value.kind = own.kind
    · cases number : value.toInt? with
      | none =>
        unfold executeLowerBits lowerBits
        rw [if_neg (not_not.mpr (show value.kind = (AbiType.mk (.scalar own) platform).kind from kind))]
        dsimp only
        rw [if_neg (not_not.mpr kind)]
        cases value <;> cases number <;> rfl
      | some integer =>
        have narrow := own.width_le_register platform
        rw [executeLowerBits_of_number kind number, lowerBits_eq_ite kind number, mask_ofInt narrow]
        cases policy with
        | wrap => rfl
        | checked =>
          rw [accepts, inRange_eq (own.width_pos platform) narrow, ok_bind]
          cases fits integer (own.width platform) own.abiClass <;> rfl
    · rw [show lowerBits ⟨.scalar own, platform⟩ policy value = .error (mismatch ⟨.scalar own, platform⟩ value) from
        if_pos kind]
      exact if_pos kind

theorem executeLiftBits_eq (type : AbiType) (bits : UInt64) : type.executeLiftBits bits = .ok (type.liftBits bits) := by
  obtain ⟨native, platform⟩ := type
  rw [executeLiftBits, mask_eq, ok_bind]
  cases native with
  | struct layout => rfl
  | scalar own =>
    have positive := own.width_pos platform
    have narrow := own.width_le_register platform
    have unsigned : ((UInt64.ofNat (bits.toNat % byteRange (own.width platform))).toNat : Int) =
        unsignedReading (own.width platform) bits := by
      rw [toNat_masked, unsignedReading_eq, Int.natCast_emod]
    simp only [liftBits, width_scalar, AbiType.extension]
    cases own.extension platform with
    | sign =>
      rw [widen, signExtend_eq positive narrow, ok_bind, signedReading_masked]
      exact congrArg (fun value => Except.ok (Except.ok value)) (CScalar.valueOf_congr (emod_lowBytes _) own)
    | zero | none =>
      rw [widen, ok_bind, unsigned]

private theorem executeLower_eq (type : AbiType) (policy : Narrowing) (view : View) (offset : Nat) (value : Value) :
    type.executeLower policy view offset value = .ok (type.lower policy view offset value) := by
  cases value
  case struct bytes => rfl
  all_goals
    unfold executeLower lower
    dsimp only
    rw [executeLowerBits_eq, ok_bind]
    cases type.lowerBits policy _ <;> rfl

end AbiType

theorem Signature.executeLowerResultBits_eq (signature : Signature) (value : Value) :
    signature.executeLowerResultBits value = .ok (signature.lowerResultBits value) := by
  obtain ⟨params, result, platform, policy⟩ := signature
  cases result with
  | none => rfl
  | some type =>
    have converted := type.executeLowerBits_eq policy value
    simp only [executeLowerResultBits, lowerResultBits, converted, ok_bind]
    cases type.lowerBits policy value with
    | error error => rfl
    | ok bits =>
      dsimp only
      by_cases signed : type.abiClass = .signed
      -- A signed scalar has between one and eight bytes, so neither shift is as long as the word.
      · obtain ⟨positive, narrow⟩ := type.width_of_signed signed
        by_cases short : type.width < registerWidth
        · obtain ⟨amount, below, shifted⟩ := bind_eq_ok.mp (fill_eq positive narrow bits)
          obtain ⟨high, left, right⟩ := bind_eq_ok.mp shifted
          rw [if_pos ⟨signed, short⟩, ok_bind, if_pos signed, below, ok_bind, left, ok_bind, right]
          rfl
        · have full : type.width = 8 := Nat.le_antisymm narrow (Nat.le_of_not_lt short)
          rw [if_neg (fun both => short both.2), ok_bind, if_pos signed, full, registerWidth, lowBytes_signedReading]
      · rw [if_neg (fun both => signed both.1), ok_bind, if_neg signed]

namespace AbiType

private theorem executeLiftWithin_eq (type : AbiType) (limit : Nat) (view : View) (offset : Nat) (store : Store) :
    type.executeLiftWithin limit view offset store =
      if type.abiClass = .struct ∧ limit ≤ type.width then .error (.buffer type.width)
      else .ok (type.lift view offset store) := by
  obtain ⟨native, platform⟩ := type
  cases native with
  | scalar own =>
    have scalar : ¬ ((AbiType.mk (.scalar own) platform).abiClass = .struct ∧
        limit ≤ (AbiType.mk (.scalar own) platform).width) := by
      rintro ⟨shape, _⟩
      cases own <;> cases shape
    rw [if_neg scalar, executeLiftWithin, lift]
    dsimp only
    cases readBits view offset (AbiType.mk (.scalar own) platform).width store with
    | error error => rfl
    | ok bits => exact executeLiftBits_eq _ bits
  | struct layout =>
    rw [executeLiftWithin, lift, width_struct]
    dsimp only
    unfold requestBuffer
    by_cases short : layout.size < limit
    · rw [if_pos short, ok_bind, if_neg (fun large => Nat.not_le_of_lt short large.2)]
      cases view.readBytes offset layout.size store <;> rfl
    · rw [if_neg short, error_bind, if_pos ⟨rfl, Nat.le_of_not_lt short⟩]

private theorem executeLiftWithin_eq_error_iff {type : AbiType} {limit : Nat} {view : View} {offset : Nat}
    {store : Store} {stop : Stop} : type.executeLiftWithin limit view offset store = .error stop ↔
      type.abiClass = .struct ∧ limit ≤ type.width ∧ stop = .buffer type.width := by
  rw [executeLiftWithin_eq]
  split
  next large =>
    simp only [Except.error.injEq, large, true_and]
    exact eq_comm
  next small =>
    refine iff_of_false nofun ?_
    rintro ⟨struct, large, _⟩
    exact small ⟨struct, large⟩

theorem executeLift_of_lt {type : AbiType} (short : type.width < bufferBound) (view : View) (offset : Nat)
    (store : Store) : type.executeLift view offset store = .ok (type.lift view offset store) := by
  rw [executeLift, executeLiftWithin_eq, if_neg fun large => Nat.not_le_of_lt short large.2]

private theorem lift_beyond {type : AbiType} {view : View} (readable : view.readable = true) {offset : Nat}
    (beyond : view.size < offset + type.width) (store : Store) :
    type.lift view offset store = .error (.memory (.outOfBounds offset type.width view.size)) := by
  have located : view.locateRead offset type.width = .error (.outOfBounds offset type.width view.size) := by
    rw [View.locateRead, View.requireReadable_eq_ok_iff.mpr readable, ok_bind]
    exact if_neg (Nat.not_le_of_lt beyond)
  rw [lift_eq, View.readBytes, located, error_bind]

/-- Step by step, every conversion comes to what is said of it as a whole. The one step that can be out of range is
the buffer for a struct: lifting stops there exactly for structs that are too large for any buffer, and else it reports
a struct that does not fit into the view. The buffer is requested in any case, also for a struct that is wider than the
view: where no buffer longer than the view can be had, lifting stops. -/
theorem execution_decided (type : AbiType) {view : View} (obtained : view.Obtained) (offset : Nat) (store : Store) :
    (∀ policy value, type.executeLowerBits policy value = .ok (type.lowerBits policy value)) ∧
    (∀ bits, type.executeLiftBits bits = .ok (type.liftBits bits)) ∧
    (∀ policy value, type.executeLower policy view offset value = .ok (type.lower policy view offset value)) ∧
    (∀ (signature : Signature) value,
      signature.executeLowerResultBits value = .ok (signature.lowerResultBits value)) ∧
    (∀ stop, type.executeLift view offset store = .error stop ↔
      type.abiClass = .struct ∧ bufferBound ≤ type.width ∧ stop = .buffer type.width) ∧
    (type.width < bufferBound → type.executeLift view offset store = .ok (type.lift view offset store) ∧
      (view.size < offset + type.width →
        type.executeLift view offset store = .ok (.error (.memory (.outOfBounds offset type.width view.size))))) ∧
    (∀ limit stop, type.executeLiftWithin limit view offset store = .error stop ↔
      type.abiClass = .struct ∧ limit ≤ type.width ∧ stop = .buffer type.width) ∧
    (type.abiClass = .struct → view.size < type.width →
      type.executeLiftWithin (view.size + 1) view offset store = .error (.buffer type.width)) := by
  refine ⟨type.executeLowerBits_eq, type.executeLiftBits_eq,
    fun policy value => type.executeLower_eq policy view offset value,
    fun signature => signature.executeLowerResultBits_eq, fun stop => executeLiftWithin_eq_error_iff, ?_,
    fun limit stop => executeLiftWithin_eq_error_iff, ?_⟩
  · intro short
    have whole := executeLift_of_lt short view offset store
    refine ⟨whole, ?_⟩
    intro beyond
    rw [whole, lift_beyond obtained.readable beyond]
  · intro struct wide
    exact executeLiftWithin_eq_error_iff.mpr ⟨struct, wide, rfl⟩

end AbiType

/-! ## A struct that is too large for a buffer -/

namespace Specimen

def pair (name : String) (type : NativeType) (width : Nat) : StructLayout :=
  ⟨name, 2 * width, 8, .lp64, [⟨"a", 0, type⟩, ⟨"b", width, type⟩]⟩

def pairSchema (name : String) (type : NativeType) : StructSchema :=
  (StructSchema.empty name).declare [("a", type), ("b", type)]

def doubled : Nat → StructLayout
  | 0 => pair "s0" (.scalar .i64) 8
  | depth + 1 => pair s!"s{depth + 1}" (.struct (doubled depth)) (2 ^ (depth + 4))

private theorem size_doubled (depth : Nat) : (doubled depth).size = 2 ^ (depth + 4) := by
  cases depth with
  | zero => rfl
  | succ depth => exact (Nat.pow_succ' (m := 2) (n := depth + 4)).symm

private theorem platform_doubled (depth : Nat) : (doubled depth).platform = .lp64 := by
  cases depth <;> rfl

private theorem forward?_words {words : Nat} (small : 8 * words < wordBound) :
    forward? (8 * words) 8 = some (8 * words) :=
  forward?_of_dvd ⟨3, rfl⟩ (by decide) (Nat.dvd_mul_right 8 words) small

private theorem pair_placed (name : String) {type : NativeType} {words : Nat} (embeds : StructSchema.Embeds .lp64 type)
    (width : (AbiType.mk type .lp64).width = 8 * words) (alignment : (AbiType.mk type .lp64).alignment = 8)
    (small : 2 * (8 * words) < wordBound) :
    StructSchema.Placed .lp64 ⟨0, 1⟩ (pairSchema name type).fields (pair name type (8 * words)).fields
      ⟨2 * (8 * words), 8⟩ := by
  have first : forward? 0 (AbiType.mk type .lp64).alignment = some 0 := by
    rw [alignment]
    rfl
  have second : forward? (0 + (AbiType.mk type .lp64).width) (AbiType.mk type .lp64).alignment = some (8 * words) := by
    rw [alignment, width, Nat.zero_add]
    exact forward?_words (by omega)
  have firstEnd : 0 + (AbiType.mk type .lp64).width < wordBound := by omega
  have secondEnd : 8 * words + (AbiType.mk type .lp64).width < wordBound := by omega
  refine .cons embeds first firstEnd (.cons embeds second secondEnd ?_)
  rw [width, alignment, Nat.two_mul]
  exact .nil _

private theorem pair_computed (name : String) {type : NativeType} {words : Nat} (computed : type.Computed)
    (embeds : StructSchema.Embeds .lp64 type)
    (width : (AbiType.mk type .lp64).width = 8 * words) (alignment : (AbiType.mk type .lp64).alignment = 8)
    (small : 2 * (8 * words) < wordBound) : (pair name type (8 * words)).Computed := by
  have order : (pairSchema name type).InOrder :=
    (StructSchema.InOrder.empty name).declare (show 0 + 2 < wordBound by decide)
  have placed := pair_placed name embeds width alignment small
  have rounded : forward? (2 * (8 * words)) 8 = some (2 * (8 * words)) := by
    rw [Nat.mul_left_comm] at small ⊢
    exact forward?_words small
  have nested : ∀ field ∈ (pairSchema name type).fields, ∀ inner, field.type = .struct inner → inner.Computed := by
    have each : ∀ field ∈ (pairSchema name type).fields, field.type = type := by
      simp [pairSchema, StructSchema.declare, StructSchema.field, StructSchema.fieldAt, StructSchema.empty]
    intro field member inner shape
    rw [each field member] at shape
    subst shape
    exact computed
  refine .intro (pairSchema name type) .lp64 _ nested (StructSchema.layout_eq_ok_iff.mpr ?_)
  rw [order.sorted_eq]
  exact ⟨order.slots, (show ["a", "b"].Nodup by decide), ⟨2 * (8 * words), 8⟩, placed, rounded, rfl⟩

private theorem doubled_computed {depth : Nat} (small : depth < 60) : (doubled depth).Computed := by
  induction depth with
  | zero => exact @pair_computed "s0" (.scalar .i64) 1 trivial trivial rfl rfl (by decide)
  | succ depth ih =>
    have words : 2 ^ (depth + 4) = 8 * 2 ^ (depth + 1) := by
      rw [Nat.mul_comm]
      exact Nat.pow_add 2 (depth + 1) 3
    have positive : 0 < 2 ^ (depth + 4) := Nat.two_pow_pos _
    have bound : 2 ^ (depth + 4) ≤ 2 ^ 62 := Nat.pow_le_pow_right (by decide) (by omega)
    have alignment : (doubled depth).alignment = 8 := by cases depth <;> rfl
    have filled : (doubled depth).size ≠ 0 := by
      rw [size_doubled]
      exact positive.ne'
    rw [doubled, words]
    have width := (size_doubled depth).trans words
    refine pair_computed _ (ih (by omega)) ⟨filled, platform_doubled depth⟩ width alignment ?_
    have last : 2 * 2 ^ 62 < wordBound := by decide
    omega

end Specimen

namespace AbiType

/-- Sixty nested pairs take up more than the longest buffer. They cannot be lifted from a view of sixteen bytes, and
execution stops before that is noticed. -/
theorem executeLift_vast : (Specimen.doubled 59).Computed ∧ (Specimen.doubled 59).size = bufferBound ∧
    (NativeType.struct (Specimen.doubled 59)).resolve .lp64 = .ok ⟨.struct (Specimen.doubled 59), .lp64⟩ ∧
    executeLift ⟨.struct (Specimen.doubled 59), .lp64⟩ (.heap 0 16 true) 0 .initial = .error (.buffer bufferBound) ∧
    lift ⟨.struct (Specimen.doubled 59), .lp64⟩ (.heap 0 16 true) 0 .initial =
      .error (.memory (.outOfBounds 0 bufferBound 16)) := by
  have size : (Specimen.doubled 59).size = bufferBound := Specimen.size_doubled 59
  have width : (AbiType.mk (.struct (Specimen.doubled 59)) .lp64).width = bufferBound := size
  refine ⟨Specimen.doubled_computed (by decide), size, ?_, ?_, ?_⟩
  · rw [NativeType.resolve, if_pos (Specimen.platform_doubled 59)]
  · rw [executeLift, executeLiftWithin_eq_error_iff.mpr ⟨rfl, width.ge, rfl⟩, width]
  · have beyond : (View.heap 0 16 true).size < 0 + (AbiType.mk (.struct (Specimen.doubled 59)) .lp64).width := by
      rw [width]
      decide
    rw [lift_beyond rfl beyond, width]
    rfl

/-- A record of 32 bytes is found not to fit into a view of sixteen, once there is a buffer for it. -/
theorem execution_decided_record : (View.heap 0 16 true).Obtained ∧
    executeLift ⟨.struct Specimen.record, .llp64⟩ (.heap 0 16 true) 0 .initial =
      .ok (.error (.memory (.outOfBounds 0 32 16))) ∧
    executeLiftWithin ⟨.struct Specimen.record, .llp64⟩ 17 (.heap 0 16 true) 0 .initial = .error (.buffer 32) := by
  have obtained : (View.heap 0 16 true).Obtained := .heap 0 16 true
  obtain ⟨_, _, _, _, _, bounded, _, requested⟩ :=
    execution_decided ⟨.struct Specimen.record, .llp64⟩ obtained 0 .initial
  exact ⟨obtained, (bounded (by decide)).2 (by decide), requested rfl (by decide)⟩

end AbiType
end Interop
