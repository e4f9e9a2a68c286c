import Interop.Proofs.Call.Transparency

/-! Results in a buffer: some as a whole register, and some as they lie in memory.
Main statement: `resultPaths_agree`, that on the host a value is the same whichever way it goes. -/
namespace Interop
open Outcome

private theorem Bytes.toNat_append (first rest : List UInt8) :
    toNat (first ++ rest) = toNat first + 256 ^ first.length * toNat rest := by
  induction first with
  | nil => simp [toNat]
  | cons byte first ih =>
    rw [List.cons_append, toNat, ih, toNat, List.length_cons, Nat.pow_succ', Nat.mul_add, Nat.mul_assoc, Nat.add_assoc]

namespace AbiType

private theorem fillsRegister_iff {type : AbiType} : type.fillsRegister = true ↔
    type.abiClass ≠ .float ∧ type.abiClass ≠ .struct ∧ type.width < Signature.registerWidth := by
  unfold fillsRegister
  cases type.abiClass <;> simp

theorem width_le_resultWidth (type : AbiType) : type.width ≤ type.resultWidth := by
  cases fills : type.fillsRegister with
  | true =>
    rw [resultWidth_of_fills fills]
    exact Nat.le_of_lt (fillsRegister_iff.mp fills).2.2
  | false => rw [resultWidth_of_not_fills fills]

private theorem toNat_lowBits_ofNat (own : CScalar) (platform : Platform) (value : Nat) :
    (lowBits ⟨.scalar own, platform⟩ (UInt64.ofNat value)).toNat = value % 256 ^ own.width platform := by
  have divides : byteRange (own.width platform) ∣ 2 ^ 64 :=
    Nat.pow_dvd_pow 2 (Nat.mul_le_mul_left 8 (own.width_le_register platform))
  rw [toNat_lowBits, width_scalar, UInt64.toNat_ofNat', Nat.mod_mod_of_dvd _ divides, byteRange, Nat.pow_mul]

/-- Of the bytes of a register only the first ones count, and there are as many as the type takes in memory. -/
theorem valueOfResult_read (type : AbiType) (start : Nat) (store : Store) :
    type.valueOfResult (store.read start type.resultWidth) = type.valueOfBytes (store.read start type.width) := by
  cases fills : type.fillsRegister with
  | false =>
    rw [valueOfResult, fills, resultWidth_of_not_fills fills]
    rfl
  | true =>
    have narrow := (fillsRegister_iff.mp fills).2.2
    obtain ⟨own, platform, rfl⟩ := scalar_of_fills fills
    rw [width_scalar] at narrow ⊢
    have split : Signature.registerWidth = own.width platform + (Signature.registerWidth - own.width platform) := by
      omega
    have low : lowBits ⟨.scalar own, platform⟩
          (UInt64.ofNat (Bytes.toNat (store.read start Signature.registerWidth))) =
        lowBits ⟨.scalar own, platform⟩ (UInt64.ofNat (Bytes.toNat (store.read start (own.width platform)))) := by
      apply BitVec.eq_of_toNat_eq
      rw [toNat_lowBits_ofNat, toNat_lowBits_ofNat, split, Store.read_add, Bytes.toNat_append, Store.length_read,
        Nat.add_mul_mod_self_left]
    rw [valueOfResult, if_pos fills, resultWidth_of_fills fills, liftBits_congr low]
    rfl

end AbiType

namespace Signature

variable {signature : Signature} {type : AbiType} {buffer : View}

/-- The signatures that there are on a platform, under a policy of choice. -/
inductive Described (platform : Platform) : Signature → Prop
  | resolve {params : List NativeType} {result : Option NativeType} {signature : Signature}
    (resolved : Signature.resolve params result platform = .ok signature) : Described platform signature
  | withNarrowing {signature : Signature} (described : Described platform signature) (policy : Narrowing) :
    Described platform (signature.withNarrowing policy)

theorem Described.platform_of_result {platform : Platform} (described : Described platform signature)
    (declared : signature.result = some type) : type.platform = platform := by
  induction described with
  | resolve resolved => exact (platform_of_resolve resolved).2 type declared
  | withNarrowing _ _ ih => exact ih declared

private theorem liftResult_eq_lift (declared : signature.result = some type) (readable : buffer.readable = true)
    (room : max type.width registerWidth ≤ buffer.size) (store : Store) :
    ∃ value, type.lift buffer 0 store = .ok value ∧ signature.liftResult buffer store = .ok (some value) := by
  have inside : 0 + type.width ≤ buffer.size := by omega
  obtain ⟨value, stands⟩ := type.valueOfBytes_eq_ok (store.read buffer.start type.width)
  refine ⟨value, AbiType.lift_eq_ok readable inside stands, ?_⟩
  rw [liftResult_eq declared readable (type.resultWidth_le.trans room), AbiType.valueOfResult_read, stands]
  rfl

private theorem lowerResult_cases (declared : signature.result = some type) (host : type.platform = .host)
    (obtained : buffer.Obtained) (writable : buffer.writable = true)
    (room : max type.width registerWidth ≤ buffer.size) (value : Value) (store : Store) :
    (type.Admits value ∧ ∃ after, signature.lowerResult buffer value store = .ok () after ∧
      signature.liftResult buffer after = .ok (some value)) ∨
    ¬ type.Admits value ∧ ∃ error, signature.lowerResult buffer value store = .error error store := by
  have space := type.resultWidth_le.trans room
  by_cases admitted : type.Admits value
  · obtain ⟨bytes, stored, written⟩ := lowerResult_admitted declared host admitted writable space store
    refine .inl ⟨admitted, _, written, ?_⟩
    rw [liftResult_eq declared obtained.readable space, ← stored.length, Store.read_write, stored.stands]
    rfl
  · exact .inr ⟨admitted, lowerResult_other declared admitted buffer store⟩

private theorem lower_eq_ok_iff_on_host (host : type.platform = .host) (policy : Narrowing)
    (writable : buffer.writable = true) (room : type.width ≤ buffer.size) (value : Value) (store : Store) :
    (∃ after, type.lower policy buffer 0 value store = .ok () after) ↔ type.Admits value := by
  obtain ⟨converts, _, _, _, _, _, written⟩ | ⟨error, refused, refuses⟩ := type.lower_cases policy buffer 0 value store
  · exact iff_of_true ⟨_, written⟩ converts.1
  · refine iff_of_false ?_ ?_
    · rintro ⟨after, written⟩
      cases refused.symm.trans written
    · intro admitted
      exact refuses.not_accepted ⟨⟨admitted, .inl (AbiType.holds_on_host host admitted)⟩, writable, by omega⟩

private theorem get_of_lowerResult (declared : signature.result = some type) (fills : type.fillsRegister = true)
    (readable : buffer.readable = true) {value : Value} {store after : Store}
    (stored : signature.lowerResult buffer value store = .ok () after) :
    ∃ register, signature.lowerResultBits value = .ok register ∧
      buffer.get .usize 0 .native after = .ok register.toBitVec := by
  simp only [lowerResult, declared, fills, if_true] at stored
  cases lowered : signature.lowerResultBits value with
  | error error =>
    rw [lowered] at stored
    cases stored
  | ok register =>
    rw [lowered] at stored
    have whole : BitVec.ofNat (8 * ScalarType.width .usize) register.toNat = register.toBitVec :=
      BitVec.eq_of_toNat_eq ((BitVec.toNat_ofNat _ _).trans (Nat.mod_eq_of_lt register.toNat_lt))
    refine ⟨register, rfl, ?_⟩
    rw [← whole]
    exact View.get_of_set readable (ok_of_adaptExcept stored)

/-- On the host a result in a buffer is the value that lies there as its type. It can be stored exactly if it could be
written there as its type, and then it is read again as it was; narrower than a register, it fills one. What cannot be
stored leaves the buffer as it is. -/
theorem resultPaths_agree (described : signature.Described .host) (declared : signature.result = some type)
    (obtained : buffer.Obtained) (writable : buffer.writable = true)
    (room : max type.width registerWidth ≤ buffer.size) (store : Store) :
    (∃ value, type.lift buffer 0 store = .ok value ∧ signature.liftResult buffer store = .ok (some value)) ∧
    ∀ value,
      (∀ (other : View) elsewhere, other.writable = true → other.size = buffer.size →
        ((∃ after, signature.lowerResult buffer value store = .ok () after) ↔
          ∃ after, type.lower signature.narrowing other 0 value elsewhere = .ok () after)) ∧
      (∀ after, signature.lowerResult buffer value store = .ok () after →
        signature.liftResult buffer after = .ok (some value) ∧
        (type.abiClass ≠ .float → type.abiClass ≠ .struct → type.width < registerWidth →
          ∃ register, signature.lowerResultBits value = .ok register ∧
            buffer.get .usize 0 .native after = .ok register.toBitVec)) ∧
      ∀ error after, signature.lowerResult buffer value store = .error error after → after = store := by
  have host := described.platform_of_result declared
  refine ⟨liftResult_eq_lift declared obtained.readable room store, ?_⟩
  intro value
  have outcomes := lowerResult_cases declared host obtained writable room value store
  refine ⟨?_, ?_, ?_⟩
  · intro other elsewhere allowed same
    have space : type.width ≤ other.size := by omega
    rw [lower_eq_ok_iff_on_host host signature.narrowing allowed space]
    obtain ⟨admitted, after, stored, _⟩ | ⟨refused, error, failed⟩ := outcomes
    · exact iff_of_true ⟨after, stored⟩ admitted
    · refine iff_of_false ?_ refused
      rintro ⟨after, stored⟩
      cases failed.symm.trans stored
  · intro after stored
    constructor
    · obtain ⟨_, _, same, lifted⟩ | ⟨_, _, failed⟩ := outcomes
      · cases same.symm.trans stored
        exact lifted
      · cases failed.symm.trans stored
    · intro float struct narrow
      exact get_of_lowerResult declared (AbiType.fillsRegister_iff.mpr ⟨float, struct, narrow⟩) obtained.readable stored
  · intro error after failed
    obtain ⟨_, _, stored, _⟩ | ⟨_, _, same⟩ := outcomes
    · cases stored.symm.trans failed
    · cases same.symm.trans failed
      rfl

/-- A negative short fills the eight bytes that it is returned in, whatever they held before. -/
theorem resultPaths_agree_short :
    Described .host ⟨[], some ⟨.scalar .i16, .host⟩, .host, .checked⟩ ∧ (View.heap 0 8 true).Obtained ∧
      ∃ after, lowerResult ⟨[], some ⟨.scalar .i16, .host⟩, .host, .checked⟩ (.heap 0 8 true) (.i16 (-2))
          (Store.initial.fill 0 8 0xaa) = .ok () after ∧
        liftResult ⟨[], some ⟨.scalar .i16, .host⟩, .host, .checked⟩ (.heap 0 8 true) after = .ok (some (.i16 (-2))) ∧
        (View.heap 0 8 true).get .usize 0 .native after = .ok 0xfffffffffffffffe := by
  have resolved : Signature.resolve [] (some (.scalar .i16)) .host =
      .ok ⟨[], some ⟨.scalar .i16, .host⟩, .host, .checked⟩ := rfl
  have obtained : (View.heap 0 8 true).Obtained := .heap 0 8 true
  obtain ⟨_, agree⟩ := resultPaths_agree (.resolve resolved) rfl obtained rfl (by decide) (Store.initial.fill 0 8 0xaa)
  obtain ⟨accepted, stores, _⟩ := agree (.i16 (-2))
  obtain ⟨after, stored⟩ := (accepted (.heap 0 8 true) .initial rfl rfl).mpr ⟨_, rfl⟩
  obtain ⟨lifted, word⟩ := stores after stored
  obtain ⟨register, widened, found⟩ := word (by decide) (by decide) (by decide)
  have ones : lowerResultBits ⟨[], some ⟨.scalar .i16, .host⟩, .host, .checked⟩ (.i16 (-2)) =
      .ok 0xfffffffffffffffe := rfl
  cases widened.symm.trans ones
  exact ⟨.resolve resolved, obtained, after, stored, lifted, found⟩

end Signature
end Interop
