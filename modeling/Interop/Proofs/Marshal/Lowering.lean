import Interop.Proofs.Marshal.NativeBytes

/-! Lowering through memory: which values are accepted, what is reported of the others, and what is written.
Main statement: `lower_atomic`, for every type and every view. -/
namespace Interop
open Outcome

namespace AbiType

/-- The value is of the type's managed kind and, for a struct, of its length. -/
def Admits (type : AbiType) (value : Value) : Prop :=
  value.kind = type.kind ∧ ∀ bytes, value = .struct bytes → bytes.length = type.width

def Holds (type : AbiType) (value : Value) : Prop :=
  ∀ integer, value.toInt? = some integer →
    match type.abiClass with
    | .signed => -2 ^ (8 * type.width - 1) ≤ integer ∧ integer < 2 ^ (8 * type.width - 1)
    | _ => 0 ≤ integer ∧ integer < 2 ^ (8 * type.width)

def Converts (type : AbiType) (policy : Narrowing) (value : Value) : Prop :=
  type.Admits value ∧ (type.Holds value ∨ policy = .wrap)

inductive Unconvertible (type : AbiType) (policy : Narrowing) (value : Value) : MarshalError → Prop
  | mismatch (other : ¬ type.Admits value) (expected got : String) :
    Unconvertible type policy value (.typeMismatch expected got)
  | range (admitted : type.Admits value) (checked : policy = .checked) (outside : ¬ type.Holds value)
      {integer : Int} (number : value.toInt? = some integer) :
    Unconvertible type policy value (.outOfRange integer type.text type.width)

/-- Why lowering is refused: the conversion comes before the permission, and the permission before the bounds. -/
inductive Refuses (type : AbiType) (policy : Narrowing) (view : View) (offset : Nat) (value : Value) :
    MarshalError → Prop
  | conversion {error : MarshalError} (unconvertible : type.Unconvertible policy value error) :
    Refuses type policy view offset value error
  | permission (converts : type.Converts policy value) (locked : view.writable = false) :
    Refuses type policy view offset value (.memory .notWritable)
  | bounds (converts : type.Converts policy value) (allowed : view.writable = true)
      (beyond : view.size < offset + type.width) :
    Refuses type policy view offset value (.memory (.outOfBounds offset type.width view.size))

theorem admits_scalar {own : CScalar} {platform : Platform} {value : Value} :
    Admits ⟨.scalar own, platform⟩ value ↔ value.kind = own.kind := by
  constructor
  · exact And.left
  · intro kind
    refine ⟨kind, ?_⟩
    rintro bytes rfl
    cases own <;> cases kind

theorem admits_struct {layout : StructLayout} {platform : Platform} {value : Value} :
    Admits ⟨.struct layout, platform⟩ value ↔ ∃ bytes, value = .struct bytes ∧ bytes.length = layout.size := by
  constructor
  · rintro ⟨kind, length⟩
    cases value <;> cases kind
    exact ⟨_, rfl, length _ rfl⟩
  · rintro ⟨bytes, rfl, length⟩
    refine ⟨rfl, ?_⟩
    rintro _ ⟨⟩
    exact length

theorem holds_iff_fits {type : AbiType} {value : Value} {integer : Int} (number : value.toInt? = some integer) :
    type.Holds value ↔ fits integer type.width type.abiClass = true := by
  unfold Holds fits
  rw [number]
  cases type.abiClass <;> simp

theorem holds_of_no_number {type : AbiType} {value : Value} (none : value.toInt? = none) : type.Holds value := by
  intro integer number
  cases none.symm.trans number

theorem eq_of_holds {type : AbiType} {value result : Value} (admitted : type.Admits value)
    (holds : type.Holds value) (reduced : value.ReducesTo type result) : result = value := by
  cases number : value.toInt? with
  | none => exact reduced.rest number
  | some integer =>
    obtain ⟨native, platform⟩ := type
    cases native with
    | struct layout =>
      obtain ⟨bytes, rfl, _⟩ := admits_struct.mp admitted
      cases number
    | scalar own =>
      have positive : 0 < (AbiType.mk (.scalar own) platform).width := own.width_pos platform
      have inside := (holds_iff_fits number).mp holds
      have reading := reduced.number
      rw [number, Option.map_some, AbiClass.reduce_of_fits positive inside] at reading
      exact Value.eq_of_toInt? reduced.kind reading number

theorem Unconvertible.not_converts {type : AbiType} {policy : Narrowing} {value : Value} {error : MarshalError}
    (unconvertible : type.Unconvertible policy value error) : ¬ type.Converts policy value := by
  rintro ⟨admitted, accepted⟩
  cases unconvertible with
  | mismatch other => exact other admitted
  | range _ checked outside _ =>
    rcases accepted with holds | wrap
    · exact outside holds
    · cases checked.symm.trans wrap

theorem nativeBytes_of_kind {own : CScalar} {platform : Platform} {policy : Narrowing} {value : Value}
    (kind : value.kind = own.kind) : nativeBytes ⟨.scalar own, platform⟩ policy value =
      (lowerBits ⟨.scalar own, platform⟩ policy value).map fun bits =>
        Bytes.ofNat (own.width platform) bits.toNat := by
  cases value <;> first | rfl | (cases own <;> cases kind)

private theorem nativeBytes_of_other {own : CScalar} {platform : Platform} {policy : Narrowing} {value : Value}
    (other : value.kind ≠ own.kind) : nativeBytes ⟨.scalar own, platform⟩ policy value =
      .error (mismatch ⟨.scalar own, platform⟩ value) := by
  have refused : lowerBits ⟨.scalar own, platform⟩ policy value = .error (mismatch ⟨.scalar own, platform⟩ value) :=
    if_pos other
  cases value <;> first | rfl | (simp only [nativeBytes, refused]; rfl)

theorem nativeBytes_cases (type : AbiType) (policy : Narrowing) (value : Value) :
    (type.Converts policy value ∧ ∃ bytes, type.nativeBytes policy value = .ok bytes) ∨
      ∃ error, type.nativeBytes policy value = .error error ∧ type.Unconvertible policy value error := by
  obtain ⟨native, platform⟩ := type
  cases native with
  | struct layout =>
    by_cases admitted : Admits ⟨.struct layout, platform⟩ value
    · obtain ⟨bytes, rfl, length⟩ := admits_struct.mp admitted
      exact .inl ⟨⟨admitted, .inl (holds_of_no_number rfl)⟩, bytes, if_pos length⟩
    · cases value
      case struct bytes =>
        have other : bytes.length ≠ layout.size := fun length => admitted (admits_struct.mpr ⟨bytes, rfl, length⟩)
        exact .inr ⟨_, if_neg other, .mismatch admitted _ _⟩
      all_goals exact .inr ⟨_, rfl, .mismatch admitted _ _⟩
  | scalar own =>
    by_cases kind : value.kind = own.kind
    · have admitted : Admits ⟨.scalar own, platform⟩ value := admits_scalar.mpr kind
      rw [nativeBytes_of_kind kind]
      cases number : value.toInt? with
      | none =>
        refine .inl ⟨⟨admitted, .inl (holds_of_no_number number)⟩, ?_⟩
        cases value <;> cases number <;> first | exact ⟨_, rfl⟩ | (cases own <;> cases kind <;> exact ⟨_, rfl⟩)
      | some integer =>
        rw [lowerBits_eq_ite kind number]
        split
        next refused =>
          obtain ⟨checked, outside⟩ := refused
          refine .inr ⟨_, rfl, .range admitted checked ?_ number⟩
          intro holds
          cases outside.symm.trans ((holds_iff_fits number).mp holds)
        next accepted =>
          refine .inl ⟨⟨admitted, ?_⟩, _, rfl⟩
          cases policy with
          | wrap => exact .inr rfl
          | checked =>
            refine .inl ((holds_iff_fits number).mpr ?_)
            exact Bool.of_not_eq_false fun out => accepted ⟨rfl, out⟩
    · exact .inr ⟨_, nativeBytes_of_other kind, .mismatch (fun admitted => kind admitted.1) _ _⟩

/-- Lowering writes the native bytes of a value at the offset, or it changes nothing. -/
theorem lower_cases (type : AbiType) (policy : Narrowing) (view : View) (offset : Nat) (value : Value)
    (store : Store) :
    (type.Converts policy value ∧ view.writable = true ∧ offset + type.width ≤ view.size ∧
      ∃ bytes, type.nativeBytes policy value = .ok bytes ∧ bytes.length = type.width ∧
        type.lower policy view offset value store = .ok () (store.write (view.start + offset) bytes)) ∨
    ∃ error, type.lower policy view offset value store = .error error store ∧
      type.Refuses policy view offset value error := by
  rw [lower_eq]
  rcases type.nativeBytes_cases policy value with ⟨converts, bytes, converted⟩ | ⟨error, failed, unconvertible⟩
  · have length := (valueOf_nativeBytes converted).1
    rw [converted]
    dsimp only
    rcases view.writeBytes_cases offset bytes store with ⟨allowed, inside, written⟩ | ⟨reason, located, refused⟩
    · refine .inl ⟨converts, allowed, length ▸ inside, bytes, rfl, length, ?_⟩
      simp only [EStateM.adaptExcept, written]
    · refine .inr ⟨.memory reason, by simp only [EStateM.adaptExcept, refused], ?_⟩
      rcases View.locateWrite_eq_error located with ⟨locked, rfl⟩ | ⟨allowed, beyond, rfl⟩
      · exact .permission converts locked
      · rw [length] at beyond ⊢
        exact .bounds converts allowed beyond
  · rw [failed]
    exact .inr ⟨error, rfl, .conversion unconvertible⟩

theorem Refuses.not_accepted {type : AbiType} {policy : Narrowing} {view : View} {offset : Nat} {value : Value}
    {error : MarshalError} (refuses : type.Refuses policy view offset value error) :
    ¬ (type.Converts policy value ∧ view.writable = true ∧ offset + type.width ≤ view.size) := by
  rintro ⟨converts, allowed, inside⟩
  cases refuses with
  | conversion unconvertible => exact unconvertible.not_converts converts
  | permission _ locked => cases locked.symm.trans allowed
  | bounds _ _ beyond => omega

private theorem Refuses.ne_unsupported {type : AbiType} {policy : Narrowing} {view : View} {offset : Nat}
    {value : Value} {error : MarshalError} (refuses : type.Refuses policy view offset value error) {width : Nat} :
    error ≠ .unsupportedWidth width := by
  -- Every scalar has a width that memory can carry, so no refusal is about the width.
  rintro rfl
  cases refuses with
  | conversion unconvertible => cases unconvertible

theorem valueOfBytes_eq_ok (type : AbiType) (bytes : List UInt8) : ∃ value, type.valueOfBytes bytes = .ok value := by
  obtain ⟨native, platform⟩ := type
  cases native <;> exact ⟨_, rfl⟩

theorem lift_eq_error {type : AbiType} {view : View} {offset : Nat} {store : Store} {error : MarshalError}
    (failed : type.lift view offset store = .error error) : ∃ reason, error = .memory reason := by
  rw [lift_eq] at failed
  split at failed
  next bytes _ =>
    obtain ⟨value, lifted⟩ := type.valueOfBytes_eq_ok bytes
    cases failed.symm.trans lifted
  next reason _ =>
    cases failed
    exact ⟨reason, rfl⟩

/-- Lowering succeeds exactly when the value converts and its bytes may be written where they go. It then replaces
those bytes and no others, so that lifting gives the value back as far as its width holds it; refused, it has changed
nothing and names the first condition that fails. -/
theorem lower_atomic (type : AbiType) (policy : Narrowing) {view : View} (obtained : view.Obtained) (offset : Nat)
    (value : Value) (store : Store) :
    ((∃ after, type.lower policy view offset value store = .ok () after) ↔
      type.Converts policy value ∧ view.writable = true ∧ offset + type.width ≤ view.size) ∧
    (∀ width, type.lift view offset store ≠ .error (.unsupportedWidth width) ∧
      ∀ after, type.lower policy view offset value store ≠ .error (.unsupportedWidth width) after) ∧
    match type.lower policy view offset value store with
    | .ok () after =>
      (∀ address, address < view.start + offset ∨ view.start + offset + type.width ≤ address →
        after.byteAt address = store.byteAt address) ∧
      ∃ result, type.lift view offset after = .ok result ∧ value.ReducesTo type result ∧
        (type.Holds value → result = value)
    | .error error after => after = store ∧ type.Refuses policy view offset value error := by
  refine ⟨?_, ?_, ?_⟩
  · rcases type.lower_cases policy view offset value store with
      ⟨converts, allowed, inside, _, _, _, written⟩ | ⟨_, refused, refuses⟩
    · exact iff_of_true ⟨_, written⟩ ⟨converts, allowed, inside⟩
    · refine iff_of_false ?_ refuses.not_accepted
      rintro ⟨after, written⟩
      cases refused.symm.trans written
  · intro width
    constructor
    · intro failed
      obtain ⟨_, other⟩ := lift_eq_error failed
      cases other
    · intro after failed
      rcases type.lower_cases policy view offset value store with ⟨_, _, _, _, _, _, written⟩ | ⟨error, refused, refuses⟩
      · cases written.symm.trans failed
      · cases refused.symm.trans failed
        exact refuses.ne_unsupported rfl
  · rcases type.lower_cases policy view offset value store with
      ⟨converts, _, inside, bytes, converted, length, written⟩ | ⟨error, refused, refuses⟩
    · rw [written]
      obtain ⟨_, result, lifted, reduced, _⟩ := valueOf_nativeBytes converted
      refine ⟨?_, result, ?_, reduced, fun holds => eq_of_holds converts.1 holds reduced⟩
      · intro address outside
        exact Store.byteAt_write_of_outside store _ bytes (length ▸ outside)
      · refine lift_eq_ok obtained.readable inside ?_
        rw [← length, Store.read_write]
        exact lifted
    · rw [refused]
      exact ⟨rfl, refuses⟩

/-- A long of four bytes is written over the upper half of eight and keeps the low bytes of a number that it cannot
hold. -/
theorem lower_atomic_long :
    (View.heap 0 8 true).Obtained ∧
      ∃ after, lower ⟨.scalar .long, .llp64⟩ .wrap (.heap 0 8 true) 4 (.i64 0xffffffffff) .initial = .ok () after ∧
        lift ⟨.scalar .long, .llp64⟩ (.heap 0 8 true) 4 after = .ok (.i64 (-1)) ∧
        ∀ address, address < 4 → after.byteAt address = Store.initial.byteAt address := by
  have obtained : (View.heap 0 8 true).Obtained := .heap 0 8 true
  obtain ⟨_, _, outcome⟩ := lower_atomic ⟨.scalar .long, .llp64⟩ .wrap obtained 4 (.i64 0xffffffffff) .initial
  obtain ⟨after, written⟩ : ∃ after,
      lower ⟨.scalar .long, .llp64⟩ .wrap (.heap 0 8 true) 4 (.i64 0xffffffffff) .initial = .ok () after := ⟨_, rfl⟩
  rw [written] at outcome
  obtain ⟨kept, result, lifted, reduced, _⟩ := outcome
  have low : result = .i64 (-1) := Value.eq_of_toInt? reduced.kind reduced.number (by decide)
  exact ⟨obtained, after, written, low ▸ lifted, fun address below => kept address (.inl below)⟩

end AbiType
end Interop
