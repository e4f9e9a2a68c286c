import Interop.Proofs.Marshal.Lowering
import Interop.Proofs.Marshal.Registers

/-! Marshalling on the host, where no native width is narrower than its managed form.
Main statement: `exact_on_host`, that every value of a type's form lies in memory without loss. -/
namespace Interop

namespace CScalar

private theorem fits_managed {own : CScalar} {value : Value} {integer : Int} {managed : Nat}
    (kind : value.kind = own.kind) (number : value.toInt? = some integer) (sized : own.kind.width? = some managed) :
    fits integer managed own.abiClass = true := by
  cases value with
  | f32 | f64 | struct => cases number
  | i8 value | i16 value | i32 value | i64 value =>
    have lower := value.le_toInt
    have upper := value.toInt_lt
    cases number
    cases own <;> cases kind <;> cases sized <;> exact decide_eq_true ⟨lower, upper⟩
  | u8 value | u16 value | u32 value | u64 value =>
    have upper := value.toNat_lt
    cases number
    cases own <;> cases kind <;> cases sized <;> simp [fits, abiClass] <;> omega
  | address value =>
    have upper : value.toNat < 2 ^ 64 := value.bits.toNat_lt
    cases number
    cases own <;> cases kind
    cases sized
    simp [fits, abiClass]
    omega

theorem width_host (own : CScalar) : own.kind.width? = some (own.width .host) := by
  cases own <;> rfl

end CScalar
namespace AbiType

/-- On the host every number of a type's kind is in the native range. -/
theorem holds_on_host {type : AbiType} (host : type.platform = .host) {value : Value}
    (admitted : type.Admits value) : type.Holds value := by
  obtain ⟨native, platform⟩ := type
  cases host
  cases native with
  | struct layout =>
    obtain ⟨bytes, rfl, _⟩ := admits_struct.mp admitted
    exact holds_of_no_number rfl
  | scalar own =>
    cases number : value.toInt? with
    | none => exact holds_of_no_number number
    | some integer =>
      exact (holds_iff_fits number).mpr (CScalar.fits_managed (admits_scalar.mp admitted) number own.width_host)

theorem exact_on_host {type : AbiType} (host : type.platform = .host) {value : Value}
    (admitted : type.Admits value) (policy : Narrowing) : type.Exact policy value := by
  have holds := holds_on_host host admitted
  rcases type.nativeBytes_cases policy value with ⟨_, bytes, converted⟩ | ⟨_, _, unconvertible⟩
  · obtain ⟨_, result, lifted, reduced, _⟩ := valueOf_nativeBytes converted
    exact ⟨bytes, converted, eq_of_holds admitted holds reduced ▸ lifted⟩
  · exact absurd ⟨admitted, .inl holds⟩ unconvertible.not_converts

theorem forall₂_exact_on_host {types : List AbiType} {values : List Value}
    (hosted : ∀ type ∈ types, type.platform = .host) (admitted : List.Forall₂ Admits types values)
    (policy : Narrowing) : List.Forall₂ (·.Exact policy ·) types values := by
  induction admitted with
  | nil => exact .nil
  | cons first _ ih =>
    obtain ⟨host, rest⟩ := List.forall_mem_cons.mp hosted
    exact .cons (exact_on_host host first policy) (ih rest)

end AbiType
end Interop
