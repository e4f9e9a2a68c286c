import Interop.Proofs.CType.Emptiness
import Interop.Proofs.Marshal.Host
import Mathlib.Tactic.IntervalCases

/-! What a type is like on a platform that it resolves for: its alignment, its width, and how its values are widened.
Main statement: `resolution_decided`, about every type and the types in it at every depth. -/
namespace Interop
open Interop.Alignment

private theorem Alignment.Natural.mem {alignment : Nat} (natural : Natural alignment) : alignment ∈ [1, 2, 4, 8] := by
  obtain ⟨⟨exponent, rfl⟩, bound⟩ := natural
  have small : exponent ≤ 3 := (Nat.pow_le_pow_iff_right (by decide)).mp bound
  interval_cases exponent <;> simp

namespace AbiType

/-- A value has fewer bytes in native memory than in its managed form, which for a struct has no width. -/
def Narrow (type : AbiType) : Prop :=
  ∃ managed, type.kind.width? = some managed ∧ type.width < managed

/-- How the values of a type are widened, by its width and its class. -/
inductive Widens (type : AbiType) : Extension → Prop
  | sign (narrow : type.Narrow) (signed : type.abiClass = .signed) : Widens type .sign
  | zero (narrow : type.Narrow) (unsigned : type.abiClass = .unsigned ∨ type.abiClass = .address) : Widens type .zero
  | none (wide : ¬ type.Narrow) : Widens type .none

end AbiType

/-! ## Widening

The managed width of a scalar is its width on the host, which is the largest that it has on any platform. -/

namespace CScalar

private theorem width_le_host (own : CScalar) (platform : Platform) : own.width platform ≤ own.width .host :=
  width_le_managed own.width_host platform

private theorem narrow_iff {own : CScalar} {platform : Platform} :
    AbiType.Narrow ⟨.scalar own, platform⟩ ↔ own.kind.width? ≠ some (own.width platform) := by
  have bound := own.width_le_host platform
  have managed : (AbiType.mk (.scalar own) platform).kind.width? = some (own.width .host) := own.width_host
  simp only [AbiType.Narrow, managed, own.width_host, AbiType.width_scalar, Option.some.injEq, exists_eq_left', ne_eq]
  omega

private theorem widens (own : CScalar) (platform : Platform) :
    AbiType.Widens ⟨.scalar own, platform⟩ (own.extension platform) := by
  by_cases same : own.kind.width? = some (own.width platform)
  · rw [extension, if_pos same]
    exact .none fun narrow => narrow_iff.mp narrow same
  · have narrow := narrow_iff.mpr same
    rw [extension, if_neg same]
    cases shape : own.abiClass with
    | signed => exact .sign narrow shape
    | unsigned => exact .zero narrow (.inl shape)
    | address => exact .zero narrow (.inr shape)
    | float =>
      -- A float takes the same bytes on every platform.
      rcases AbiType.mem_of_float shape with rfl | rfl <;> exact absurd rfl same
    | struct => exact absurd shape own.abiClass_ne_struct

end CScalar

namespace AbiType

private theorem widens (type : AbiType) : type.Widens type.extension := by
  obtain ⟨native, platform⟩ := type
  cases native with
  | scalar own => exact own.widens platform
  | struct layout =>
    apply Widens.none
    rintro ⟨_, sized, _⟩
    cases sized

namespace Widens

variable {type : AbiType} {extension : Extension} (widens : type.Widens extension)
include widens

private theorem sign_iff : extension = .sign ↔ type.Narrow ∧ type.abiClass = .signed := by
  cases widens with
  | sign narrow signed => simp [narrow, signed]
  | zero _ unsigned => rcases unsigned with shape | shape <;> simp [shape]
  | none wide => simp [wide]

private theorem zero_iff :
    extension = .zero ↔ type.Narrow ∧ (type.abiClass = .unsigned ∨ type.abiClass = .address) := by
  cases widens with
  | sign _ signed => simp [signed]
  | zero narrow unsigned => simp [narrow, unsigned]
  | none wide => simp [wide]

private theorem none_iff : extension = .none ↔ ¬ type.Narrow := by
  cases widens with
  | sign narrow _ | zero narrow _ => simp [narrow]
  | none wide => simp [wide]

end Widens

/-- What can be relied on of a resolved type, be it a scalar or a struct. -/
structure Regular (type : AbiType) : Prop where
  alignment : Natural type.alignment
  whole : type.alignment ∣ type.width
  scalar : ∀ own, type.native = .scalar own → type.width ∈ [1, 2, 4, 8] ∧
    ∃ managed, type.kind.width? = some managed ∧ type.width ≤ managed
  signed : type.extension = .sign ↔ type.Narrow ∧ type.abiClass = .signed
  zeroed : type.extension = .zero ↔ type.Narrow ∧ (type.abiClass = .unsigned ∨ type.abiClass = .address)
  plain : type.extension = .none ↔ ¬ type.Narrow

end AbiType

private theorem NativeType.Computed.regular {type : NativeType} (computed : type.Computed) (platform : Platform) :
    AbiType.Regular ⟨type, platform⟩ where
  alignment := computed.alignment_natural platform
  whole := computed.alignment_dvd_width platform
  scalar := by
    rintro own rfl
    exact ⟨(own.width_natural platform).mem, _, own.width_host, own.width_le_host platform⟩
  signed := (AbiType.widens _).sign_iff
  zeroed := (AbiType.widens _).zero_iff
  plain := (AbiType.widens _).none_iff

/-! ## Types in a type -/

private theorem AbiType.Contains.resolved {outer inner : AbiType} (contains : outer.Contains inner)
    (computed : outer.native.Computed) {platform : Platform} (home : outer.native.resolve platform = .ok outer) :
    inner.native.Computed ∧ inner.native.resolve platform = .ok inner := by
  -- A struct around another one was laid out for the same platform, so the steps down stay on it.
  induction contains with
  | self type => exact ⟨computed, home⟩
  | @field layout _ field inner member rest ih =>
    have keeps := StructLayout.Computed.keeps computed member
    obtain ⟨_, same⟩ := NativeType.resolve_eq_ok_iff.mp home
    obtain rfl := same layout rfl
    exact ih keeps.computed keeps.embeds.resolve

/-- A type is refused for one reason only, that it is a struct which was laid out for another platform. Otherwise it is
resolved, and so are the types in it, however deep: each is aligned to one, two, four or eight bytes, takes a whole
number of its alignments, and is widened exactly if its managed form is wider, by its sign or with zeros. -/
theorem NativeType.resolution_decided (type : NativeType) (platform : Platform) :
    (∀ reason, type.resolve platform = .error reason ↔ ∃ layout, type = .struct layout ∧
      layout.platform ≠ platform ∧ reason = .platformMismatch layout.name layout.platform platform) ∧
    (∀ abi, type.resolve platform = .ok abi ↔
      abi = ⟨type, platform⟩ ∧ ∀ layout, type = .struct layout → layout.platform = platform) ∧
    (type.Computed → ∀ abi, type.resolve platform = .ok abi → ∀ inner, abi.Contains inner →
      inner.native.resolve platform = .ok inner ∧ inner.Regular) := by
  refine ⟨fun _ => resolve_eq_error_iff, fun _ => resolve_eq_ok_iff, ?_⟩
  intro computed abi resolved inner contains
  obtain ⟨rfl, _⟩ := resolve_eq_ok_iff.mp resolved
  obtain ⟨within, here⟩ := contains.resolved computed resolved
  obtain ⟨same, _⟩ := resolve_eq_ok_iff.mp here
  refine ⟨here, ?_⟩
  rw [same]
  exact within.regular platform

/-- A record holds a float two levels down and a long of four bytes, and it is refused on a platform with wider ones. -/
theorem NativeType.resolution_decided_record :
    (NativeType.struct Specimen.record).Computed ∧
    (NativeType.struct Specimen.record).resolve .lp64 = .error (.platformMismatch "record" .llp64 .lp64) ∧
    (NativeType.struct Specimen.record).resolve .llp64 = .ok ⟨.struct Specimen.record, .llp64⟩ ∧
    AbiType.Contains ⟨.struct Specimen.record, .llp64⟩ ⟨.scalar .f64, .llp64⟩ ∧
    AbiType.Contains ⟨.struct Specimen.record, .llp64⟩ ⟨.scalar .long, .llp64⟩ ∧
    8 ∣ Specimen.record.size ∧ AbiType.extension ⟨.scalar .f64, .llp64⟩ = .none ∧
      AbiType.extension ⟨.scalar .long, .llp64⟩ = .sign := by
  obtain ⟨refused, _⟩ := resolution_decided (.struct Specimen.record) .lp64
  obtain ⟨_, accepted, inside⟩ := resolution_decided (.struct Specimen.record) .llp64
  have computed : (NativeType.struct Specimen.record).Computed := StructLayout.record_computed
  have resolved := (accepted _).mpr ⟨rfl, by rintro _ ⟨⟩; rfl⟩
  have axis : ⟨"axis", 8, .struct Specimen.axis⟩ ∈ Specimen.record.fields := by simp [Specimen.record]
  have value : ⟨"value", 8, .scalar .f64⟩ ∈ Specimen.axis.fields := by simp [Specimen.axis]
  have count : ⟨"count", 24, .scalar .long⟩ ∈ Specimen.record.fields := by simp [Specimen.record]
  have deep : AbiType.Contains ⟨.struct Specimen.record, .llp64⟩ ⟨.scalar .f64, .llp64⟩ :=
    .field axis (.field value (.self _))
  have short : AbiType.Contains ⟨.struct Specimen.record, .llp64⟩ ⟨.scalar .long, .llp64⟩ :=
    .field count (.self _)
  obtain ⟨_, whole⟩ := inside computed _ resolved _ (.self _)
  obtain ⟨_, float⟩ := inside computed _ resolved _ deep
  obtain ⟨_, long⟩ := inside computed _ resolved _ short
  refine ⟨computed, (refused _).mpr ⟨_, rfl, by decide, rfl⟩, resolved, deep, short, whole.whole, ?_, ?_⟩
  · apply float.plain.mpr
    rintro ⟨managed, ⟨⟩, below⟩
    exact absurd below (by decide)
  · exact long.signed.mpr ⟨⟨8, rfl, by decide⟩, rfl⟩

end Interop
