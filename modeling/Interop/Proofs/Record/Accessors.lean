import Interop.Proofs.CType.Structure
import Interop.Proofs.Marshal.Lowering
import Interop.Proofs.Record.Lenses
import Interop.Record.Accessor

/-! Access to a field that was looked up beforehand, against access to it by its name.
Main statement: `accessor_mirrors`, about every field, managed type and instance. -/
namespace Interop
open Outcome

private theorem ManagedType.ofValue?_of_kind {managed : ManagedType} {value : Value}
    (kind : value.kind = managed.kind) :
    ∃ result, managed.ofValue? value = some result := by
  cases managed <;> cases value <;> first | exact ⟨_, rfl⟩ | cases kind

private theorem AbiType.kind_of_lift {type : AbiType} {view : View} {offset : Nat} {store : Store} {value : Value}
    (lifted : type.lift view offset store = .ok value) : value.kind = type.kind := by
  rw [lift_eq] at lifted
  split at lifted
  next bytes _ => exact kind_of_valueOfBytes lifted
  next => cases lifted

private theorem StructType.accessor_eq_ok_iff {type : StructType} {name : String} {managed : ManagedType}
    {accessor : FieldAccessor managed} : type.accessor name managed = .ok accessor ↔
      ∃ field, type.layout.field? name = some field ∧ field.type.kind = managed.kind ∧
        accessor = ⟨type.layout, field, type.narrowing⟩ := by
  rw [StructType.accessor, bind_eq_ok]
  constructor
  · rintro ⟨field, found, made⟩
    dsimp only at made
    split at made
    next kind => exact ⟨field, requireField_eq_ok_iff.mp found, kind, (Except.ok.inj made).symm⟩
    next => cases made
  · rintro ⟨field, found, kind, rfl⟩
    exact ⟨field, requireField_eq_ok_iff.mpr found, if_pos kind⟩

namespace FieldAccessor

variable {managed : ManagedType}

/-- The accessor does with an instance what access by name does, where the instance narrows as the accessor does.
A value that is lifted is one of the managed type, so reading fails for its bytes or not at all. -/
structure Mirrors (accessor : FieldAccessor managed) (name : String) (struct : Instance) : Prop where
  get : ∀ store,
    match struct.get name store with
    | .ok value => ∃ result, managed.ofValue? value = some result ∧ accessor.get struct store = .ok result
    | .error failure => ∃ reason, failure = .marshal (.memory reason) ∧
      accessor.get struct store = .error (.memory reason)
  set : ∀ value, (accessor.set struct value).adaptExcept .marshal =
    Instance.set ⟨struct.type.withNarrowing accessor.narrowing, struct.view⟩ name (managed.toValue value)

/-- The accessor reads nothing from an instance and writes nothing to it, because it is one of another struct. -/
structure Rejects (accessor : FieldAccessor managed) (struct : Instance) : Prop where
  get : ∀ store, accessor.get struct store =
    .error (.typeMismatch s!"struct {accessor.layout.name}" s!"struct {struct.type.name}")
  set : ∀ value store, accessor.set struct value store =
    .error (.typeMismatch s!"struct {accessor.layout.name}" s!"struct {struct.type.name}") store

variable {accessor : FieldAccessor managed} {struct : Instance}

private theorem check_of_eq (same : struct.type.layout = accessor.layout) : accessor.check struct = .ok () :=
  if_pos ((StructLayout.same_iff _ _).mpr same)

private theorem check_of_ne (other : struct.type.layout ≠ accessor.layout) :
    accessor.check struct = .error (.typeMismatch s!"struct {accessor.layout.name}" s!"struct {struct.type.name}") :=
  if_neg fun same => other ((StructLayout.same_iff _ _).mp same)

private theorem rejects_of_ne (other : struct.type.layout ≠ accessor.layout) : accessor.Rejects struct := by
  have refused := check_of_ne other
  constructor
  · intro store
    rw [get, refused, error_bind]
  · intro value store
    rw [set, refused]
    rfl

private theorem mirrors_of_eq {name : String} (same : struct.type.layout = accessor.layout)
    (found : accessor.layout.field? name = some accessor.field) (kind : accessor.field.type.kind = managed.kind) :
    accessor.Mirrors name struct := by
  have accepted := check_of_eq same
  have required : struct.type.requireField name = .ok accessor.field :=
    StructType.requireField_eq_ok_iff.mpr (same ▸ found)
  have abi : struct.type.abiOf accessor.field = accessor.abi := by rw [StructType.abiOf, same, FieldAccessor.abi]
  constructor
  · intro store
    rw [Instance.get, required, get, accepted, mapError_ok, ok_bind, ok_bind, abi]
    cases lifted : accessor.abi.lift struct.view accessor.field.offset store with
    | error reason =>
      obtain ⟨reason, rfl⟩ := AbiType.lift_eq_error lifted
      exact ⟨reason, rfl, rfl⟩
    | ok value =>
      obtain ⟨result, converted⟩ := ManagedType.ofValue?_of_kind ((AbiType.kind_of_lift lifted).trans kind)
      refine ⟨result, converted, ?_⟩
      rw [ok_bind, converted]
  · intro value
    have renamed : (struct.type.withNarrowing accessor.narrowing).requireField name = .ok accessor.field := required
    rw [set, accepted, Instance.set, renamed]
    dsimp only
    rw [show (struct.type.withNarrowing accessor.narrowing).abiOf accessor.field = accessor.abi from abi]
    rfl

end FieldAccessor

/-- There is an accessor exactly for a field that exists and is managed as the type asks for. With every instance of its
layout it does what access by name does, and with any other it does nothing. -/
theorem StructType.accessor_mirrors (type : StructType) (name : String) (managed : ManagedType) :
    ((∃ accessor, type.accessor name managed = .ok accessor) ↔
      ∃ field, type.layout.field? name = some field ∧ field.type.kind = managed.kind) ∧
    ∀ accessor, type.accessor name managed = .ok accessor → accessor.narrowing = type.narrowing ∧
      ∀ struct : Instance, (struct.type.layout = type.layout → accessor.Mirrors name struct) ∧
        (struct.type.layout ≠ type.layout → accessor.Rejects struct) := by
  constructor
  · constructor
    · rintro ⟨accessor, made⟩
      obtain ⟨field, found, kind, _⟩ := accessor_eq_ok_iff.mp made
      exact ⟨field, found, kind⟩
    · rintro ⟨field, found, kind⟩
      exact ⟨_, accessor_eq_ok_iff.mpr ⟨field, found, kind, rfl⟩⟩
  · intro accessor made
    obtain ⟨field, found, kind, rfl⟩ := accessor_eq_ok_iff.mp made
    refine ⟨rfl, fun struct => ⟨?_, ?_⟩⟩
    · intro same
      exact FieldAccessor.mirrors_of_eq same found kind
    · intro other
      exact FieldAccessor.rejects_of_ne other

/-- An accessor for the long of a record refuses a number that the record itself would have cut to four bytes. -/
theorem StructType.accessor_mirrors_record :
    ∃ accessor : FieldAccessor .long, (ofLayout Specimen.record).accessor "count" .long = .ok accessor ∧
      accessor.Mirrors "count" Instance.specimen ∧
      (accessor.set Instance.specimen (0xffffffffff : Int64)).adaptExcept .marshal .initial =
        .error (Failure.marshal (.outOfRange 0xffffffffff "long" 4)) .initial ∧
      accessor.Rejects ⟨ofLayout Specimen.axis, .atAddress 4096 16 true⟩ := by
  obtain ⟨created, agrees⟩ := accessor_mirrors (ofLayout Specimen.record) "count" .long
  obtain ⟨accessor, made⟩ := created.mpr ⟨⟨"count", 24, .scalar .long⟩, by cbv, rfl⟩
  obtain ⟨policy, instances⟩ := agrees accessor made
  have mirrors := (instances Instance.specimen).1 rfl
  have different : Specimen.axis ≠ Specimen.record := by
    intro same
    cases congrArg StructLayout.size same
  have refused := congrFun (mirrors.set (0xffffffffff : Int64)) .initial
  rw [policy] at refused
  exact ⟨accessor, made, mirrors, refused, (instances _).2 different⟩

end Interop
