import Interop.Proofs.CType.Fields
import Interop.Proofs.Marshal.Lowering
import Interop.Proofs.Memory.Derived
import Interop.Proofs.Record.Lenses

/-! Instances on views as large as their structs, and the parts of views that their fields are.
Main statements: `get_congr_bytes`, that what is read depends on the bytes of the view alone, and
`byteAt_set_of_outside`, that nothing else is written. -/
namespace Interop
open Outcome

theorem Store.read_part {store other : Store} {start target count : Nat}
    (same : other.read target count = store.read start count) {offset width : Nat} (inside : offset + width ≤ count) :
    other.read (target + offset) width = store.read (start + offset) width := by
  apply List.ext_getElem?
  intro i
  have each := congrArg (·[offset + i]?) same
  simp only [getElem?_read, ← Nat.add_assoc] at each ⊢
  by_cases below : i < width
  · have within : offset + i < count := by omega
    simpa [below, within] using each
  · simp [below]

namespace View

section Slice

variable {view part : View} {base size offset : Nat} (cut : view.slice base size = .ok part)
include cut

private theorem within_of_slice : view.Within base part := by
  obtain ⟨inside, rfl⟩ := slice_eq_ok_iff.mp cut
  exact ⟨rfl, inside, rfl, rfl, id⟩

private theorem readBytes_slice {count : Nat} (fits : offset + count ≤ size) :
    part.readBytes offset count = view.readBytes (base + offset) count := by
  have within := within_of_slice cut
  obtain ⟨_, rfl⟩ := slice_eq_ok_iff.mp cut
  funext store
  exact within.readBytes store fits

private theorem writeBytes_slice {bytes : List UInt8} (fits : offset + bytes.length ≤ size) :
    part.writeBytes offset bytes = view.writeBytes (base + offset) bytes := by
  -- Slices keep the permission to write, so refusals are the same as well.
  have within := within_of_slice cut
  obtain ⟨_, rfl⟩ := slice_eq_ok_iff.mp cut
  have located := within.locate fits
  simp only [writeBytes, locateWrite, requireWritable, located]

end Slice

end View

namespace AbiType

variable {view part : View} {base size offset : Nat} (cut : view.slice base size = .ok part) {type : AbiType}
  (inside : offset + type.width ≤ size)
include cut inside

theorem lift_slice : type.lift part offset = type.lift view (base + offset) := by
  funext store
  rw [lift_eq, lift_eq, View.readBytes_slice cut inside]

theorem lower_slice (policy : Narrowing) (value : Value) :
    type.lower policy part offset value = type.lower policy view (base + offset) value := by
  rw [lower_eq, lower_eq]
  cases converted : type.nativeBytes policy value with
  | error error => rfl
  | ok bytes =>
    have length := (valueOf_nativeBytes converted).1
    dsimp only
    rw [View.writeBytes_slice cut (length ▸ inside)]

end AbiType

/-- A view of a computed struct, exactly as large as the struct. -/
structure Instance.Sized (struct : Instance) : Prop where
  computed : struct.type.layout.Computed
  obtained : struct.view.Obtained
  size : struct.view.size = struct.type.size

namespace Instance

def part (struct : Instance) (field : LayoutField) : View :=
  { struct.view with start := struct.view.start + field.offset, size := (struct.type.abiOf field).width }

theorem byteAt_set_of_outside (struct : Instance) (name : String) (value : Value) {store : Store} {address : Nat}
    (outside : address < struct.view.start ∨ struct.view.start + struct.view.size ≤ address) :
    (left (struct.set name value store)).byteAt address = store.byteAt address := by
  obtain ⟨field, bytes, _, _, inside, written⟩ | ⟨failure, refused⟩ := struct.set_cases name value store
  · rw [written]
    exact Store.byteAt_write_of_outside _ _ _ (by omega)
  · rw [refused]
    rfl

namespace Sized

theorem of_slice {type : StructType} {view part : View} {offset : Nat} (computed : type.layout.Computed)
    (obtained : view.Obtained) (cut : view.slice offset type.size = .ok part) : Sized ⟨type, part⟩ := by
  have whole := View.Obtained.slice obtained cut
  obtain ⟨_, rfl⟩ := View.slice_eq_ok_iff.mp cut
  exact ⟨computed, whole, rfl⟩

section Field

variable {struct : Instance} (sized : struct.Sized) {field : LayoutField}
  (member : field ∈ struct.type.layout.fields)
include sized member

theorem requireField : struct.type.requireField field.name = .ok field :=
  StructType.requireField_eq_ok_iff.mpr (sized.computed.field?_of_mem member)

theorem inside : field.offset + (struct.type.abiOf field).width ≤ struct.view.size := by
  rw [sized.size]
  exact (sized.computed.keeps member).inside

theorem slice_part : struct.view.slice field.offset (struct.type.abiOf field).width = .ok (struct.part field) :=
  View.slice_eq_ok_iff.mpr ⟨sized.inside member, rfl⟩

theorem get_eq_lift (store : Store) : struct.get field.name store =
    ((struct.type.abiOf field).lift struct.view field.offset store).mapError .marshal := by
  rw [Instance.get, sized.requireField member, mapError_ok, ok_bind]

theorem set_eq_lower (value : Value) : struct.set field.name value =
    ((struct.type.abiOf field).lower struct.type.narrowing struct.view field.offset value).adaptExcept .marshal := by
  rw [Instance.set, sized.requireField member]

theorem nested_eq {layout : StructLayout} (type : field.type = .struct layout) :
    struct.nested field.name = .ok ⟨⟨layout, struct.type.narrowing⟩, struct.part field⟩ := by
  have cut := sized.slice_part member
  simp only [StructType.abiOf, StructLayout.abiOf, type, AbiType.width_struct] at cut
  rw [Instance.nested, sized.requireField member, mapError_ok, ok_bind, type]
  dsimp only
  rw [cut, mapError_ok, ok_bind]

theorem nested {layout : StructLayout} (type : field.type = .struct layout) :
    Sized ⟨⟨layout, struct.type.narrowing⟩, struct.part field⟩ := by
  have cut := sized.slice_part member
  have computed := (sized.computed.keeps member).computed
  simp only [StructType.abiOf, StructLayout.abiOf, type, AbiType.width_struct] at cut
  rw [type] at computed
  exact of_slice computed sized.obtained cut

end Field

theorem get_congr_bytes {struct other : Instance} (sized : struct.Sized) (placed : other.Sized)
    (same : other.type.layout = struct.type.layout) {store after : Store}
    (bytes : after.read other.view.start struct.type.size = store.read struct.view.start struct.type.size)
    (name : String) : other.get name after = struct.get name store := by
  have required : other.type.requireField name = struct.type.requireField name := by
    simp only [StructType.requireField, StructType.name, same]
  cases known : struct.type.requireField name with
  | error error =>
      rw [Instance.get, Instance.get, required, known]
      rfl
  | ok field =>
    obtain ⟨member, rfl⟩ := StructLayout.of_field? (StructType.requireField_eq_ok_iff.mp known)
    have among : field ∈ other.type.layout.fields := same ▸ member
    have abi : other.type.abiOf field = struct.type.abiOf field := by simp only [StructType.abiOf, same]
    have inside := sized.inside member
    have there := placed.inside among
    rw [sized.size] at inside
    rw [sized.get_eq_lift member, placed.get_eq_lift among, AbiType.lift_eq, AbiType.lift_eq,
      View.readBytes_eq_ok sized.obtained.readable (sized.inside member),
      View.readBytes_eq_ok placed.obtained.readable there, abi, Store.read_part bytes inside]

end Sized
end Instance
end Interop
