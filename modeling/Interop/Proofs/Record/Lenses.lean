import Interop.Proofs.CType.CLayout
import Interop.Proofs.Marshal.NativeBytes
import Interop.Record.Instance
import Mathlib.Data.List.Pairwise

/-! The fields of an instance do not disturb each other.
Main statement: `set_lens`, for every declaration that compiles and every view that holds an instance of it. -/
namespace Interop
open Outcome

namespace StructType

private theorem compile_eq_ok_iff {schema : StructSchema} {platform : Platform} {type : StructType} :
    compile schema platform = .ok type ↔
      ∃ layout, schema.layout platform = .ok layout ∧ type = .ofLayout layout := by
  unfold compile
  cases schema.layout platform with
  | ok layout => simp [eq_comm]
  | error error => simp

theorem wrap_eq_ok_iff {type : StructType} {view : View} {struct : Instance} :
    type.wrap view = .ok struct ↔
      view.size = type.size ∧ view.requireAlignedTo type.alignment = .ok () ∧ struct = ⟨type, view⟩ := by
  unfold wrap
  split
  next other => simp [other]
  next same =>
    rw [bind_eq_ok]
    constructor
    · rintro ⟨⟨⟩, aligned, made⟩
      cases made
      exact ⟨not_not.mp same, aligned, rfl⟩
    · rintro ⟨_, aligned, rfl⟩
      exact ⟨(), aligned, rfl⟩

theorem requireField_eq_ok_iff {type : StructType} {name : String} {field : LayoutField} :
    type.requireField name = .ok field ↔ type.layout.field? name = some field := by
  unfold requireField
  cases type.layout.field? name <;> simp

end StructType

theorem StructLayout.of_field? {layout : StructLayout} {name : String} {field : LayoutField}
    (found : layout.field? name = some field) : field ∈ layout.fields ∧ field.name = name :=
  ⟨List.mem_of_find?_eq_some found, by simpa using List.find?_some found⟩

def StructLayout.Apart (layout : StructLayout) (a b : LayoutField) : Prop :=
  a.offset + (layout.abiOf a).width ≤ b.offset ∨ b.offset + (layout.abiOf b).width ≤ a.offset

instance (layout : StructLayout) : Std.Symm layout.Apart := ⟨fun _ _ => Or.symm⟩

theorem StructSchema.layout_apart {schema : StructSchema} {platform : Platform} {layout : StructLayout}
    (computed : schema.layout platform = .ok layout) {a b : LayoutField} (first : a ∈ layout.fields)
    (second : b ∈ layout.fields) (different : a.name ≠ b.name) : layout.Apart a b := by
  obtain ⟨_, _, last, placed, _, _⟩ := layout_eq_ok_iff.mp computed
  have apart : layout.fields.Pairwise layout.Apart := by
    refine placed.separate.imp fun before => .inl ?_
    rw [StructLayout.abiOf, platform_layout computed]
    exact before
  exact apart.forall first second fun same => different (congrArg _ same)

namespace Instance

/-- Setting a field either writes the value's bytes in the field's place or leaves the store alone. -/
theorem set_cases (struct : Instance) (name : String) (value : Value) (store : Store) :
    (∃ field bytes, struct.type.layout.field? name = some field ∧
      (struct.type.abiOf field).nativeBytes struct.type.narrowing value = .ok bytes ∧
      field.offset + bytes.length ≤ struct.view.size ∧
      struct.set name value store = .ok () (store.write (struct.view.start + field.offset) bytes)) ∨
    ∃ failure, struct.set name value store = .error failure store := by
  unfold set
  cases required : struct.type.requireField name with
  | error error => exact .inr ⟨_, rfl⟩
  | ok field =>
    have found := StructType.requireField_eq_ok_iff.mp required
    simp only [AbiType.lower_eq]
    cases converted : (struct.type.abiOf field).nativeBytes struct.type.narrowing value with
    | error error => exact .inr ⟨_, rfl⟩
    | ok bytes =>
      rcases struct.view.writeBytes_cases field.offset bytes store with ⟨_, inside, written⟩ | ⟨error, _, refused⟩
      · refine .inl ⟨field, bytes, found, converted, inside, ?_⟩
        simp only [EStateM.adaptExcept, written]
      · exact .inr ⟨.marshal (.memory error), by simp only [EStateM.adaptExcept, refused]⟩

theorem get_congr {struct : Instance} {name : String} {store other : Store}
    (same : ∀ field, struct.type.layout.field? name = some field →
      other.read (struct.view.start + field.offset) (struct.type.abiOf field).width =
        store.read (struct.view.start + field.offset) (struct.type.abiOf field).width) :
    struct.get name other = struct.get name store := by
  unfold get
  cases required : struct.type.requireField name with
  | error error => rfl
  | ok field =>
    have found := StructType.requireField_eq_ok_iff.mp required
    change Except.mapError _ _ = Except.mapError _ _
    rw [AbiType.lift_eq, AbiType.lift_eq, View.readBytes_congr (same field found)]

theorem get_eq_ok {struct : Instance} {name : String} {store : Store} {field : LayoutField} {value : Value}
    (found : struct.type.layout.field? name = some field) (readable : struct.view.readable = true)
    (inside : field.offset + (struct.type.abiOf field).width ≤ struct.view.size)
    (lifted : (struct.type.abiOf field).valueOfBytes
      (store.read (struct.view.start + field.offset) (struct.type.abiOf field).width) = .ok value) :
    struct.get name store = .ok value := by
  unfold get
  rw [StructType.requireField_eq_ok_iff.mpr found]
  change Except.mapError _ _ = _
  rw [AbiType.lift_eq_ok readable inside lifted]
  rfl

/-- A field that was set holds the value, as far as its native width can; no other field and no byte outside
the field has changed. A field that was not set has changed nothing. -/
theorem set_lens {schema : StructSchema} {platform : Platform} {type : StructType} {policy : Narrowing}
    {view : View} {struct : Instance} (compiled : StructType.compile schema platform = .ok type)
    (obtained : view.Obtained) (wrapped : (type.withNarrowing policy).wrap view = .ok struct)
    {f g : String} (different : f ≠ g) (value : Value) (store : Store) :
    match struct.set f value store with
    | .ok () after => ∃ field, type.layout.field? f = some field ∧
        (∃ result, struct.get f after = .ok result ∧ value.ReducesTo (type.abiOf field) result ∧
          (policy = .checked → result = value)) ∧
        struct.get g after = struct.get g store ∧
        ∀ address, address < view.start + field.offset ∨
          view.start + field.offset + (type.abiOf field).width ≤ address →
          after.byteAt address = store.byteAt address
    | .error _ after => after = store := by
  obtain ⟨layout, computed, rfl⟩ := StructType.compile_eq_ok_iff.mp compiled
  obtain ⟨_, _, rfl⟩ := StructType.wrap_eq_ok_iff.mp wrapped
  rcases set_cases _ f value store with ⟨field, bytes, found, converted, inside, written⟩ | ⟨_, refused⟩
  · rw [written]
    obtain ⟨length, result, lifted, reduced⟩ := AbiType.valueOf_nativeBytes converted
    refine ⟨field, found, ⟨result, ?_, reduced⟩, ?_, ?_⟩
    · refine get_eq_ok found obtained.readable (length ▸ inside) ?_
      rw [← length, Store.read_write]
      exact lifted
    · refine get_congr fun other foundOther => Store.read_write_of_apart store ?_
      obtain ⟨memberOther, nameOther⟩ := StructLayout.of_field? foundOther
      obtain ⟨member, name⟩ := StructLayout.of_field? found
      have apart := StructSchema.layout_apart computed member memberOther (by rwa [name, nameOther])
      rw [length]
      rcases apart with before | behind
      · exact .inl (by rw [Nat.add_assoc]; exact Nat.add_le_add_left before _)
      · exact .inr (by rw [Nat.add_assoc]; exact Nat.add_le_add_left behind _)
    · intro address outside
      exact Store.byteAt_write_of_outside store _ bytes (length ▸ outside)
  · rw [refused]

/-- A record under the policy that keeps the low bytes, at an address of its alignment. -/
def specimen : Instance := ⟨⟨Specimen.record, .wrap⟩, .atAddress 4096 32 true⟩

/-- The premises of `set_lens` hold where a long of four bytes is set to more than it holds. -/
theorem set_lens_record :
    ∃ after, specimen.set "count" (.i64 0xffffffffff) .initial = .ok () after ∧
      specimen.get "count" after = .ok (.i64 (-1)) ∧
      specimen.get "axis" after = specimen.get "axis" .initial := by
  have compiled : StructType.compile Specimen.recordSchema .llp64 = .ok (.ofLayout Specimen.record) := by cbv
  have wrapped : ((StructType.ofLayout Specimen.record).withNarrowing .wrap).wrap (.atAddress 4096 32 true) =
      .ok specimen := by cbv
  have lens := set_lens compiled (.atAddress 4096 32 true) wrapped (f := "count") (g := "axis") (by decide)
    (.i64 0xffffffffff) .initial
  obtain ⟨after, written⟩ : ∃ after, specimen.set "count" (.i64 0xffffffffff) .initial = .ok () after :=
    ⟨_, rfl⟩
  rw [written] at lens
  obtain ⟨field, found, ⟨result, got, reduced, _⟩, other, _⟩ := lens
  have count : field = ⟨"count", 24, .scalar .long⟩ := Option.some.inj (found.symm.trans (by cbv))
  subst count
  have low : result = .i64 (-1) := Value.eq_of_toInt? reduced.kind reduced.number (by decide)
  exact ⟨after, written, low ▸ got, other⟩

end Instance
end Interop
