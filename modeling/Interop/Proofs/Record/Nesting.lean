import Interop.Proofs.Memory.Writing
import Interop.Proofs.Record.Sized

/-! Structs in structs: the chain of instances along a path, the bytes of a struct as one value, and offsets that add up.
Main statement: `nested_coherent`, that all of them reach the same fields at every depth. -/
namespace Interop
open Outcome

namespace StructLayout

/-- A path through fields that are structs, the sum of their offsets, and the layout that it ends in. -/
inductive Route : StructLayout → List String → Nat → StructLayout → Prop
  | here (layout : StructLayout) : Route layout [] 0 layout
  | field {layout middle inner : StructLayout} {field : LayoutField} {path : List String} {offset : Nat}
    (member : field ∈ layout.fields) (type : field.type = .struct middle) (rest : Route middle path offset inner) :
    Route layout (field.name :: path) (field.offset + offset) inner

private theorem Computed.field_struct {layout middle : StructLayout} (computed : layout.Computed) {field : LayoutField}
    (member : field ∈ layout.fields) (type : field.type = .struct middle) :
    middle.Computed ∧ field.offset + middle.size ≤ layout.size := by
  have keeps := computed.keeps member
  have inner := keeps.computed
  have inside := keeps.inside
  simp only [abiOf, type, AbiType.width_struct] at inner inside
  exact ⟨inner, inside⟩

private theorem Route.keeps {layout inner : StructLayout} {path : List String} {offset : Nat}
    (route : layout.Route path offset inner) (computed : layout.Computed) :
    inner.Computed ∧ offset + inner.size ≤ layout.size := by
  induction route with
  | here layout => exact ⟨computed, by omega⟩
  | field member type _ ih =>
    obtain ⟨middle, inside⟩ := computed.field_struct member type
    obtain ⟨inner, within⟩ := ih middle
    exact ⟨inner, by omega⟩

private theorem Computed.apart {layout : StructLayout} (computed : layout.Computed) {a b : LayoutField}
    (first : a ∈ layout.fields) (second : b ∈ layout.fields) (different : a.name ≠ b.name) : layout.Apart a b := by
  obtain ⟨_, _, _, _, laid⟩ := computed
  exact StructSchema.layout_apart laid first second different

end StructLayout

namespace Instance

def along (struct : Instance) : List String → Except Failure Instance
  | [] => .ok struct
  | name :: path => do
    let inner ← struct.nested name
    inner.along path

def place (struct : Instance) (offset : Nat) (layout : StructLayout) : Instance :=
  ⟨⟨layout, struct.type.narrowing⟩, { struct.view with start := struct.view.start + offset, size := layout.size }⟩

/-- Nested instances, offsets from the outermost one and whole structs as values all reach the same fields. -/
structure Coherent (struct : Instance) : Prop where
  chain : ∀ path offset inner, struct.type.layout.Route path offset inner →
    ∃ last, struct.along path = .ok last ∧ ∀ field ∈ inner.fields,
      (∀ value, last.set field.name value = ((inner.abiOf field).lower struct.type.narrowing struct.view
        (offset + field.offset) value).adaptExcept .marshal) ∧
      ∀ store, last.get field.name store =
        ((inner.abiOf field).lift struct.view (offset + field.offset) store).mapError .marshal
  whole : ∀ field ∈ struct.type.layout.fields, ∀ layout, field.type = .struct layout →
    ∃ part, struct.nested field.name = .ok part ∧ ∀ store, ∃ bytes,
      part.toValue store = .ok (.struct bytes) ∧ struct.get field.name store = .ok (.struct bytes)
  assign : ∀ field ∈ struct.type.layout.fields, ∀ layout, field.type = .struct layout →
    ∀ source : Instance, source.Sized → source.type.layout = layout → ∀ store, ∃ value,
      source.toValue store = .ok value ∧
      match struct.set field.name value store with
      | .ok () after =>
        (∀ path offset inner, layout.Route path offset inner → ∃ target origin,
          struct.along (field.name :: path) = .ok target ∧ source.along path = .ok origin ∧
          ∀ leaf, target.get leaf after = origin.get leaf store ∧
            (source.view.Apart (struct.part field) → target.get leaf after = origin.get leaf after)) ∧
        ∀ other, other ≠ field.name → struct.get other after = struct.get other store
      | .error failure after =>
        failure = .marshal (.memory .notWritable) ∧ struct.view.writable = false ∧ after = store

namespace Sized

private theorem place {struct : Instance} (sized : struct.Sized) {path : List String} {offset : Nat}
    {inner : StructLayout} (route : struct.type.layout.Route path offset inner) :
    struct.view.slice offset inner.size = .ok (struct.place offset inner).view ∧ (struct.place offset inner).Sized := by
  obtain ⟨computed, inside⟩ := route.keeps sized.computed
  have cut : struct.view.slice offset inner.size = .ok (struct.place offset inner).view :=
    View.slice_eq_ok_iff.mpr ⟨sized.size ▸ inside, rfl⟩
  exact ⟨cut, of_slice computed sized.obtained cut⟩

private theorem along_eq_place {layout inner : StructLayout} {path : List String} {offset : Nat}
    (route : layout.Route path offset inner) {struct : Instance} (sized : struct.Sized)
    (same : struct.type.layout = layout) : struct.along path = .ok (struct.place offset inner) := by
  induction route generalizing struct with
  | here layout =>
    subst same
    have size : struct.type.layout.size = struct.view.size := sized.size.symm
    rw [along, Instance.place, size, Nat.add_zero]
  | @field layout middle inner field path offset member type rest ih =>
    subst same
    rw [along, sized.nested_eq member type, ok_bind, ih (sized.nested member type) rfl]
    simp only [Instance.place, part, Nat.add_assoc]

private theorem set_place {struct : Instance} (sized : struct.Sized) {path : List String} {offset : Nat}
    {inner : StructLayout}
    (route : struct.type.layout.Route path offset inner) {field : LayoutField} (member : field ∈ inner.fields)
    (value : Value) : (struct.place offset inner).set field.name value =
      ((inner.abiOf field).lower struct.type.narrowing struct.view (offset + field.offset) value).adaptExcept
        .marshal := by
  obtain ⟨cut, placed⟩ := sized.place route
  have inside := placed.inside member
  rw [placed.set_eq_lower member, AbiType.lower_slice cut inside]
  rfl

private theorem get_place {struct : Instance} (sized : struct.Sized) {path : List String} {offset : Nat}
    {inner : StructLayout}
    (route : struct.type.layout.Route path offset inner) {field : LayoutField} (member : field ∈ inner.fields)
    (store : Store) : (struct.place offset inner).get field.name store =
      ((inner.abiOf field).lift struct.view (offset + field.offset) store).mapError .marshal := by
  obtain ⟨cut, placed⟩ := sized.place route
  have inside := placed.inside member
  rw [placed.get_eq_lift member, AbiType.lift_slice cut inside]
  rfl

private theorem toValue_eq {struct : Instance} (sized : struct.Sized) (store : Store) :
    struct.toValue store = .ok (.struct (store.read struct.view.start struct.type.size)) := by
  have inside : 0 + struct.view.size ≤ struct.view.size := by omega
  rw [toValue, View.toList, View.readBytes_eq_ok sized.obtained.readable inside, sized.size]
  rfl

private theorem get_set_of_ne {struct : Instance} (sized : struct.Sized) {name other : String}
    (different : other ≠ name) (value : Value) (store : Store) :
    struct.get other (left (struct.set name value store)) = struct.get other store := by
  rcases struct.set_cases name value store with ⟨field, bytes, found, converted, _, written⟩ | ⟨_, refused⟩
  · rw [written]
    obtain ⟨length, _⟩ := AbiType.valueOf_nativeBytes converted
    obtain ⟨member, rfl⟩ := StructLayout.of_field? found
    refine get_congr fun another foundOther => Store.read_write_of_apart store ?_
    obtain ⟨memberOther, rfl⟩ := StructLayout.of_field? foundOther
    have apart := sized.computed.apart memberOther member different
    unfold StructLayout.Apart at apart
    simp only [StructType.abiOf] at length ⊢
    omega
  · rw [refused]
    rfl

section Assignment

variable {struct : Instance} (sized : struct.Sized) {field : LayoutField}
  (member : field ∈ struct.type.layout.fields) {layout : StructLayout} (type : field.type = .struct layout)
include sized member type

private theorem get_struct (store : Store) :
    struct.get field.name store = .ok (.struct (store.read (struct.part field).start layout.size)) := by
  have inside := sized.inside member
  have width : (struct.type.abiOf field).width = layout.size := by
    simp only [StructType.abiOf, StructLayout.abiOf, type, AbiType.width_struct]
  have read : (struct.type.abiOf field).valueOfBytes (store.read (struct.part field).start layout.size) =
      .ok (.struct (store.read (struct.part field).start layout.size)) := by
    simp only [StructType.abiOf, StructLayout.abiOf, type, AbiType.valueOfBytes]
  refine get_eq_ok (sized.computed.field?_of_mem member) sized.obtained.readable inside ?_
  rw [width]
  exact read

private theorem set_struct {bytes : List UInt8} (length : bytes.length = layout.size) (store : Store) :
    struct.set field.name (.struct bytes) store =
      if struct.view.writable then .ok () (store.write (struct.part field).start bytes)
      else .error (.marshal (.memory .notWritable)) store := by
  have converted : (struct.type.abiOf field).nativeBytes struct.type.narrowing (.struct bytes) = .ok bytes := by
    simp only [StructType.abiOf, StructLayout.abiOf, type, AbiType.nativeBytes, length, if_true]
  have inside := sized.inside member
  rw [← (AbiType.valueOf_nativeBytes converted).1] at inside
  rw [sized.set_eq_lower member, AbiType.lower_eq, converted]
  cases writable : struct.view.writable with
  | true => simp only [EStateM.adaptExcept, View.writeBytes_eq_ok writable inside, if_true, Instance.part]
  | false =>
    have refused : struct.view.writeBytes field.offset bytes store = .error .notWritable store := by
      refine Store.guarded_eq_error_iff.mpr ⟨?_, rfl⟩
      rw [View.locateWrite, View.requireWritable, writable]
      rfl
    simp [EStateM.adaptExcept, refused]

private theorem get_place_of_read {source : Instance} (origin : source.Sized) (same : source.type.layout = layout)
    {store after : Store}
    (bytes : after.read (struct.part field).start layout.size = store.read source.view.start layout.size)
    {path : List String} {offset : Nat} {inner : StructLayout} (route : layout.Route path offset inner)
    (leaf : String) : (struct.place (field.offset + offset) inner).get leaf after =
      (source.place offset inner).get leaf store := by
  subst same
  have inside := (route.keeps origin.computed).2
  have target := (sized.place (.field member type route)).2
  have part := Store.read_part bytes inside
  simp only [Instance.part, Nat.add_assoc] at part
  exact (origin.place route).2.get_congr_bytes target rfl part leaf

end Assignment

private theorem set_toValue {struct : Instance} (sized : struct.Sized) {field : LayoutField}
    (member : field ∈ struct.type.layout.fields) {source : Instance} (origin : source.Sized)
    (type : field.type = .struct source.type.layout) {value : Value} {store after : Store}
    (taken : source.toValue store = .ok value) (written : struct.set field.name value store = .ok () after)
    {path : List String} {offset : Nat} {inner : StructLayout} (route : source.type.layout.Route path offset inner)
    (leaf : String) :
    (struct.place (field.offset + offset) inner).get leaf after = (source.place offset inner).get leaf store ∧
      (source.view.Apart (struct.part field) →
        (struct.place (field.offset + offset) inner).get leaf after =
          (source.place offset inner).get leaf after) := by
  rw [origin.toValue_eq] at taken
  cases taken
  have length := store.length_read source.view.start source.type.size
  rw [sized.set_struct member type length] at written
  split at written <;> cases written
  have bytes := store.read_write (struct.part field).start (store.read source.view.start source.type.size)
  rw [length] at bytes
  have same := sized.get_place_of_read member type origin rfl bytes route leaf
  refine ⟨same, fun apart => same.trans ?_⟩
  have within := (route.keeps origin.computed).2
  have placed := (origin.place route).2
  have width : (struct.part field).size = source.type.size := by
    simp only [part, StructType.abiOf, StructLayout.abiOf, type, AbiType.width_struct, StructType.size]
  have outside : (struct.part field).start + (store.read source.view.start source.type.size).length ≤
      source.view.start ∨ source.view.start + source.type.size ≤ (struct.part field).start := by
    rw [View.Apart, width, origin.size] at apart
    rw [length]
    exact apart.symm
  have untouched := Store.read_part (Store.read_write_of_apart store outside) within
  exact (placed.get_congr_bytes placed rfl untouched leaf).symm

end Sized

/-- Following nested instances to a field, or adding the offsets up and lowering into the outermost view, is the same
for every path, under the policy of the outermost type. The value of a struct in a field is what its own instance has as
its value, and a field that is set to the value of any struct of its layout shows that struct at every depth, while the
other fields keep what they hold. -/
theorem nested_coherent {struct : Instance} (sized : struct.Sized) : struct.Coherent where
  chain path offset inner route :=
    ⟨_, sized.along_eq_place route rfl, fun _ member =>
      ⟨sized.set_place route member, sized.get_place route member⟩⟩
  whole field member layout type :=
    ⟨_, sized.nested_eq member type, fun store =>
      ⟨_, (sized.nested member type).toValue_eq store, sized.get_struct member type store⟩⟩
  assign field member layout type source origin same store := by
    subst same
    refine ⟨_, origin.toValue_eq store, ?_⟩
    cases written : struct.set field.name _ store with
    | ok _ after =>
      refine ⟨fun path offset inner route => ?_, fun other different => ?_⟩
      · exact ⟨_, _, sized.along_eq_place (.field member type route) rfl, origin.along_eq_place route rfl, fun leaf =>
          sized.set_toValue member origin type (origin.toValue_eq store) written route leaf⟩
      · have kept := sized.get_set_of_ne different (.struct (store.read source.view.start source.type.size)) store
        rwa [written] at kept
    | error failure after =>
      have length := store.length_read source.view.start source.type.size
      rw [sized.set_struct member type length] at written
      split at written
      next => cases written
      next refused =>
        cases written
        exact ⟨rfl, Bool.eq_false_of_not_eq_true refused, rfl⟩

/-- The number in the axis of a record lies at the sum of two offsets, and is cut down as the record says. -/
theorem nested_coherent_axis : specimen.Sized ∧ ∃ axis, specimen.along ["axis"] = .ok axis ∧
    axis.set "value" (.f64 ⟨1⟩) = ((Specimen.axis.abiOf ⟨"value", 8, .scalar .f64⟩).lower .wrap specimen.view 16
      (.f64 ⟨1⟩)).adaptExcept .marshal ∧
    ∃ after, axis.set "value" (.f64 ⟨1⟩) .initial = .ok () after := by
  have sized : specimen.Sized := ⟨StructLayout.record_computed, .atAddress 4096 32 true, rfl⟩
  have outer : ⟨"axis", 8, .struct Specimen.axis⟩ ∈ specimen.type.layout.fields := by
    simp [specimen, Specimen.record]
  have inner : ⟨"value", 8, .scalar .f64⟩ ∈ Specimen.axis.fields := by simp [Specimen.axis]
  obtain ⟨axis, found, fields⟩ := (nested_coherent sized).chain ["axis"] 8 Specimen.axis (.field outer rfl (.here _))
  have lowered := (fields _ inner).1 (.f64 ⟨1⟩)
  exact ⟨sized, axis, found, lowered, _, congrFun lowered .initial⟩

end Instance
end Interop
