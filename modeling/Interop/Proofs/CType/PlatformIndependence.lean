import Interop.Proofs.CType.Retarget

/-! Types that have one shape on all platforms, because none of the scalars in them changes its width.
Main statement: `platform_independent`, about every tree of struct declarations. -/
namespace Interop
open Outcome

mutual

/-- A type as it is declared, with declarations in it for the structs that it is made of. -/
inductive TypeTree where
  | scalar (type : CScalar)
  | struct (name : String) (fields : List FieldTree)

structure FieldTree where
  slot : Nat
  name : String
  type : TypeTree

end

mutual

def TypeTree.layOut (platform : Platform) : TypeTree → Except LayoutError NativeType
  | .scalar type => .ok (.scalar type)
  | .struct name fields => do
    let declared ← layOutFields platform fields
    let layout ← ((StructSchema.empty name).declareAt declared).layout platform
    .ok (.struct layout)

def FieldTree.layOut (platform : Platform) : FieldTree → Except LayoutError SchemaField
  | ⟨slot, name, type⟩ => do
    let type ← type.layOut platform
    .ok ⟨slot, name, type⟩

def layOutFields (platform : Platform) : List FieldTree → Except LayoutError (List SchemaField)
  | [] => .ok []
  | field :: rest => do
    let first ← field.layOut platform
    let others ← layOutFields platform rest
    .ok (first :: others)

end

mutual

def TypeTree.scalars : TypeTree → List CScalar
  | .scalar type => [type]
  | .struct _ fields => scalarsOf fields

def FieldTree.scalars : FieldTree → List CScalar
  | ⟨_, _, type⟩ => type.scalars

def scalarsOf : List FieldTree → List CScalar
  | [] => []
  | field :: rest => field.scalars ++ scalarsOf rest

end

namespace CScalar

def varying : List CScalar := [.long, .unsignedLong, .size, .ptrdiff, .pointer]

private theorem isPlatformDependent_iff (own : CScalar) : own.isPlatformDependent = true ↔ own ∈ varying := by
  cases own <;> decide

end CScalar

private theorem scalarsOf_eq_flatMap (fields : List FieldTree) :
    scalarsOf fields = fields.flatMap (·.type.scalars) := by
  induction fields with
  | nil => rfl
  | cons field rest ih =>
    obtain ⟨_, _, type⟩ := field
    rw [scalarsOf, ih, List.flatMap_cons, FieldTree.scalars]

private theorem FieldTree.layOut_eq (platform : Platform) (field : FieldTree) :
    field.layOut platform = (field.type.layOut platform).map fun type => ⟨field.slot, field.name, type⟩ := by
  obtain ⟨_, _, type⟩ := field
  rw [layOut]
  cases type.layOut platform <;> rfl

private theorem layOutFields_eq_mapM (platform : Platform) (fields : List FieldTree) :
    layOutFields platform fields = fields.mapM (·.layOut platform) := by
  induction fields with
  | nil => rfl
  | cons field rest ih =>
    rw [layOutFields, ih, List.mapM_cons]
    rfl

namespace TypeTree

/-- What holds of all scalars, and of a struct if of the trees of its fields, holds of every tree. -/
private theorem nesting {motive : TypeTree → Prop} (scalar : ∀ type, motive (.scalar type))
    (struct : ∀ name fields, (∀ field ∈ fields, motive field.type) → motive (.struct name fields))
    (tree : TypeTree) : motive tree := by
  refine @TypeTree.rec motive (fun field => motive field.type) (fun fields => ∀ field ∈ fields, motive field.type)
    scalar struct ?_ ?_ ?_ tree
  · intro _ _ _ holds
    exact holds
  · exact nofun
  · intro _ _ first others
    exact List.forall_mem_cons.mpr ⟨first, others⟩

variable {platform : Platform}

private theorem layOut_struct_eq_ok {name : String} {fields : List FieldTree} {type : NativeType}
    (laid : (TypeTree.struct name fields).layOut platform = .ok type) :
    ∃ declared layout, List.Forall₂ (fun field source => field.type.layOut platform = .ok source.type) fields declared ∧
      ((StructSchema.empty name).declareAt declared).layout platform = .ok layout ∧ type = .struct layout := by
  rw [layOut] at laid
  obtain ⟨declared, inner, laid⟩ := bind_eq_ok.mp laid
  obtain ⟨layout, outer, same⟩ := bind_eq_ok.mp laid
  rw [layOutFields_eq_mapM] at inner
  refine ⟨declared, layout, ?_, outer, (Except.ok.inj same).symm⟩
  refine (forall₂_of_mapM inner).imp ?_
  intro field source made
  rw [field.layOut_eq] at made
  obtain ⟨type, found, rfl⟩ := map_eq_ok.mp made
  exact found

private theorem atHome_layOut {tree : TypeTree} {type : NativeType} (laid : tree.layOut platform = .ok type) :
    type.AtHome platform := by
  cases tree with
  | scalar own =>
    cases laid
    trivial
  | struct name fields =>
    obtain ⟨_, layout, _, outer, rfl⟩ := layOut_struct_eq_ok laid
    exact StructSchema.platform_layout outer

private theorem isPlatformDependent_layOut {tree : TypeTree} {type : NativeType}
    (laid : tree.layOut platform = .ok type) :
    type.isPlatformDependent = tree.scalars.any (·.isPlatformDependent) := by
  induction tree using TypeTree.nesting generalizing type with
  | scalar own =>
    cases laid
    simp [scalars, NativeType.isPlatformDependent]
  | struct name fields each =>
    obtain ⟨declared, layout, inner, outer, rfl⟩ := layOut_struct_eq_ok laid
    have types := (List.forall₂_and_left _ _).mpr ⟨each, inner⟩
    have same : (fields.any fun field => field.type.scalars.any (·.isPlatformDependent)) =
        declared.any fun source => source.type.isPlatformDependent := by
      apply any_of_forall₂
      refine types.imp ?_
      rintro field source ⟨ih, made⟩
      exact (ih made).symm
    rw [NativeType.isPlatformDependent, StructSchema.isPlatformDependent_layout outer, StructSchema.fields_declareAt,
      scalars, scalarsOf_eq_flatMap, List.any_flatMap, same]
    rfl

private theorem portable_layOutFields {fields : List FieldTree}
    (independent : ∀ field ∈ fields, field.type.scalars.any (·.isPlatformDependent) = false)
    {declared : List SchemaField} (made : layOutFields platform fields = .ok declared) :
    ∀ source ∈ declared, source.Portable platform := by
  intro source member
  rw [layOutFields_eq_mapM] at made
  obtain ⟨field, among, found⟩ := exists_of_mapM made member
  rw [field.layOut_eq] at found
  obtain ⟨type, laid, rfl⟩ := map_eq_ok.mp found
  exact ⟨(isPlatformDependent_layOut laid).trans (independent field among), atHome_layOut laid⟩

private theorem layOutFields_retarget {fields : List FieldTree} {first second : Platform}
    (each : ∀ field ∈ fields, field.type.layOut second = (field.type.layOut first).map (·.retarget second)) :
    layOutFields second fields =
      (layOutFields first fields).map (List.map fun source => source.retarget second) := by
  rw [layOutFields_eq_mapM, layOutFields_eq_mapM]
  apply mapM_map
  intro field member
  rw [field.layOut_eq, field.layOut_eq, each field member]
  cases field.type.layOut first <;> rfl

private theorem layOut_retarget {tree : TypeTree} (independent : tree.scalars.any (·.isPlatformDependent) = false)
    (first second : Platform) : tree.layOut second = (tree.layOut first).map (·.retarget second) := by
  induction tree using TypeTree.nesting with
  | scalar own => rfl
  | struct name fields each =>
    rw [scalars, scalarsOf_eq_flatMap, List.any_flatMap, List.any_eq_false] at independent
    have alone : ∀ field ∈ fields, field.type.scalars.any (·.isPlatformDependent) = false :=
      fun field member => Bool.eq_false_iff.mpr (independent field member)
    have inner := layOutFields_retarget fun field member => each field member (alone field member)
    rw [layOut, layOut, inner]
    cases made : layOutFields first fields with
    | error reason => rfl
    | ok declared =>
      have outer := StructSchema.layout_declareAt_retarget name (portable_layOutFields alone made) second
      rw [Except.map, ok_bind, ok_bind, outer]
      cases ((StructSchema.empty name).declareAt declared).layout first <;> rfl

/-- A type depends on the platform exactly if one of the scalars in it does, however deep. A tree without such scalars
has one shape on all platforms, or one error. -/
theorem platform_independent (tree : TypeTree) :
    (∀ platform type, tree.layOut platform = .ok type →
      (type.isPlatformDependent = true ↔ ∃ scalar ∈ tree.scalars, scalar ∈ CScalar.varying)) ∧
    ((∀ scalar ∈ tree.scalars, scalar ∉ CScalar.varying) → ∀ first second,
      (tree.layOut first).map (·.shape first) = (tree.layOut second).map (·.shape second)) := by
  constructor
  · intro platform type laid
    rw [isPlatformDependent_layOut laid, List.any_eq_true]
    simp only [CScalar.isPlatformDependent_iff]
  · intro independent first second
    have alone : tree.scalars.any (·.isPlatformDependent) = false := by
      rw [List.any_eq_false]
      intro scalar member
      rw [CScalar.isPlatformDependent_iff]
      exact independent scalar member
    rw [layOut_retarget alone first second]
    cases laid : tree.layOut first with
    | error reason => rfl
    | ok type =>
      have fixed := (isPlatformDependent_layOut laid).trans alone
      exact congrArg Except.ok (NativeType.shape_retarget fixed first second).symm

end TypeTree

namespace Specimen

def tree (deep : CScalar) : TypeTree :=
  .struct "record" [⟨1, "axis", .struct "axis" [⟨0, "id", .scalar .u16⟩, ⟨1, "value", .scalar deep⟩]⟩,
    ⟨0, "flag", .scalar .u8⟩]

def wide (deep : CScalar) (platform : Platform) : StructLayout :=
  ⟨"record", 24, 8, platform, [⟨"flag", 0, .scalar .u8⟩, ⟨"axis", 8, .struct
    ⟨"axis", 16, 8, platform, [⟨"id", 0, .scalar .u16⟩, ⟨"value", 8, .scalar deep⟩]⟩⟩]⟩

end Specimen

namespace TypeTree

/-- A pointer deep in the record makes it dependent. With a number of eight bytes in its place the record looks the same
where pointers take four. -/
theorem platform_independent_record :
    ((Specimen.tree .pointer).layOut .lp64 = .ok (.struct (Specimen.wide .pointer .lp64)) ∧
      (NativeType.struct (Specimen.wide .pointer .lp64)).isPlatformDependent = true) ∧
    (∀ scalar ∈ (Specimen.tree .f64).scalars, scalar ∉ CScalar.varying) ∧
    (Specimen.tree .f64).layOut .lp64 = .ok (.struct (Specimen.wide .f64 .lp64)) ∧
    ((Specimen.tree .f64).layOut .ilp32).map (·.shape .ilp32) = .ok (Specimen.wide .f64 .lp64).shape := by
  have dependent : (Specimen.tree .pointer).layOut .lp64 = .ok (.struct (Specimen.wide .pointer .lp64)) := by cbv
  have deep : CScalar.pointer ∈ (Specimen.tree .pointer).scalars := by decide
  have fixed : ∀ scalar ∈ (Specimen.tree .f64).scalars, scalar ∉ CScalar.varying := by decide
  have laid : (Specimen.tree .f64).layOut .lp64 = .ok (.struct (Specimen.wide .f64 .lp64)) := by cbv
  have varies := (platform_independent (Specimen.tree .pointer)).1 _ _ dependent
  have alike := (platform_independent (Specimen.tree .f64)).2 fixed .ilp32 .lp64
  rw [laid] at alike
  exact ⟨⟨dependent, varies.mpr ⟨.pointer, deep, by decide⟩⟩, fixed, laid, alike⟩

end TypeTree
end Interop
