import Interop.Proofs.CType.DeclarationOrder
import Interop.Proofs.CType.Structure

/-! Layouts of one platform made into those of another. Where no scalar in a struct changes its width, the other platform
has to be written into the layout, and nothing else in it changes.
Main statements: `layout_retarget`, and `shape_retarget` about what stays the same. -/
namespace Interop
open Outcome

/-- What a type looks like in memory and in registers, without the names of scalars and of platforms. -/
inductive Shape where
  | scalar (width alignment : Nat) (abiClass : AbiClass) (extension : Extension)
  | struct (name : String) (size alignment : Nat) (fields : List (String × Nat × Shape))

mutual

def NativeType.shape (platform : Platform) : NativeType → Shape
  | .scalar own =>
    let type : AbiType := ⟨.scalar own, platform⟩
    .scalar type.width type.alignment type.abiClass type.extension
  | .struct layout => layout.shape

def LayoutField.shape (platform : Platform) : LayoutField → String × Nat × Shape
  | ⟨name, offset, type⟩ => (name, offset, type.shape platform)

def StructLayout.shape : StructLayout → Shape
  | ⟨name, size, alignment, platform, fields⟩ => .struct name size alignment (shapesOf platform fields)

def shapesOf (platform : Platform) : List LayoutField → List (String × Nat × Shape)
  | [] => []
  | field :: rest => field.shape platform :: shapesOf platform rest

end

mutual

def NativeType.retarget (platform : Platform) : NativeType → NativeType
  | .scalar own => .scalar own
  | .struct layout => .struct (layout.retarget platform)

def LayoutField.retarget (platform : Platform) : LayoutField → LayoutField
  | ⟨name, offset, type⟩ => ⟨name, offset, type.retarget platform⟩

def StructLayout.retarget (platform : Platform) : StructLayout → StructLayout
  | ⟨name, size, alignment, _, fields⟩ => ⟨name, size, alignment, platform, retargetAll platform fields⟩

def retargetAll (platform : Platform) : List LayoutField → List LayoutField
  | [] => []
  | field :: rest => field.retarget platform :: retargetAll platform rest

end

/-! ## Scalars -/

namespace CScalar

private theorem width_eq {own : CScalar} (independent : own.isPlatformDependent = false) (first second : Platform) :
    own.width first = own.width second := by
  cases own <;> first | rfl | cases independent

private theorem shape_eq {own : CScalar} (independent : own.isPlatformDependent = false) (first second : Platform) :
    (NativeType.scalar own).shape first = (NativeType.scalar own).shape second := by
  simp only [NativeType.shape, AbiType.width, AbiType.alignment, AbiType.abiClass, AbiType.extension, extension,
    width_eq independent first second]

end CScalar

/-! ## Layouts for another platform -/

namespace StructLayout

private theorem isPlatformDependent_eq (layout : StructLayout) :
    layout.isPlatformDependent = layout.fields.any fun field => field.type.isPlatformDependent := by
  obtain ⟨name, size, alignment, platform, fields⟩ := layout
  rw [isPlatformDependent]
  induction fields with
  | nil => rfl
  | cons field rest ih =>
    obtain ⟨_, _, type⟩ := field
    rw [anyPlatformDependent, ih, List.any_cons, LayoutField.isPlatformDependent]

private theorem shape_eq (layout : StructLayout) : layout.shape =
    .struct layout.name layout.size layout.alignment
      (layout.fields.map fun field => (field.name, field.offset, field.type.shape layout.platform)) := by
  obtain ⟨name, size, alignment, platform, fields⟩ := layout
  rw [shape, Shape.struct.injEq]
  refine ⟨rfl, rfl, rfl, ?_⟩
  induction fields with
  | nil => rfl
  | cons field rest ih =>
    obtain ⟨_, _, type⟩ := field
    rw [shapesOf, ih, List.map_cons, LayoutField.shape]

private theorem retarget_eq (platform : Platform) (layout : StructLayout) :
    layout.retarget platform = ⟨layout.name, layout.size, layout.alignment, platform,
      layout.fields.map fun field => ⟨field.name, field.offset, field.type.retarget platform⟩⟩ := by
  obtain ⟨name, size, alignment, _, fields⟩ := layout
  rw [retarget, StructLayout.mk.injEq]
  refine ⟨rfl, rfl, rfl, rfl, ?_⟩
  induction fields with
  | nil => rfl
  | cons field rest ih =>
    obtain ⟨_, _, type⟩ := field
    rw [retargetAll, ih, List.map_cons, LayoutField.retarget]

end StructLayout

namespace NativeType

theorem shape_retarget {type : NativeType} (independent : type.isPlatformDependent = false)
    (first second : Platform) : (type.retarget second).shape second = type.shape first := by
  induction type using NativeType.nesting generalizing first with
  | scalar own => exact CScalar.shape_eq independent second first
  | struct layout each =>
    rw [isPlatformDependent, layout.isPlatformDependent_eq, List.any_eq_false] at independent
    rw [retarget, layout.retarget_eq, shape, shape, StructLayout.shape_eq, layout.shape_eq, List.map_map]
    congr 1
    apply List.map_congr_left
    intro field member
    have type := each field member (Bool.not_eq_true _ ▸ independent field member) layout.platform
    simp only [Function.comp_apply, type]

private theorem width_retarget {type : NativeType} (independent : type.isPlatformDependent = false)
    (first second : Platform) : (AbiType.mk (type.retarget second) second).width = (AbiType.mk type first).width := by
  cases type with
  | scalar own => exact own.width_eq independent second first
  | struct layout => rw [retarget, layout.retarget_eq, AbiType.width_struct, AbiType.width_struct]

private theorem alignment_retarget {type : NativeType} (independent : type.isPlatformDependent = false)
    (first second : Platform) :
    (AbiType.mk (type.retarget second) second).alignment = (AbiType.mk type first).alignment := by
  cases type with
  | scalar own => exact own.width_eq independent second first
  | struct layout => rw [retarget, layout.retarget_eq, AbiType.alignment_struct, AbiType.alignment_struct]

def AtHome (platform : Platform) : NativeType → Prop
  | .scalar _ => True
  | .struct layout => layout.platform = platform

end NativeType

/-- A field of a platform that is placed on every other platform as it is there. -/
structure SchemaField.Portable (field : SchemaField) (platform : Platform) : Prop where
  independent : field.type.isPlatformDependent = false
  home : field.type.AtHome platform

def SchemaField.retarget (platform : Platform) (field : SchemaField) : SchemaField :=
  { field with type := field.type.retarget platform }

namespace StructSchema

def retarget (platform : Platform) (schema : StructSchema) : StructSchema :=
  { schema with fields := schema.fields.map fun field => field.retarget platform }

private theorem declareAt_retarget (platform : Platform) (schema : StructSchema) (fields : List SchemaField) :
    (schema.retarget platform).declareAt (fields.map fun field => field.retarget platform) =
      (schema.declareAt fields).retarget platform := by
  induction fields generalizing schema with
  | nil => rfl
  | cons field rest ih =>
    have next := ih (schema.fieldAt field.slot field.name field.type)
    simp only [declareAt, List.map_cons, List.foldl_cons] at next ⊢
    rw [← next]
    simp [fieldAt, retarget, SchemaField.retarget]

private theorem sorted_retarget (platform : Platform) (schema : StructSchema) :
    (schema.retarget platform).sorted = schema.sorted.map fun field => field.retarget platform := by
  rw [sorted, sorted, List.map_mergeSort]
  · rfl
  · intro _ _ _ _
    rfl

private theorem checkFields_retarget (platform : Platform) (struct : String) (slot : Nat)
    (previous : Option SchemaField) (seen : List String) (fields : List SchemaField) :
    checkFields struct slot (previous.map fun field => field.retarget platform) seen
        (fields.map fun field => field.retarget platform) =
      checkFields struct slot previous seen fields := by
  induction fields generalizing slot previous seen with
  | nil => rfl
  | cons field rest ih =>
    have next := ih (slot + 1) (some field) (field.name :: seen)
    rw [List.map_cons, checkFields, checkFields, ← next]
    cases previous with
    | none => rfl
    | some prior =>
      cases repeated : prior.slot == field.slot <;>
        simp only [Option.map_some, Option.filter, SchemaField.retarget, repeated] <;> rfl

variable {first : Platform}

private theorem resolveField_retarget {type : NativeType} (home : type.AtHome first) (second : Platform) :
    resolveField second (type.retarget second) =
      (resolveField first type).map fun abi => ⟨abi.native.retarget second, second⟩ := by
  cases type with
  | scalar own => rfl
  | struct layout =>
    have same : layout.platform = first := home
    by_cases empty : layout.size = 0 <;>
      simp [resolveField, NativeType.resolve, NativeType.retarget, layout.retarget_eq, empty, same, Except.map]

private theorem placeField_retarget {type : NativeType} (independent : type.isPlatformDependent = false)
    (first second : Platform) (struct : String) (progress : Progress) :
    placeField struct progress ⟨type.retarget second, second⟩ = placeField struct progress ⟨type, first⟩ := by
  have width := NativeType.width_retarget independent first second
  have alignment := NativeType.alignment_retarget independent first second
  simp only [placeField, width, alignment]

private theorem placeFields_retarget {fields : List SchemaField} (portable : ∀ field ∈ fields, field.Portable first)
    (second : Platform) (struct : String) (progress : Progress) :
    placeFields struct second progress (fields.map fun field => field.retarget second) =
      (placeFields struct first progress fields).map fun result =>
        (result.1.map fun field => ⟨field.name, field.offset, field.type.retarget second⟩, result.2) := by
  induction fields generalizing progress with
  | nil => rfl
  | cons field rest ih =>
    obtain ⟨here, later⟩ := List.forall_mem_cons.mp portable
    rw [List.map_cons, placeFields, placeFields, SchemaField.retarget, resolveField_retarget here.home second]
    cases resolved : resolveField first field.type with
    | error reason => rfl
    | ok type =>
      obtain ⟨rfl, _⟩ := resolveField_eq_ok_iff.mp resolved
      rw [Except.map, ok_bind, ok_bind, placeField_retarget here.independent first second]
      cases placeField struct progress ⟨field.type, first⟩ with
      | error reason => rfl
      | ok placed =>
        rw [ok_bind, ok_bind]
        dsimp only
        rw [ih later]
        cases placeFields struct first placed.2 rest <;> rfl

theorem layout_retarget {schema : StructSchema} (portable : ∀ field ∈ schema.fields, field.Portable first)
    (second : Platform) : (schema.retarget second).layout second = (schema.layout first).map (·.retarget second) := by
  have sorted : ∀ field ∈ schema.sorted, field.Portable first :=
    fun field member => portable field (schema.sorted_perm.mem_iff.mp member)
  have checks := checkFields_retarget second schema.name 0 none [] schema.sorted
  rw [Option.map_none] at checks
  have placing := placeFields_retarget sorted second schema.name ⟨0, 1⟩
  rw [layout, layout, sorted_retarget, show (schema.retarget second).name = schema.name from rfl, checks, placing]
  cases checkFields schema.name 0 none [] schema.sorted with
  | error reason => rfl
  | ok checked =>
    cases placeFields schema.name first ⟨0, 1⟩ schema.sorted with
    | error reason => rfl
    | ok placed =>
      simp only [ok_bind, Except.map]
      cases Alignment.forward? placed.2.size placed.2.alignment with
      | none => rfl
      | some size => simp [StructLayout.retarget_eq]

theorem layout_declareAt_retarget (name : String) {fields : List SchemaField}
    (portable : ∀ field ∈ fields, field.Portable first) (second : Platform) :
    ((empty name).declareAt (fields.map fun field => field.retarget second)).layout second =
      (((empty name).declareAt fields).layout first).map (·.retarget second) := by
  have declared : ((empty name).declareAt fields).fields = fields := fields_declareAt _ _
  rw [← layout_retarget (declared.symm ▸ portable), ← declareAt_retarget]
  rfl

theorem isPlatformDependent_layout {schema : StructSchema} {platform : Platform} {layout : StructLayout}
    (laid : schema.layout platform = .ok layout) :
    layout.isPlatformDependent = schema.fields.any fun field => field.type.isPlatformDependent := by
  obtain ⟨_, _, _, placed, _, _⟩ := layout_eq_ok_iff.mp laid
  have types := congrArg (List.map Prod.snd) placed.same_fields
  rw [List.map_map, List.map_map] at types
  calc layout.isPlatformDependent
      = (layout.fields.map (·.type)).any (·.isPlatformDependent) := by
        rw [layout.isPlatformDependent_eq, List.any_map]; rfl
    _ = (schema.sorted.map (·.type)).any (·.isPlatformDependent) := congrArg (List.any · _) types
    _ = (schema.fields.map (·.type)).any (·.isPlatformDependent) := (schema.sorted_perm.map _).any_eq
    _ = schema.fields.any fun field => field.type.isPlatformDependent := List.any_map

end StructSchema
end Interop
