import Interop.CType.Spelling

/-! Structs as they are declared, and the layout that a C compiler gives them.
Fields are placed in the order of their slots, each at the next multiple of its alignment. -/
namespace Interop

structure SchemaField where
  slot : Nat
  name : String
  type : NativeType

/-- A struct declaration: its fields in the order they were declared. -/
structure StructSchema where
  name : String
  fields : List SchemaField
  nextSlot : Nat

namespace StructSchema

def empty (name : String) : StructSchema := ⟨name, [], 0⟩

/-- Declares a field in a slot of its own choice; the largest word is the last slot. -/
def fieldAt (schema : StructSchema) (slot : Nat) (name : String) (type : NativeType) : StructSchema :=
  { schema with
    fields := schema.fields ++ [⟨slot, name, type⟩]
    nextSlot := max schema.nextSlot (min (slot + 1) (wordBound - 1)) }

def field (schema : StructSchema) (name : String) (type : NativeType) : StructSchema :=
  schema.fieldAt schema.nextSlot name type

/-- The fields by slot, and in the order of declaration within a slot. -/
def sorted (schema : StructSchema) : List SchemaField :=
  schema.fields.mergeSort fun a b => a.slot ≤ b.slot

/-- Fields in slot order must claim the slots from `slot` on, once each and with new names. -/
def checkFields (struct : String) : (slot : Nat) → (previous : Option SchemaField) →
    (seen : List String) → List SchemaField → Except LayoutError Unit
  | _, _, _, [] => .ok ()
  | slot, previous, seen, field :: rest =>
    match previous.filter fun prior => prior.slot == field.slot with
    | some prior => .error (.slotCollision struct field.slot prior.name field.name)
    | none =>
      if field.slot ≠ slot then .error (.missingSlot struct slot)
      else if field.name ∈ seen then .error (.duplicateField struct field.name)
      else checkFields struct (slot + 1) (some field) (field.name :: seen) rest

structure Progress where
  size : Nat
  alignment : Nat

/-- A field embeds only structs that have bytes. -/
def resolveField (platform : Platform) (type : NativeType) : Except LayoutError AbiType :=
  match type with
  | .struct nested => if nested.size = 0 then .error (.emptyStruct nested.name) else type.resolve platform
  | .scalar _ => type.resolve platform

/-- Where the next field goes and how far the struct then reaches. -/
def placeField (struct : String) (progress : Progress) (type : AbiType) :
    Except LayoutError (Nat × Progress) :=
  match Alignment.forward? progress.size type.alignment with
  | none => .error (.sizeOverflow struct)
  | some offset =>
    match addWords? offset type.width with
    | none => .error (.sizeOverflow struct)
    | some size => .ok (offset, ⟨size, max progress.alignment type.alignment⟩)

def placeFields (struct : String) (platform : Platform) (progress : Progress) :
    List SchemaField → Except LayoutError (List LayoutField × Progress)
  | [] => .ok ([], progress)
  | field :: rest => do
    let type ← resolveField platform field.type
    let (offset, progress) ← placeField struct progress type
    let (placed, progress) ← placeFields struct platform progress rest
    .ok (⟨field.name, offset, field.type⟩ :: placed, progress)

/-- The layout on a platform; slots and names are checked before types. -/
def layout (schema : StructSchema) (platform : Platform) : Except LayoutError StructLayout := do
  checkFields schema.name 0 none [] schema.sorted
  let (fields, progress) ← placeFields schema.name platform ⟨0, 1⟩ schema.sorted
  match Alignment.forward? progress.size progress.alignment with
  | none => .error (.sizeOverflow schema.name)
  | some size => .ok ⟨schema.name, size, progress.alignment, platform, fields⟩

end StructSchema
end Interop
