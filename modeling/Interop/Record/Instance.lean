import Interop.Failure
import Interop.Record.StructType

/-! The fields of struct instances by name, nested structs, and arrays of instances. -/
namespace Interop

namespace Instance

def field (struct : Instance) (name : String) : Except Failure View := do
  let field ← (struct.type.requireField name).mapError .bind
  (struct.view.slice field.offset (struct.type.abiOf field).width).mapError .memory

def get (struct : Instance) (name : String) (store : Store) : Except Failure Value := do
  let field ← (struct.type.requireField name).mapError .bind
  ((struct.type.abiOf field).lift struct.view field.offset store).mapError .marshal

def set (struct : Instance) (name : String) (value : Value) : EStateM Failure Store Unit :=
  match struct.type.requireField name with
  | .error error => throw (.bind error)
  | .ok field =>
    ((struct.type.abiOf field).lower struct.type.narrowing struct.view field.offset value).adaptExcept
      .marshal

/-- The instance in a field that is a struct; it narrows as its parent does. -/
def nested (struct : Instance) (name : String) : Except Failure Instance := do
  let field ← (struct.type.requireField name).mapError .bind
  match field.type with
  | .scalar own => .error (.bind (.accessorMismatch struct.type.name name own.kind .struct))
  | .struct layout =>
    let view ← (struct.view.slice field.offset layout.size).mapError .memory
    .ok ⟨⟨layout, struct.type.narrowing⟩, view⟩

def toValue (struct : Instance) (store : Store) : Except MemoryError Value :=
  Value.struct <$> struct.view.toList store

end Instance

namespace StructArray

def length (array : StructArray) : Nat :=
  if array.type.size = 0 then 0 else array.view.size / array.type.size

/-- The element at an index; the reported offset stops at the largest word. -/
def get (array : StructArray) (index : Nat) : Except MemoryError Instance :=
  let size := array.type.size
  let refused := MemoryError.outOfBounds (min (index * size) (2 ^ 64 - 1)) size (array.length * size)
  if array.length ≤ index ∨ 2 ^ 64 ≤ index * size then .error refused
  else do
    let view ← array.view.slice (index * size) size
    .ok ⟨array.type, view⟩

def elements (array : StructArray) : List Instance :=
  (List.range array.length).filterMap fun index => (array.get index).toOption

end StructArray
end Interop
