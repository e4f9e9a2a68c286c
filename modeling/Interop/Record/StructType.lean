import Interop.Declaration.Basic
import Interop.Memory.Allocation

/-! Struct types bound to a layout and a narrowing policy, and the memory that instances of them need. -/
namespace Interop

structure StructType where
  layout : StructLayout
  narrowing : Narrowing

/-- A view that holds one instance. -/
structure Instance where
  type : StructType
  view : View

/-- A view that holds instances one after the other. -/
structure StructArray where
  type : StructType
  view : View

namespace StructType

def ofLayout (layout : StructLayout) : StructType := ⟨layout, .checked⟩

def compile (schema : StructSchema) (platform : Platform) : Except BindError StructType :=
  match schema.layout platform with
  | .ok layout => .ok (ofLayout layout)
  | .error error => .error (.layout error)

def withNarrowing (type : StructType) (narrowing : Narrowing) : StructType := { type with narrowing }

def name (type : StructType) : String := type.layout.name

def size (type : StructType) : Nat := type.layout.size

def alignment (type : StructType) : Nat := type.layout.alignment

def padLeft (width : Nat) (text : String) : String :=
  String.ofList (List.replicate (width - text.length) ' ') ++ text

def text (type : StructType) : String :=
  let field (field : LayoutField) : String :=
    s!"  {padLeft 4 (toString field.offset)}  {field.name}: {field.type.text}\n"
  s!"struct {type.name} (size {type.size}, alignment {type.alignment})\n"
    ++ String.join (type.layout.fields.map field)

/-- One instance takes exactly the bytes of the struct. -/
def wrap (type : StructType) (view : View) : Except MemoryError Instance :=
  if view.size ≠ type.size then .error (.sizeMismatch type.size view.size)
  else do
    view.requireAlignedTo type.alignment
    .ok ⟨type, view⟩

/-- Bytes after the last whole instance are left alone. -/
def wrapArray (type : StructType) (view : View) : Except MemoryError StructArray := do
  view.requireAlignedTo type.alignment
  .ok ⟨type, view⟩

def allocate (type : StructType) : EStateM MemoryError Store Allocation :=
  Allocation.new type.size type.alignment

def allocateArray (type : StructType) (count : Nat) : EStateM MemoryError Store Allocation :=
  match mulWords? type.size count with
  | some size => Allocation.new size type.alignment
  | none => throw (.allocationFailed (wordBound - 1) type.alignment)

def requireField (type : StructType) (name : String) : Except BindError LayoutField :=
  match type.layout.field? name with
  | some field => .ok field
  | none => .error (.unknownField type.name name)

def abiOf (type : StructType) (field : LayoutField) : AbiType := type.layout.abiOf field

end StructType

def Declarations.structType? (declarations : Declarations) (name : String) : Option StructType :=
  (declarations.struct? name).map .ofLayout

end Interop
