import Interop.Record.Instance

/-! Access to one field as one managed type, looked up and checked beforehand.
An accessor serves every instance whose layout is the same in structure. -/
namespace Interop

structure FieldAccessor (type : ManagedType) where
  layout : StructLayout
  field : LayoutField
  narrowing : Narrowing

def StructType.accessor (struct : StructType) (name : String) (type : ManagedType) :
    Except BindError (FieldAccessor type) := do
  let field ← struct.requireField name
  let expected := (struct.abiOf field).kind
  if expected = type.kind then .ok ⟨struct.layout, field, struct.narrowing⟩
  else .error (.accessorMismatch struct.name name expected type.kind)

namespace FieldAccessor

variable {type : ManagedType}

def abi (accessor : FieldAccessor type) : AbiType := accessor.layout.abiOf accessor.field

def check (accessor : FieldAccessor type) (struct : Instance) : Except MarshalError Unit :=
  if struct.type.layout.same accessor.layout then .ok ()
  else .error (.typeMismatch s!"struct {accessor.layout.name}" s!"struct {struct.type.name}")

def get (accessor : FieldAccessor type) (struct : Instance) (store : Store) :
    Except MarshalError type.Carrier := do
  accessor.check struct
  let value ← accessor.abi.lift struct.view accessor.field.offset store
  match type.ofValue? value with
  | some result => .ok result
  | none => .error (.typeMismatch type.kind.text value.kind.text)

def set (accessor : FieldAccessor type) (struct : Instance) (value : type.Carrier) :
    EStateM MarshalError Store Unit :=
  match accessor.check struct with
  | .error error => throw error
  | .ok () =>
    accessor.abi.lower accessor.narrowing struct.view accessor.field.offset (type.toValue value)

end FieldAccessor
end Interop
