import Interop.CType.Basic
import Interop.CType.Fault
import Interop.Text.Blank

/-! The names of scalar types, as they are written in declarations. -/
namespace Interop.CScalar

def ofName? : String → Option CScalar
  | "i8" | "int8_t" | "char" | "signed char" => some i8
  | "u8" | "uint8_t" | "unsigned char" | "uchar" => some u8
  | "i16" | "int16_t" | "short" | "signed short" | "short int" => some i16
  | "u16" | "uint16_t" | "unsigned short" | "ushort" => some u16
  | "i32" | "int32_t" | "int" | "signed" | "signed int" => some i32
  | "u32" | "uint32_t" | "unsigned" | "unsigned int" | "uint" => some u32
  | "i64" | "int64_t" | "long long" | "signed long long" => some i64
  | "u64" | "uint64_t" | "unsigned long long" => some u64
  | "f32" | "float" => some f32
  | "f64" | "double" => some f64
  | "long" | "signed long" | "long int" | "c_long" => some long
  | "unsigned long" | "ulong" | "c_ulong" => some unsignedLong
  | "size_t" | "usize" | "uintptr_t" => some size
  | "ptrdiff_t" | "isize" | "ssize_t" | "intptr_t" => some ptrdiff
  | "pointer" | "ptr" => some pointer
  | _ => none

/-- The scalar that a text names; whatever ends in a star is a pointer. -/
def ofText (text : List Char) : Except LayoutError CScalar :=
  let name := Text.normalize text
  if name.getLast? = some '*' then .ok pointer
  else match ofName? (String.ofList name) with
    | some scalar => .ok scalar
    | none => .error (.unknownType (String.ofList name))

theorem ofText_text (scalar : CScalar) : ofText scalar.text.toList = .ok scalar := by
  cases scalar <;> rfl

end Interop.CScalar

namespace Interop.NativeType

def ofText (text : List Char) : Except LayoutError NativeType :=
  scalar <$> CScalar.ofText text

/-- A struct has one shape, on the platform that it was laid out for. -/
def resolve (type : NativeType) (platform : Platform) : Except LayoutError AbiType :=
  match type with
  | scalar _ => .ok ⟨type, platform⟩
  | struct layout =>
    if layout.platform = platform then .ok ⟨type, platform⟩
    else .error (.platformMismatch layout.name layout.platform platform)

end Interop.NativeType
