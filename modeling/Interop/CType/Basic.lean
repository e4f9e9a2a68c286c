import Interop.Number.Alignment
import Interop.Platform

/-! C types and the shape they take on a platform.
A struct type carries its layout, so a type tree holds every offset below it. -/
namespace Interop

/-- How a value travels through registers and memory. -/
inductive AbiClass where
  | signed
  | unsigned
  | float
  | address
  | struct
deriving DecidableEq, Repr

/-- How a narrow integer is widened to its managed value. -/
inductive Extension where
  | none
  | sign
  | zero
deriving DecidableEq, Repr

inductive ManagedKind where
  | i8 | u8 | i16 | u16 | i32 | u32 | i64 | u64 | f32 | f64 | address | struct
deriving DecidableEq, Repr

namespace ManagedKind

/-- Bytes of a managed value; a struct has no fixed number. -/
def width? : ManagedKind → Option Nat
  | i8 | u8 => some 1
  | i16 | u16 => some 2
  | i32 | u32 | f32 => some 4
  | i64 | u64 | f64 | address => some 8
  | struct => none

def text : ManagedKind → String
  | i8 => "i8"
  | u8 => "u8"
  | i16 => "i16"
  | u16 => "u16"
  | i32 => "i32"
  | u32 => "u32"
  | i64 => "i64"
  | u64 => "u64"
  | f32 => "f32"
  | f64 => "f64"
  | address => "address"
  | struct => "struct bytes"

end ManagedKind

/-- The C types that are not made of others. -/
inductive CScalar where
  | i8 | u8 | i16 | u16 | i32 | u32 | i64 | u64 | f32 | f64
  | long | unsignedLong | size | ptrdiff | pointer
deriving DecidableEq, Repr

namespace CScalar

/-- Bytes on a platform, which are also the alignment. -/
def width (platform : Platform) : CScalar → Nat
  | i8 | u8 => 1
  | i16 | u16 => 2
  | i32 | u32 | f32 => 4
  | i64 | u64 | f64 => 8
  | long | unsignedLong => platform.long.bytes
  | size | ptrdiff | pointer => platform.pointer.bytes

def abiClass : CScalar → AbiClass
  | i8 | i16 | i32 | i64 | long | ptrdiff => .signed
  | u8 | u16 | u32 | u64 | unsignedLong | size => .unsigned
  | f32 | f64 => .float
  | pointer => .address

/-- Integers of platform-dependent width are managed in eight bytes. -/
def kind : CScalar → ManagedKind
  | i8 => .i8
  | u8 => .u8
  | i16 => .i16
  | u16 => .u16
  | i32 => .i32
  | u32 => .u32
  | i64 | long | ptrdiff => .i64
  | u64 | unsignedLong | size => .u64
  | f32 => .f32
  | f64 => .f64
  | pointer => .address

def isPlatformDependent : CScalar → Bool
  | long | unsignedLong | size | ptrdiff | pointer => true
  | _ => false

/-- Only an integer or address narrower than its managed form is widened. -/
def extension (platform : Platform) (scalar : CScalar) : Extension :=
  if scalar.kind.width? = some (scalar.width platform) then .none
  else match scalar.abiClass with
    | .signed => .sign
    | .unsigned | .address => .zero
    | .float | .struct => .none

def text : CScalar → String
  | i8 => "int8_t"
  | u8 => "uint8_t"
  | i16 => "int16_t"
  | u16 => "uint16_t"
  | i32 => "int32_t"
  | u32 => "uint32_t"
  | i64 => "int64_t"
  | u64 => "uint64_t"
  | f32 => "float"
  | f64 => "double"
  | long => "long"
  | unsignedLong => "unsigned long"
  | size => "size_t"
  | ptrdiff => "ptrdiff_t"
  | pointer => "void*"

end CScalar

mutual

inductive NativeType where
  | scalar (type : CScalar)
  | struct (layout : StructLayout)

structure LayoutField where
  name : String
  offset : Nat
  type : NativeType

structure StructLayout where
  name : String
  size : Nat
  alignment : Nat
  platform : Platform
  fields : List LayoutField

end

mutual

def NativeType.isPlatformDependent : NativeType → Bool
  | .scalar type => type.isPlatformDependent
  | .struct layout => layout.isPlatformDependent

def LayoutField.isPlatformDependent : LayoutField → Bool
  | ⟨_, _, type⟩ => type.isPlatformDependent

def StructLayout.isPlatformDependent : StructLayout → Bool
  | ⟨_, _, _, _, fields⟩ => anyPlatformDependent fields

def anyPlatformDependent : List LayoutField → Bool
  | [] => false
  | field :: rest => field.isPlatformDependent || anyPlatformDependent rest

end

mutual

def NativeType.same : NativeType → NativeType → Bool
  | .scalar a, .scalar b => a == b
  | .struct a, .struct b => a.same b
  | _, _ => false

def LayoutField.same : LayoutField → LayoutField → Bool
  | ⟨name, offset, type⟩, ⟨name', offset', type'⟩ =>
    name == name' && offset == offset' && type.same type'

def StructLayout.same : StructLayout → StructLayout → Bool
  | ⟨name, size, alignment, platform, fields⟩, ⟨name', size', alignment', platform', fields'⟩ =>
    name == name' && size == size' && alignment == alignment' && platform == platform'
      && sameFields fields fields'

def sameFields : List LayoutField → List LayoutField → Bool
  | [], [] => true
  | a :: rest, b :: rest' => a.same b && sameFields rest rest'
  | _, _ => false

end

namespace StructLayout

def field? (layout : StructLayout) (name : String) : Option LayoutField :=
  layout.fields.find? fun field => field.name == name

def offsets (layout : StructLayout) : List Nat := layout.fields.map (·.offset)

def elementOffset? (layout : StructLayout) (index : Nat) : Option Nat :=
  mulWords? index layout.size

end StructLayout

namespace NativeType

def text : NativeType → String
  | .scalar type => type.text
  | .struct layout => "struct " ++ layout.name

def kind : NativeType → ManagedKind
  | .scalar type => type.kind
  | .struct _ => .struct

end NativeType

/-- A type on a platform that it has been resolved for. -/
structure AbiType where
  native : NativeType
  platform : Platform

namespace AbiType

def width (type : AbiType) : Nat :=
  match type.native with
  | .scalar own => own.width type.platform
  | .struct layout => layout.size

def alignment (type : AbiType) : Nat :=
  match type.native with
  | .scalar own => own.width type.platform
  | .struct layout => layout.alignment

def abiClass (type : AbiType) : AbiClass :=
  match type.native with
  | .scalar own => own.abiClass
  | .struct _ => .struct

def extension (type : AbiType) : Extension :=
  match type.native with
  | .scalar own => own.extension type.platform
  | .struct _ => .none

def kind (type : AbiType) : ManagedKind := type.native.kind

def text (type : AbiType) : String := type.native.text

end AbiType

def StructLayout.abiOf (layout : StructLayout) (field : LayoutField) : AbiType :=
  ⟨field.type, layout.platform⟩

end Interop
