import Interop.CType.Basic
import Interop.Memory.Address
import Interop.Number.Shortest

/-! Values outside native memory, and the types that they can be asked for as. -/
namespace Interop

/-- A value in its managed form; a struct is its bytes. -/
inductive Value where
  | i8 (value : Int8)
  | u8 (value : UInt8)
  | i16 (value : Int16)
  | u16 (value : UInt16)
  | i32 (value : Int32)
  | u32 (value : UInt32)
  | i64 (value : Int64)
  | u64 (value : UInt64)
  | f32 (value : Binary32)
  | f64 (value : Binary64)
  | address (value : Address)
  | struct (bytes : List UInt8)
deriving DecidableEq, Repr

namespace Value

def kind : Value → ManagedKind
  | i8 _ => .i8
  | u8 _ => .u8
  | i16 _ => .i16
  | u16 _ => .u16
  | i32 _ => .i32
  | u32 _ => .u32
  | i64 _ => .i64
  | u64 _ => .u64
  | f32 _ => .f32
  | f64 _ => .f64
  | address _ => .address
  | struct _ => .struct

def toInt? : Value → Option Int
  | i8 value => some value.toInt
  | u8 value => some value.toNat
  | i16 value => some value.toInt
  | u16 value => some value.toNat
  | i32 value => some value.toInt
  | u32 value => some value.toNat
  | i64 value => some value.toInt
  | u64 value => some value.toNat
  | address value => some value.toNat
  | f32 _ | f64 _ | struct _ => none

def text : Value → String
  | i8 value => toString value.toInt
  | u8 value => toString value.toNat
  | i16 value => toString value.toInt
  | u16 value => toString value.toNat
  | i32 value => toString value.toInt
  | u32 value => toString value.toNat
  | i64 value => toString value.toInt
  | u64 value => toString value.toNat
  | f32 value => value.text
  | f64 value => value.text
  | address value => value.text
  | struct bytes => "\x7b" ++ " ".intercalate (bytes.map Hex.byte) ++ "\x7d"

end Value

inductive ManagedType where
  | i8 | u8 | i16 | u16 | i32 | u32 | i64 | u64 | f32 | f64 | address | bytes
  | long | unsignedLong | size | ptrdiff
deriving DecidableEq, Repr

namespace ManagedType

def kind : ManagedType → ManagedKind
  | i8 => .i8
  | u8 => .u8
  | i16 => .i16
  | u16 => .u16
  | i32 => .i32
  | u32 => .u32
  | i64 | long | ptrdiff => .i64
  | u64 | unsignedLong | size => .u64
  | f32 => .f32
  | f64 => .f64
  | address => .address
  | bytes => .struct

/-- What a value of the type is; the C integers keep the managed form of theirs. -/
def Carrier : ManagedType → Type
  | i8 => Int8
  | u8 => UInt8
  | i16 => Int16
  | u16 => UInt16
  | i32 => Int32
  | u32 => UInt32
  | i64 | long | ptrdiff => Int64
  | u64 | unsignedLong | size => UInt64
  | f32 => Binary32
  | f64 => Binary64
  | address => Address
  | bytes => List UInt8

def toValue : (type : ManagedType) → type.Carrier → Value
  | i8, value => .i8 value
  | u8, value => .u8 value
  | i16, value => .i16 value
  | u16, value => .u16 value
  | i32, value => .i32 value
  | u32, value => .u32 value
  | i64, value => .i64 value
  | long, value => .i64 value
  | ptrdiff, value => .i64 value
  | u64, value => .u64 value
  | unsignedLong, value => .u64 value
  | size, value => .u64 value
  | f32, value => .f32 value
  | f64, value => .f64 value
  | address, value => .address value
  | bytes, value => .struct value

def ofValue? : (type : ManagedType) → Value → Option type.Carrier
  | i8, .i8 value => some value
  | u8, .u8 value => some value
  | i16, .i16 value => some value
  | u16, .u16 value => some value
  | i32, .i32 value => some value
  | u32, .u32 value => some value
  | i64, .i64 value => some value
  | long, .i64 value => some value
  | ptrdiff, .i64 value => some value
  | u64, .u64 value => some value
  | unsignedLong, .u64 value => some value
  | size, .u64 value => some value
  | f32, .f32 value => some value
  | f64, .f64 value => some value
  | address, .address value => some value
  | bytes, .struct value => some value
  | _, _ => none

theorem ofValue?_toValue (type : ManagedType) (value : type.Carrier) :
    type.ofValue? (type.toValue value) = some value := by
  cases type <;> rfl

theorem kind_toValue (type : ManagedType) (value : type.Carrier) :
    (type.toValue value).kind = type.kind := by
  cases type <;> rfl

end ManagedType
end Interop
