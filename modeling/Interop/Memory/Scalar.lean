import Interop.Memory.ByteOrder

/-! The plain values that memory holds, each a bit pattern of one, two, four or eight bytes.
Main statement: reading back what was written in the same byte order gives the same pattern. -/
namespace Interop

inductive ScalarType where
  | u8 | i8 | u16 | i16 | u32 | i32 | u64 | i64 | usize | isize | f32 | f64 | address
deriving DecidableEq, Repr

namespace ScalarType

def width : ScalarType → Nat
  | u8 | i8 => 1
  | u16 | i16 => 2
  | u32 | i32 | f32 => 4
  | u64 | i64 | usize | isize | f64 | address => 8

def isSigned : ScalarType → Bool
  | i8 | i16 | i32 | i64 | isize => true
  | _ => false

abbrev Pattern (type : ScalarType) := BitVec (8 * type.width)

/-- The number that a pattern of this type stands for, floating-point patterns by their bits. -/
def toInt (type : ScalarType) (bits : type.Pattern) : Int :=
  if type.isSigned then bits.toInt else bits.toNat

def encode (type : ScalarType) (order : ByteOrder) (bits : type.Pattern) : List UInt8 :=
  order.arrange (Bytes.ofNat type.width bits.toNat)

def decode (type : ScalarType) (order : ByteOrder) (bytes : List UInt8) : type.Pattern :=
  BitVec.ofNat _ (Bytes.toNat (order.arrange bytes))

theorem width_pos (type : ScalarType) : 0 < type.width := by
  cases type <;> decide

@[simp] theorem length_encode (type : ScalarType) (order : ByteOrder) (bits : type.Pattern) :
    (type.encode order bits).length = type.width := by
  simp [encode]

theorem decode_encode (type : ScalarType) (order : ByteOrder) (bits : type.Pattern) :
    type.decode order (type.encode order bits) = bits := by
  apply BitVec.eq_of_toNat_eq
  have range : 256 ^ type.width = 2 ^ (8 * type.width) := by
    rw [Nat.pow_mul]
  simp [decode, encode, Bytes.toNat_ofNat, range]

end ScalarType
end Interop
