import Interop.Library.Routine

/-! Small native functions of many signatures, for trying calls out. -/
namespace Interop.Samples

def int : NativeType := .scalar .i32

def all : List Routine := [
  ⟨"negate", [.i32], some int, fun
    | _, [.i32 x] => some (.i32 (-x))
    | _, _ => none⟩,
  ⟨"sum3", [.i64, .i64, .i64], some (.scalar .i64), fun
    | _, [.i64 x, .i64 y, .i64 z] => some (.i64 (x + y + z))
    | _, _ => none⟩,
  ⟨"add_u8", [.u8, .u8], some (.scalar .u8), fun
    | _, [.u8 x, .u8 y] => some (.u8 (x + y))
    | _, _ => none⟩,
  ⟨"low_i8", [.i32], some (.scalar .i8), fun
    | _, [.i32 x] => some (.i8 x.toInt8)
    | _, _ => none⟩,
  ⟨"low_u16", [.u64], some (.scalar .u16), fun
    | _, [.u64 x] => some (.u16 x.toUInt16)
    | _, _ => none⟩,
  ⟨"weighted", [.u8, .i16, .f64], some (.scalar .f64), fun
    | _, [.u8 x, .i16 y, .f64 z] => some (.f64 (.addInt (x.toNat + 2 * y.toInt) z))
    | _, _ => none⟩,
  ⟨"half", [.f32], some (.scalar .f32), fun
    | _, [.f32 x] => some (.f32 (x.scale (-1)))
    | _, _ => none⟩,
  ⟨"same_address", [.pointer], some (.scalar .pointer), fun
    | _, [.address x] => some (.address x)
    | _, _ => none⟩,
  ⟨"nothing", [.i32], none, fun _ _ => none⟩,
  ⟨"seven", [], some (.scalar .u32), fun _ _ => some (.u32 7)⟩]

def find? (name : String) : Option Routine := all.find? fun routine => routine.name == name

end Interop.Samples
