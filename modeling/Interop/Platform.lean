/-! Data models of C: how many bytes a pointer and a long take.
A long is never wider than a pointer, which leaves three models; the host is LP64. -/
namespace Interop

inductive Width where
  | four
  | eight
deriving DecidableEq, Repr

namespace Width

def bytes : Width → Nat
  | four => 4
  | eight => 8

def bits (width : Width) : Nat := 8 * width.bytes

def ofBytes? : Nat → Option Width
  | 4 => some four
  | 8 => some eight
  | _ => none

def text (width : Width) : String := s!"{width.bits}-bit"

theorem ofBytes?_eq_some_iff {count : Nat} {width : Width} :
    ofBytes? count = some width ↔ count = width.bytes := by
  constructor
  · intro found
    unfold ofBytes? at found
    split at found <;> simp_all [bytes] <;> cases found <;> rfl
  · rintro rfl
    cases width <;> rfl

end Width

/-- A data model, named by which of int, long and pointer share the larger width. -/
inductive Platform where
  | ilp32
  | lp64
  | llp64
deriving DecidableEq, Repr

namespace Platform

def pointer : Platform → Width
  | ilp32 => .four
  | lp64 | llp64 => .eight

def long : Platform → Width
  | ilp32 | llp64 => .four
  | lp64 => .eight

def host : Platform := lp64

def isHost (platform : Platform) : Bool := platform == host

def ofWidths? : Width → Width → Option Platform
  | .four, .four => some ilp32
  | .eight, .eight => some lp64
  | .eight, .four => some llp64
  | .four, .eight => none

def ofBytes? (pointer long : Nat) : Option Platform := do
  ofWidths? (← Width.ofBytes? pointer) (← Width.ofBytes? long)

def name : Platform → String
  | ilp32 => "ILP32"
  | lp64 => "LP64"
  | llp64 => "LLP64"

def text (platform : Platform) : String :=
  s!"{platform.name} (pointer {platform.pointer.text}, long {platform.long.text})"

theorem ofWidths?_eq_some_iff {pointer long : Width} {platform : Platform} :
    ofWidths? pointer long = some platform ↔ platform.pointer = pointer ∧ platform.long = long := by
  cases pointer <;> cases long <;> cases platform <;> decide

theorem long_le_pointer (platform : Platform) : platform.long.bytes ≤ platform.pointer.bytes := by
  cases platform <;> decide

end Platform
end Interop
