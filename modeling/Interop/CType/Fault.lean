import Interop.Platform

/-! Why a type, a struct or a signature has no layout. -/
namespace Interop

inductive LayoutError where
  | unknownType (name : String)
  | voidNotAllowed (place : String)
  | slotCollision (struct : String) (slot : Nat) (first second : String)
  | missingSlot (struct : String) (slot : Nat)
  | duplicateField (struct field : String)
  | platformMismatch (struct : String) (expected actual : Platform)
  | foreignPlatform (platform : Platform)
  | emptyStruct (name : String)
  | sizeOverflow (name : String)
deriving DecidableEq, Repr

def LayoutError.message : LayoutError → String
  | unknownType name => s!"Unknown native type: {name}"
  | voidNotAllowed place => s!"void is not allowed as {place}"
  | slotCollision struct slot first second =>
    s!"Struct {struct}: fields '{first}' and '{second}' both claim index {slot}"
  | missingSlot struct slot => s!"Struct {struct}: no field declared at index {slot}"
  | duplicateField struct field => s!"Struct {struct}: duplicate field name '{field}'"
  | platformMismatch struct expected actual =>
    s!"Struct {struct} was laid out for {expected.text}, not {actual.text}"
  | foreignPlatform platform =>
    s!"Calls can only be described for the host platform, not {platform.text}"
  | emptyStruct name => s!"Struct {name} has no fields and cannot be passed or embedded by value"
  | sizeOverflow name => s!"Struct {name} is too large to lay out"

end Interop
