import Interop.Memory.View

/-! A position that moves through a view while bytes are put or taken.
A step claims its width first; a step that is refused moves nothing. -/
namespace Interop

/-- A view in progress, with the memory that it is a view of. -/
structure Cursor where
  store : Store
  view : View
  position : Nat

namespace Cursor

def remaining (cursor : Cursor) : Nat := cursor.view.size - cursor.position

def onStore {ε α : Type} (action : EStateM ε Store α) : EStateM ε Cursor α :=
  fun cursor =>
    match action cursor.store with
    | .ok result store => .ok result { cursor with store }
    | .error reason store => .error reason { cursor with store }

/-- Acts on the next `width` bytes and moves past them; `refuse` says why there are too few. -/
def step {α : Type} (refuse : (position width size : Nat) → MemoryError) (width : Nat)
    (action : View → Nat → EStateM MemoryError Store α) : EStateM MemoryError Cursor α := do
  let cursor ← EStateM.get
  if width ≤ cursor.remaining then
    let result ← onStore (action cursor.view cursor.position)
    modify fun after => { after with position := cursor.position + width }
    return result
  else throw (refuse cursor.position width cursor.view.size)

/-- Runs a block and counts the bytes that it moved past. -/
def advanceOf {ε α : Type} (block : EStateM ε Cursor α) : EStateM ε Cursor (Nat × α) := do
  let before := (← EStateM.get).position
  let result ← block
  return ((← EStateM.get).position - before, result)

end Cursor
end Interop
