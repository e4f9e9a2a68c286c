import Interop.Memory.Cursor

/-! Taking values one after the other from a view, alone or as items that may be grouped in blocks. -/
namespace Interop

def View.decoder (view : View) (store : Store) : Except MemoryError Cursor := do
  view.requireReadable
  .ok ⟨store, view, 0⟩

namespace Decoder

def step {α : Type} (width : Nat) (action : View → Nat → EStateM MemoryError Store α) :
    EStateM MemoryError Cursor α :=
  Cursor.step .underflow width action

def skip (count : Nat) : EStateM MemoryError Cursor Unit :=
  step count fun _ _ => pure ()

def next (type : ScalarType) (order : ByteOrder) : EStateM MemoryError Cursor type.Pattern :=
  step type.width fun view start => Store.observe (view.get type start order)

def nextBytes (count : Nat) : EStateM MemoryError Cursor (List UInt8) :=
  step count fun view start => Store.observe (view.readBytes start count)

def nextInto (target : View) : EStateM MemoryError Cursor Unit :=
  step target.size fun view start => do
    let source ← Store.observe fun _ => view.slice start target.size
    target.copyFrom source

/-- What is taken at one position; a block counts the bytes of its items. -/
inductive Item where
  | scalar (type : ScalarType) (order : ByteOrder)
  | bytes (count : Nat)
  | skip (count : Nat)
  | view (target : View)
  | block (items : List Item)

inductive Taken where
  | scalar (type : ScalarType) (bits : type.Pattern)
  | bytes (bytes : List UInt8)
  | done
  | block (consumed : Nat) (inner : List Taken)

mutual

def Item.take : Item → EStateM MemoryError Cursor Taken
  | .scalar type order => return .scalar type (← next type order)
  | .bytes count => return .bytes (← nextBytes count)
  | .skip count => do
    Decoder.skip count
    return .done
  | .view target => do
    nextInto target
    return .done
  | .block items => do
    let (consumed, inner) ← Cursor.advanceOf (takeItems items)
    return .block consumed inner

def takeItems : List Item → EStateM MemoryError Cursor (List Taken)
  | [] => return []
  | item :: rest => do
    let taken ← item.take
    return taken :: (← takeItems rest)

end

end Decoder
end Interop
