import Interop.Memory.Cursor

/-! Putting values one after the other into a view, alone or as items that may be grouped in blocks. -/
namespace Interop

def View.encoder (view : View) (store : Store) : Except MemoryError Cursor := do
  view.requireWritable
  .ok ⟨store, view, 0⟩

namespace Encoder

def step (width : Nat) (action : View → Nat → EStateM MemoryError Store Unit) :
    EStateM MemoryError Cursor Unit :=
  Cursor.step .overflow width action

def skip (count : Nat) : EStateM MemoryError Cursor Unit :=
  step count fun _ _ => pure ()

def put (type : ScalarType) (bits : type.Pattern) (order : ByteOrder) : EStateM MemoryError Cursor Unit :=
  step type.width fun view start => view.set type start bits order

def putBytes (bytes : List UInt8) : EStateM MemoryError Cursor Unit :=
  step bytes.length fun view start => view.writeBytes start bytes

def putView (source : View) : EStateM MemoryError Cursor Unit :=
  step source.size fun view start => do
    let target ← Store.observe fun _ => view.slice start source.size
    target.copyFrom source

inductive Item where
  | scalar (type : ScalarType) (bits : type.Pattern) (order : ByteOrder)
  | bytes (bytes : List UInt8)
  | skip (count : Nat)
  | view (source : View)
  | block (items : List Item)

inductive Report where
  | done
  | block (advanced : Nat) (inner : List Report)

mutual

def Item.put : Item → EStateM MemoryError Cursor Report
  | .scalar type bits order => do
    Encoder.put type bits order
    return .done
  | .bytes bytes => do
    putBytes bytes
    return .done
  | .skip count => do
    Encoder.skip count
    return .done
  | .view source => do
    putView source
    return .done
  | .block items => do
    let (advanced, inner) ← Cursor.advanceOf (putItems items)
    return .block advanced inner

def putItems : List Item → EStateM MemoryError Cursor (List Report)
  | [] => return []
  | item :: rest => do
    let report ← item.put
    return report :: (← putItems rest)

end

end Encoder
end Interop
