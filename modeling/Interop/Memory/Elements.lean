import Interop.Memory.View

/-! A view as consecutive scalars of one type; a tail too short for another one is left alone. -/
namespace Interop

structure Elements where
  view : View
  type : ScalarType
  order : ByteOrder

namespace Elements

def length (elements : Elements) : Nat := elements.view.size / elements.type.width

/-- Where an element starts; the reported offset stops at the largest word. -/
def locate (elements : Elements) (index : Nat) : Except MemoryError Nat :=
  let offset := index * elements.type.width
  if offset < 2 ^ 64 ∧ index < elements.length then .ok offset
  else .error (.outOfBounds (min offset (2 ^ 64 - 1)) elements.type.width elements.view.size)

def get (elements : Elements) (index : Nat) (store : Store) :
    Except MemoryError elements.type.Pattern := do
  let offset ← elements.locate index
  elements.view.get elements.type offset elements.order store

def set (elements : Elements) (index : Nat) (bits : elements.type.Pattern) :
    EStateM MemoryError Store Unit :=
  match elements.locate index with
  | .ok offset => elements.view.set elements.type offset bits elements.order
  | .error reason => throw reason

/-- The elements in order, each of them read when it is asked for. -/
def iter (elements : Elements) : List (Store → Except MemoryError elements.type.Pattern) :=
  (List.range elements.length).map elements.get

def toList (elements : Elements) (store : Store) : Except MemoryError (List elements.type.Pattern) :=
  (List.range elements.length).mapM fun index => elements.get index store

end Elements
end Interop
