import Interop.Memory.Scalar
import Interop.Memory.Store
import Interop.Number.Words

/-! Bounded views of memory that carry permissions.
Every access asks for its permission first and for its bounds second, and only then touches a byte. -/
namespace Interop

/-- The bytes from `start` on; a native view lies at an address that its users may see. -/
structure View where
  start : Nat
  size : Nat
  readable : Bool
  writable : Bool
  native : Bool
deriving DecidableEq, Repr

namespace View

def heap (start size : Nat) (writable : Bool) : View := ⟨start, size, true, writable, false⟩

def atAddress (start size : Nat) (writable : Bool) : View := ⟨start, size, true, writable, true⟩

def isEmpty (view : View) : Bool := view.size == 0

def address? (view : View) : Option Address :=
  if view.native then some (Address.ofNat view.start) else none

def readOnly (view : View) : View := { view with writable := false }

def requireReadable (view : View) : Except MemoryError Unit :=
  if view.readable then .ok () else .error .notReadable

def requireWritable (view : View) : Except MemoryError Unit :=
  if view.writable then .ok () else .error .notWritable

/-- A view without an address counts as aligned. -/
def requireAlignedTo (view : View) (alignment : Nat) : Except MemoryError Unit := do
  checkAlignment alignment
  match view.address? with
  | some address => address.requireAlignedTo alignment
  | none => .ok ()

/-- The address of `offset`, where `width` bytes from there lie inside the view. -/
def locate (view : View) (offset width : Nat) : Except MemoryError Nat :=
  if offset + width ≤ view.size then .ok (view.start + offset)
  else .error (.outOfBounds offset width view.size)

/-- The same on words, where the end of the range may lie beyond the last one. -/
def executeLocate (view : View) (offset width : UInt64) : Except MemoryError Nat :=
  match Words.checkedAdd offset width with
  | some stop =>
    if stop ≤ UInt64.ofNat view.size then .ok (view.start + offset.toNat)
    else .error (.outOfBounds offset.toNat width.toNat view.size)
  | none => .error (.outOfBounds offset.toNat width.toNat view.size)

def slice (view : View) (offset size : Nat) : Except MemoryError View := do
  let start ← view.locate offset size
  .ok { view with start := start, size := size }

def locateRead (view : View) (offset width : Nat) : Except MemoryError Nat := do
  view.requireReadable
  view.locate offset width

def locateWrite (view : View) (offset width : Nat) : Except MemoryError Nat := do
  view.requireWritable
  view.locate offset width

def readBytes (view : View) (offset count : Nat) (store : Store) : Except MemoryError (List UInt8) := do
  let start ← view.locateRead offset count
  .ok (store.read start count)

def writeBytes (view : View) (offset : Nat) (bytes : List UInt8) : EStateM MemoryError Store Unit :=
  Store.guarded (view.locateWrite offset bytes.length) fun start store => store.write start bytes

def get (view : View) (type : ScalarType) (offset : Nat) (order : ByteOrder) (store : Store) :
    Except MemoryError type.Pattern := do
  let start ← view.locateRead offset type.width
  .ok (type.decode order (store.read start type.width))

def set (view : View) (type : ScalarType) (offset : Nat) (bits : type.Pattern) (order : ByteOrder) :
    EStateM MemoryError Store Unit :=
  Store.guarded (view.locateWrite offset type.width) fun start store =>
    store.write start (type.encode order bits)

def toList (view : View) (store : Store) : Except MemoryError (List UInt8) :=
  view.readBytes 0 view.size store

def fill (view : View) (byte : UInt8) : EStateM MemoryError Store Unit :=
  Store.guarded view.requireWritable fun _ store => store.fill view.start view.size byte

def copyFrom (view source : View) : EStateM MemoryError Store Unit :=
  Store.guarded
    (do view.requireWritable
        source.requireReadable
        view.locate 0 source.size)
    fun target store => store.copy source.start target source.size

def copyTo (view target : View) : EStateM MemoryError Store Unit := target.copyFrom view

/-- Fills the view from an address that the caller vouches for. -/
def copyFromAddress (view : View) (source : Nat) : EStateM MemoryError Store Unit :=
  Store.guarded view.requireWritable fun _ store => store.copy source view.start view.size

def copyToAddress (view : View) (target : Nat) : EStateM MemoryError Store Unit :=
  Store.guarded view.requireReadable fun _ store => store.copy view.start target view.size

def text (view : View) : String :=
  let address := match view.address? with
    | some address => "Some(" ++ address.text ++ ")"
    | none => "None"
  "Memory \x7b size: " ++ toString view.size ++ ", readable: " ++ toString view.readable
    ++ ", writable: " ++ toString view.writable ++ ", address: " ++ address ++ " \x7d"

end View

namespace Store

/-- Reads a scalar at an address that the caller vouches for. -/
def peek (store : Store) (address : Nat) (type : ScalarType) (order : ByteOrder) : type.Pattern :=
  type.decode order (store.read address type.width)

def poke (store : Store) (address : Nat) (type : ScalarType) (order : ByteOrder)
    (bits : type.Pattern) : Store :=
  store.write address (type.encode order bits)

def cString (store : Store) (address : Nat) : (limit : Nat) → List UInt8
  | 0 => []
  | limit + 1 =>
    let byte := store.byteAt address
    if byte = 0 then [] else byte :: store.cString (address + 1) limit

end Store
end Interop
