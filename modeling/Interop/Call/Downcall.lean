import Interop.Call.Code

/-! Calls into native code: every argument is lowered into scratch memory before the code is entered.
A call that is refused on the way does not enter the code at all. -/
namespace Interop

structure Downcall (World : Type) where
  name : String
  signature : Signature
  code : NativeCode World

namespace Downcall

variable {World : Type}

/-- Only signatures of the host can be called. -/
def new (name : String) (signature : Signature) (code : NativeCode World) :
    Except LayoutError (Downcall World) := do
  signature.requireHost
  .ok ⟨name, signature, code⟩

/-- The least size and alignment of an argument's slot. -/
def slotWidth : Nat := 8

def resultAlignment : Nat := 16

def checkArity (downcall : Downcall World) (args : List Value) : Except CallError Unit :=
  if args.length = downcall.signature.arity then .ok ()
  else .error (.arityMismatch downcall.name downcall.signature.arity args.length)

def placeArgument (downcall : Downcall World) (frame : Frame) (index : Nat) (type : AbiType)
    (value : Value) : EStateM CallError (Machine World) View := do
  let slot ← (Scratch.allocate frame (max type.width slotWidth)
    (max type.alignment slotWidth)).adaptExcept (.scratch downcall.name)
  Machine.onStore ((type.lower downcall.signature.narrowing slot 0 value).adaptExcept
    (.argument downcall.name index))
  return slot

def placeArguments (downcall : Downcall World) (frame : Frame) :
    (index : Nat) → List (AbiType × Value) → EStateM CallError (Machine World) (List View)
  | _, [] => return []
  | index, (type, value) :: rest => do
    let slot ← downcall.placeArgument frame index type value
    return slot :: (← downcall.placeArguments frame (index + 1) rest)

structure Prepared where
  slots : List View
  buffer : View

def prepare (downcall : Downcall World) (frame : Frame) (args : List Value) :
    EStateM CallError (Machine World) Prepared := do
  match downcall.checkArity args with
  | .error error => throw error
  | .ok () =>
    let slots ← downcall.placeArguments frame 0 (downcall.signature.params.zip args)
    let buffer ← (Scratch.allocate frame downcall.signature.resultBufferSize
      resultAlignment).adaptExcept (.scratch downcall.name)
    return ⟨slots, buffer⟩

/-- Calls with scratch memory from a frame, which must be the innermost. -/
def invokeIn (downcall : Downcall World) (frame : Frame) (args : List Value) :
    EStateM CallError (Machine World) (Option Value) := do
  let prepared ← downcall.prepare frame args
  Machine.call downcall.code (prepared.slots.map (·.start)) prepared.buffer.start
  Machine.onStore (Store.observe fun store =>
    (downcall.signature.liftResult prepared.buffer store).mapError (.result downcall.name))

/-- Calls in a frame of its own; a wrong number of arguments is refused before there is one. -/
def invoke (downcall : Downcall World) (args : List Value) :
    EStateM CallError (Machine World) (Option Value) := do
  match downcall.checkArity args with
  | .error error => throw error
  | .ok () => Scratch.withFrame fun frame => downcall.invokeIn frame args

end Downcall
end Interop
