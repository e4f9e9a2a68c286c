import Interop.Call.Downcall

/-! Handlers that native code can call.
A handler that fails to give a value of the result type leaves zeros for its caller. -/
namespace Interop

/-- A function over values, with the signature that native code calls it by. It may read and write memory, too. -/
structure UpcallHandler (World : Type) where
  name : String
  signature : Signature
  respond : List Value → StateM (Surroundings World) (Option Value)

namespace UpcallHandler

variable {World : Type}

def new (name : String) (signature : Signature)
    (respond : List Value → StateM (Surroundings World) (Option Value)) :
    Except LayoutError (UpcallHandler World) := do
  signature.requireHost
  .ok ⟨name, signature, respond⟩

def liftArguments (handler : UpcallHandler World) (store : Store) :
    (index : Nat) → List (AbiType × Nat) → Except CallError (List Value)
  | _, [] => .ok []
  | index, (type, pointer) :: rest => do
    let view := View.atAddress pointer type.width false
    let value ← (type.lift view 0 store).mapError (.argument handler.name index)
    let values ← handler.liftArguments store (index + 1) rest
    .ok (value :: values)

def resultBuffer (type : AbiType) (pointer : Nat) : View :=
  .atAddress pointer (max type.width Signature.registerWidth) true

/-- Stores what the handler gave, or zeros with the reason why it could not be stored. -/
def storeResult (handler : UpcallHandler World) (result : Nat) (given : Option Value) :
    EStateM CallError Store Unit :=
  match handler.signature.result with
  | none => pure ()
  | some type =>
    let buffer := resultBuffer type result
    let stored : EStateM MarshalError Store Unit :=
      match given with
      | some value => handler.signature.lowerResult buffer value
      | none => throw (.typeMismatch type.text "no value")
    fun store =>
      match stored store with
      | .ok () after => .ok () after
      | .error error after => .error (.result handler.name error) (after.fill buffer.start buffer.size 0)

/-- Lifts the arguments, runs the handler once and stores its result. -/
def call (handler : UpcallHandler World) (arguments : List Nat) (result : Nat) :
    EStateM CallError (Surroundings World) Unit :=
  fun surroundings =>
    match handler.liftArguments surroundings.store 0 (handler.signature.params.zip arguments) with
    | .error error => .error error surroundings
    | .ok values =>
      let (given, inside) := (handler.respond values).run surroundings
      match handler.storeResult result given inside.store with
      | .ok () store => .ok () { inside with store }
      | .error error store => .error error { inside with store }

/-- The handler as native code, which cannot see why a call failed. -/
def code (handler : UpcallHandler World) : NativeCode World where
  enter arguments result surroundings :=
    match handler.call arguments result surroundings with
    | .ok () after | .error _ after => after

end UpcallHandler
end Interop
