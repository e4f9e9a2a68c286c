import Interop.Marshal.Signature
import Interop.Memory.Scratch

/-! Native code as it is entered: with a pointer to each argument and one to a buffer for the result.
It may change memory and what else it keeps, but not the scratch stack of its caller. -/
namespace Interop

inductive CallError where
  | arityMismatch (function : String) (expected got : Nat)
  | argument (function : String) (index : Nat) (source : MarshalError)
  | result (function : String) (source : MarshalError)
  | scratch (function : String) (source : MemoryError)
deriving DecidableEq, Repr

def CallError.message : CallError → String
  | arityMismatch function expected got => s!"{function}: expected {expected} arguments, got {got}"
  | argument function index source => s!"{function}: argument {index}: {source.message}"
  | result function source => s!"{function}: return value: {source.message}"
  | scratch function source => s!"{function}: no scratch memory for the call: {source.message}"

structure Surroundings (World : Type) where
  store : Store
  world : World

structure NativeCode (World : Type) where
  enter : (arguments : List Nat) → (result : Nat) → Surroundings World → Surroundings World

namespace Machine

variable {World ε : Type}

def call (code : NativeCode World) (arguments : List Nat) (result : Nat) :
    EStateM ε (Machine World) Unit :=
  modify fun machine =>
    let after := code.enter arguments result ⟨machine.store, machine.world⟩
    { machine with store := after.store, world := after.world }

end Machine
end Interop
