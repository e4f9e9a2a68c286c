import Interop.Call.Upcall

/-! Native code given by a function on values, entered through the calling convention. -/
namespace Interop

structure Routine where
  name : String
  params : List CScalar
  result : Option NativeType
  compute : Store → List Value → Option Value

namespace Routine

def paramTypes (routine : Routine) : List NativeType := routine.params.map .scalar

def signature (routine : Routine) : Signature where
  params := routine.paramTypes.map fun type => ⟨type, .host⟩
  result := routine.result.map fun type => ⟨type, .host⟩
  platform := .host
  narrowing := .wrap

def handler {World : Type} (routine : Routine) : UpcallHandler World :=
  ⟨routine.name, routine.signature, fun args => return routine.compute (← get).store args⟩

def code {World : Type} (routine : Routine) : NativeCode World := routine.handler.code

def find? {World : Type} (routines : List Routine) (name : String) : Option (NativeCode World) :=
  (routines.find? fun routine => routine.name == name).map code

end Routine
end Interop
