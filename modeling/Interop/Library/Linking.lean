import Interop.Call.Downcall
import Interop.Failure

/-! Libraries of native code, and the functions that are bound from them by name.
Linking binds all functions of a list or none. -/
namespace Interop

structure NativeLibrary (World : Type) where
  name : String
  code? : String → Option (NativeCode World)

structure LinkedLibrary (World : Type) where
  name : String
  functions : List (Downcall World)

namespace NativeLibrary

variable {World : Type}

/-- The library of the empty name is the process itself, and there is no other. -/
def load (process : String → Option (NativeCode World)) (name : String) :
    Except BindError (NativeLibrary World) :=
  if name = "" then .ok ⟨name, process⟩
  else .error (.libraryNotFound name "no such library")

def displayName (library : NativeLibrary World) : String :=
  if library.name = "" then "<process>" else library.name

def text (library : NativeLibrary World) : String :=
  "NativeLibrary \x7b name: \"" ++ library.displayName ++ "\", .. \x7d"

/-- The code of a symbol; a name with a zero character in it names nothing. -/
def symbol (library : NativeLibrary World) (name : String) : Except BindError (NativeCode World) :=
  if name.toList.contains '\x00' then .error (.symbolNotFound library.displayName name)
  else match library.code? name with
    | some code => .ok code
    | none => .error (.symbolNotFound library.displayName name)

def bind (library : NativeLibrary World) (name : String) (signature : Signature) :
    Except BindError (Downcall World) := do
  let code ← library.symbol name
  (Downcall.new name signature code).mapError .layout

def link (library : NativeLibrary World) (functions : List (String × Signature)) :
    Except BindError (LinkedLibrary World) := do
  let bound ← functions.mapM fun (name, signature) => library.bind name signature
  .ok ⟨library.name, bound⟩

/-- Describes every declared function before the first is bound. -/
def linkDeclarations (library : NativeLibrary World) (declarations : Declarations) :
    Except BindError (LinkedLibrary World) := do
  let functions ← declarations.functions.mapM fun function =>
    match function.signature declarations.platform with
    | .ok signature => .ok (function.name, signature)
    | .error error => .error (BindError.layout error)
  library.link functions

end NativeLibrary

namespace LinkedLibrary

variable {World : Type}

def function? (library : LinkedLibrary World) (name : String) : Option (Downcall World) :=
  library.functions.find? fun function => function.name == name

def invoke (library : LinkedLibrary World) (name : String) (args : List Value) :
    EStateM Failure (Machine World) (Option Value) :=
  match library.function? name with
  | some function => (function.invoke args).adaptExcept .call
  | none => throw (.bind (.unknownFunction name))

end LinkedLibrary
end Interop
