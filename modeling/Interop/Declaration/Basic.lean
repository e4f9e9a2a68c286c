import Interop.CType.Schema
import Interop.Marshal.Signature

/-! What a declaration file declares: structs laid out for one platform, and functions over them. -/
namespace Interop

structure FunctionDecl where
  name : String
  params : List NativeType
  /-- None for a function that returns nothing. -/
  result : Option NativeType

def FunctionDecl.signature (function : FunctionDecl) (platform : Platform) :
    Except LayoutError Signature :=
  Signature.resolve function.params function.result platform

/-- Structs and functions, each in the order of declaration. -/
structure Declarations where
  platform : Platform
  structs : List StructLayout
  functions : List FunctionDecl

namespace Declarations

def empty (platform : Platform) : Declarations := ⟨platform, [], []⟩

def function? (declarations : Declarations) (name : String) : Option FunctionDecl :=
  declarations.functions.find? fun function => function.name == name

def struct? (declarations : Declarations) (name : String) : Option StructLayout :=
  declarations.structs.find? fun layout => layout.name == name

end Declarations

inductive SyntaxFault where
  | unreadable (path reason : String)
  | unterminatedStruct
  | missingOpenBrace
  | missingCloseBrace
  | textAfterStruct (text : String)
  | invalidStructName (name : String)
  | duplicate (key : String)
  | missingFieldType (field : String)
  | invalidFieldName (name : String)
  | unknownStruct (name : String)
  | unknownType (name : String)
  | missingSignature
  | emptyFunctionName
  | invalidFunctionName (name : String)
  | missingOpenParenthesis
  | missingCloseParenthesis
  | missingArrow
  | emptyParameter (position : Nat)
deriving DecidableEq, Repr

def SyntaxFault.message : SyntaxFault → String
  | unreadable path reason => s!"Failed to read {path}: {reason}"
  | unterminatedStruct => "Unterminated struct declaration: missing '\x7d'"
  | missingOpenBrace => "Expected '\x7b' after struct name"
  | missingCloseBrace => "Expected '\x7d' to close struct"
  | textAfterStruct text => s!"Unexpected text after struct: '{text}'"
  | invalidStructName name => s!"Invalid struct name: '{name}'"
  | duplicate key => s!"Duplicate declaration: '{key}'"
  | missingFieldType field => s!"Expected 'name: type' in '{field}'"
  | invalidFieldName name => s!"Invalid field name: '{name}'"
  | unknownStruct name => s!"Unknown struct: '{name}'"
  | unknownType name => (LayoutError.unknownType name).message
  | missingSignature => "Expected ':' after function name"
  | emptyFunctionName => "Function name cannot be empty"
  | invalidFunctionName name => s!"Invalid function name: '{name}'"
  | missingOpenParenthesis => "Expected '(' at start of type signature"
  | missingCloseParenthesis => "Unmatched '(' in type signature"
  | missingArrow => "Expected '->' after argument list"
  | emptyParameter position => s!"Empty argument type at position {position}"

inductive BindError where
  | libraryNotFound (library reason : String)
  | symbolNotFound (library symbol : String)
  | unknownField (struct field : String)
  | accessorMismatch (struct field : String) (expected requested : ManagedKind)
  | unknownFunction (name : String)
  | parse (line : Nat) (fault : SyntaxFault)
  | layout (error : LayoutError)
deriving DecidableEq, Repr

namespace BindError

def message : BindError → String
  | libraryNotFound library reason => s!"Could not load library {library}: {reason}"
  | symbolNotFound library symbol => s!"Could not find {symbol} in library {library}"
  | unknownField struct field => s!"Struct {struct} has no field '{field}'"
  | accessorMismatch struct field expected requested =>
    s!"Field {struct}.{field} holds {expected.text}, not {requested.text}"
  | unknownFunction name => s!"No function named {name} is bound"
  | parse line fault => s!"line {line}: {fault.message}"
  | layout error => error.message

def isNotFound : BindError → Bool
  | libraryNotFound .. | symbolNotFound .. => true
  | _ => false

end BindError
end Interop
