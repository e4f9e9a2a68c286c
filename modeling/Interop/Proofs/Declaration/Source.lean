import Interop.Declaration.Parser
import Interop.Proofs.CType.ExactLayout
import Interop.Proofs.Text.Cutting

/-! Declaration files as they are written: a line for each struct and each function, in any order.
`source` is the text of a file, and `WellFormed` says which names and types its declarations may use. -/
namespace Interop.Declarations

inductive Mark where
  | comma
  | semicolon
deriving DecidableEq

def Mark.char : Mark → Char
  | comma => ','
  | semicolon => ';'

structure FieldEntry where
  name : String
  type : NativeType
  mark : Mark

def FieldEntry.text (field : FieldEntry) : List Char :=
  field.name.toList ++ ':' :: ' ' :: field.type.text.toList

structure StructEntry where
  name : String
  fields : List FieldEntry
  trailing : Bool

namespace StructEntry

/-- The fields with marks between them, and a space after each. -/
def fieldsText (trailing : Bool) : List FieldEntry → List Char
  | [] => []
  | [last] => last.text ++ if trailing then [last.mark.char, ' '] else [' ']
  | field :: next :: rest => field.text ++ field.mark.char :: ' ' :: fieldsText trailing (next :: rest)

def body (entry : StructEntry) : List Char := ' ' :: fieldsText entry.trailing entry.fields

def text (entry : StructEntry) : List Char :=
  "struct".toList ++ ((' ' :: entry.name.toList ++ [' ']) ++ '{' :: (entry.body ++ ['}']))

def schema (entry : StructEntry) : StructSchema :=
  (StructSchema.empty entry.name).declare (entry.fields.map fun field => (field.name, field.type))

def exactLayout (entry : StructEntry) (platform : Platform) : StructLayout := entry.schema.exactLayout platform

end StructEntry

def resultText : Option NativeType → List Char
  | none => "void".toList
  | some type => type.text.toList

def paramsText : List NativeType → List Char
  | [] => []
  | [last] => last.text.toList
  | type :: next :: rest => type.text.toList ++ ',' :: ' ' :: paramsText (next :: rest)

def functionText (function : FunctionDecl) : List Char :=
  function.name.toList ++ ':' :: ' ' :: '(' :: (paramsText function.params ++
    ')' :: ' ' :: '-' :: '>' :: ' ' :: resultText function.result)

inductive Entry where
  | struct (entry : StructEntry)
  | function (decl : FunctionDecl)

namespace Entry

def text : Entry → List Char
  | .struct entry => entry.text
  | .function decl => functionText decl

def struct? : Entry → Option StructEntry
  | .struct entry => some entry
  | .function _ => none

def function? : Entry → Option FunctionDecl
  | .struct _ => none
  | .function decl => some decl

end Entry

/-- The text of a file, whose last line may go without a line feed. -/
def source (closed : Bool) (entries : List Entry) : List Char := Text.unlines closed (entries.map Entry.text)

def structsOf (entries : List Entry) : List StructEntry := entries.filterMap Entry.struct?

def functionsOf (entries : List Entry) : List FunctionDecl := entries.filterMap Entry.function?

def Declared (known : List StructLayout) : NativeType → Prop
  | .scalar _ => True
  | .struct layout => layout ∈ known

/-- Entries use the structs that were declared before them, and fields only those that have bytes. -/
def Scoped (platform : Platform) (known : List StructLayout) : List Entry → Prop
  | [] => True
  | .struct entry :: rest =>
    (∀ field ∈ entry.fields, Declared known field.type ∧ ∀ layout, field.type = .struct layout → layout.size ≠ 0) ∧
      Scoped platform (known ++ [entry.exactLayout platform]) rest
  | .function decl :: rest =>
    (∀ type ∈ decl.params, Declared known type) ∧ (∀ type, decl.result = some type → Declared known type) ∧
      Scoped platform known rest

structure StructEntry.WellNamed (entry : StructEntry) : Prop where
  name : isIdentifier entry.name.toList = true
  fields : ∀ field ∈ entry.fields, isIdentifier field.name.toList = true
  distinct : (entry.fields.map (·.name)).Nodup

/-- What a list of declarations must satisfy: good names, told apart within their kind, and types in scope. -/
structure WellFormed (platform : Platform) (entries : List Entry) : Prop where
  structs : ∀ entry ∈ structsOf entries, entry.WellNamed
  structsDistinct : ((structsOf entries).map (·.name)).Nodup
  functions : ∀ decl ∈ functionsOf entries, isIdentifier decl.name.toList = true
  functionsDistinct : ((functionsOf entries).map (·.name)).Nodup
  inScope : Scoped platform [] entries

end Interop.Declarations
