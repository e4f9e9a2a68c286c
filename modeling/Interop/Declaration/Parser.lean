import Interop.Declaration.Basic
import Interop.Text.Split

/-! Reading declaration files: line by line, except that a struct may go on until its closing brace.
A number sign starts a comment, and names may be used from the line after their declaration on. -/
namespace Interop.Declarations

/-- A letter or an underscore, and then digits too; all of them ASCII. -/
def isIdentifier : List Char → Bool
  | [] => false
  | c :: rest => (c.isAlpha || c == '_') && rest.all fun d => d.isAlphanum || d == '_'

/-- A line without its comment and without the blanks around it. -/
def codeOf (line : List Char) : List Char :=
  match Text.splitOnce? '#' line with
  | some (code, _) => Text.trim code
  | none => Text.trim line

/-- A struct starts on the line that holds its opening brace. -/
def startsStruct (code : List Char) : Bool :=
  match Text.stripStart? "struct".toList code with
  | some (c :: rest) => Text.isBlank c && (c :: rest).contains '{'
  | _ => false

/-- The type that a text names, where void is none. -/
def typeOf (declarations : Declarations) (text : List Char) : Except SyntaxFault (Option NativeType) :=
  let name := Text.normalize text
  if name = "void".toList then .ok none
  else
    let struct? := if name.getLast? = some '*' then none else Text.stripStart? "struct ".toList name
    match struct? with
    | some structName =>
      let structName := String.ofList (Text.trim structName)
      match declarations.struct? structName with
      | some layout => .ok (some (.struct layout))
      | none => .error (.unknownStruct structName)
    | none =>
      match NativeType.ofText name with
      | .ok type => .ok (some type)
      | .error _ => .error (.unknownType (String.ofList name))

def atLine {α : Type} (line : Nat) : Except SyntaxFault α → Except BindError α
  | .ok result => .ok result
  | .error fault => .error (.parse line fault)

def require (condition : Bool) (fault : SyntaxFault) : Except SyntaxFault Unit :=
  if condition then .ok () else .error fault

def fieldParts (field : List Char) : Except SyntaxFault (List Char × List Char) :=
  match Text.splitOnce? ':' field with
  | none => .error (.missingFieldType (String.ofList field))
  | some (name, type) =>
    let name := Text.trim name
    if isIdentifier name then .ok (name, Text.trim type)
    else .error (.invalidFieldName (String.ofList name))

def parseFields (declarations : Declarations) (line : Nat) (schema : StructSchema) :
    List (List Char) → Except BindError StructSchema
  | [] => .ok schema
  | field :: rest => do
    let (name, text) ← atLine line (fieldParts field)
    let name := String.ofList name
    match ← atLine line (typeOf declarations text) with
    | none => .error (.layout (.voidNotAllowed s!"the type of field {schema.name}.{name}"))
    | some type => parseFields declarations line (schema.field name type) rest

def structParts (code : List Char) : Except SyntaxFault (List Char × List Char) := do
  let rest := (Text.stripStart? "struct".toList code).getD code
  let some (name, rest) := Text.splitOnce? '{' rest | .error .missingOpenBrace
  let some (body, trailer) := Text.splitOnce? '}' rest | .error .missingCloseBrace
  let trailer := Text.trim trailer
  require (trailer = [] || trailer = [';']) (.textAfterStruct (String.ofList trailer))
  let name := Text.trim name
  require (isIdentifier name) (.invalidStructName (String.ofList name))
  .ok (name, body)

def fieldTexts (body : List Char) : List (List Char) :=
  ((Text.splitAll (fun c => c == ',' || c == ';') body).map Text.trim).filter (· ≠ [])

def parseStruct (declarations : Declarations) (line : Nat) (code : List Char) :
    Except BindError Declarations := do
  let (name, body) ← atLine line (structParts code)
  let name := String.ofList name
  atLine line (require (declarations.struct? name).isNone (.duplicate ("struct " ++ name)))
  let schema ← parseFields declarations line (.empty name) (fieldTexts body)
  match schema.layout declarations.platform with
  | .ok layout => .ok { declarations with structs := declarations.structs ++ [layout] }
  | .error error => .error (.layout error)

def functionParts (code : List Char) : Except SyntaxFault (List Char × List Char) := do
  let some (name, signature) := Text.splitOnce? ':' code | .error .missingSignature
  let name := Text.trim name
  require (name ≠ []) .emptyFunctionName
  require (isIdentifier name) (.invalidFunctionName (String.ofList name))
  .ok (name, signature)

def signatureParts (signature : List Char) : Except SyntaxFault (List Char × List Char) := do
  let some rest := Text.stripStart? ['('] (Text.trim signature) | .error .missingOpenParenthesis
  let some (params, rest) := Text.splitOnce? ')' rest | .error .missingCloseParenthesis
  let some result := Text.stripStart? ['-', '>'] (Text.trim rest) | .error .missingArrow
  .ok (params, Text.trim result)

/-- The texts of the parameters; nothing or void between the parentheses means none. -/
def paramTexts (params : List Char) : List (List Char) :=
  let texts := (Text.splitAll (· == ',') params).map Text.trim
  if texts = [[]] ∨ texts = ["void".toList] then [] else texts

def parseParams (declarations : Declarations) (line : Nat) (function : String) :
    (position : Nat) → List (List Char) → Except BindError (List NativeType)
  | _, [] => .ok []
  | position, text :: rest => do
    atLine line (require (text ≠ []) (.emptyParameter position))
    match ← atLine line (typeOf declarations text) with
    | none => .error (.layout (.voidNotAllowed s!"parameter {position} of {function}"))
    | some type =>
      let types ← parseParams declarations line function (position + 1) rest
      .ok (type :: types)

def parseFunction (declarations : Declarations) (line : Nat) (code : List Char) :
    Except BindError Declarations := do
  let (name, signature) ← atLine line (functionParts code)
  let name := String.ofList name
  atLine line (require (declarations.function? name).isNone (.duplicate name))
  let (params, result) ← atLine line (signatureParts signature)
  let params ← parseParams declarations line name 0 (paramTexts params)
  let result ← atLine line (typeOf declarations result)
  .ok { declarations with functions := declarations.functions ++ [⟨name, params, result⟩] }

/-- A struct that is still open: the line where it started, and its code so far. -/
structure Pending where
  line : Nat
  code : List Char

structure Progress where
  declarations : Declarations
  pending : Option Pending

/-- Reads a struct whose code is complete, and waits for more of one that is not. -/
def continueStruct (declarations : Declarations) (pending : Pending) (closed : Bool) :
    Except BindError Progress :=
  if closed then do
    let declarations ← parseStruct declarations pending.line pending.code
    .ok ⟨declarations, none⟩
  else .ok ⟨declarations, some pending⟩

def step (progress : Progress) (line : Nat) (text : List Char) : Except BindError Progress :=
  let code := codeOf text
  if code = [] then .ok progress
  else match progress.pending with
    | some pending =>
      continueStruct progress.declarations ⟨pending.line, pending.code ++ ' ' :: code⟩ (code.contains '}')
    | none =>
      if startsStruct code then
        continueStruct progress.declarations ⟨line, code⟩ (code.contains '}')
      else do
        let declarations ← parseFunction progress.declarations line code
        .ok ⟨declarations, none⟩

def parseLines (progress : Progress) : (line : Nat) → List (List Char) → Except BindError Progress
  | _, [] => .ok progress
  | line, text :: rest => do
    let progress ← step progress line text
    parseLines progress (line + 1) rest

/-- The declarations of a text; no struct may be open at its end. -/
def parse (text : List Char) (platform : Platform) : Except BindError Declarations := do
  let progress ← parseLines ⟨empty platform, none⟩ 1 (Text.lines text)
  match progress.pending with
  | none => .ok progress.declarations
  | some pending => .error (.parse pending.line .unterminatedStruct)

def parseFile (path : String) (contents : Except String (List Char)) (platform : Platform) :
    Except BindError Declarations :=
  match contents with
  | .ok text => parse text platform
  | .error reason => .error (.parse 0 (.unreadable path reason))

end Interop.Declarations
