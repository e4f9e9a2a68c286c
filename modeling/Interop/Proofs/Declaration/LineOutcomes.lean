import Interop.Proofs.Declaration.Source
import Interop.Proofs.Outcome

/-! What one more line can do to what has been read of a declaration file, in success and in failure.
Main statement: `step_reads`; whatever holds along a whole file follows from it by cases. -/
namespace Interop.Declarations
open Outcome

def withStruct (declarations : Declarations) (layout : StructLayout) : Declarations :=
  { declarations with structs := declarations.structs ++ [layout] }

def withFunction (declarations : Declarations) (function : FunctionDecl) : Declarations :=
  { declarations with functions := declarations.functions ++ [function] }

/-- The errors that come from the words of a declaration alone. -/
inductive InText (line : Nat) : BindError → Prop
  | fault (fault : SyntaxFault) : InText line (.parse line fault)
  | void (place : String) : InText line (.layout (.voidNotAllowed place))

private theorem atLine_yields {α : Type} {line : Nat} {bad : BindError → Prop}
    (fault : ∀ fault, bad (.parse line fault))
    (result : Except SyntaxFault α) : Yields (fun value => result = .ok value) bad (atLine line result) := by
  cases result with
  | ok value => rfl
  | error reason => exact fault reason

private theorem require_eq_ok_iff {condition : Bool} {fault : SyntaxFault} :
    require condition fault = .ok () ↔ condition = true := by
  cases condition <;> simp [require]

private theorem struct?_mem {declarations : Declarations} {name : String} {layout : StructLayout}
    (found : declarations.struct? name = some layout) : layout ∈ declarations.structs :=
  List.mem_of_find?_eq_some found

private theorem declared_of_typeOf {declarations : Declarations} {text : List Char} {type : NativeType}
    (ok : typeOf declarations text = .ok (some type)) : Declared declarations.structs type := by
  unfold typeOf at ok
  dsimp only at ok
  split at ok
  next => cases ok
  next =>
    split at ok
    next structName _ =>
      split at ok
      next layout found =>
        cases ok
        exact struct?_mem found
      next => cases ok
    next =>
      split at ok
      next named =>
        cases ok
        rw [NativeType.ofText] at named
        cases scalar : CScalar.ofText (Text.normalize text) with
        | error reason =>
          rw [scalar] at named
          cases named
        | ok own =>
          rw [scalar] at named
          cases named
          trivial
      next => cases ok

/-! ## Structs -/

section Struct

structure FieldRead (declarations : Declarations) (field : String × NativeType) : Prop where
  name : isIdentifier field.1.toList = true
  type : Declared declarations.structs field.2

private theorem isIdentifier_of_fieldParts {field name type : List Char} (ok : fieldParts field = .ok (name, type)) :
    isIdentifier name = true := by
  unfold fieldParts at ok
  split at ok
  next => cases ok
  next =>
    dsimp only at ok
    split at ok
    next identifier =>
      cases ok
      exact identifier
    next => cases ok

private theorem parseFields_yields (declarations : Declarations) (line : Nat) (schema : StructSchema)
    (texts : List (List Char)) :
    Yields (fun read => ∃ fields, (∀ field ∈ fields, FieldRead declarations field) ∧
        fields.length = texts.length ∧ read = schema.declare fields)
      (InText line) (parseFields declarations line schema texts) := by
  induction texts generalizing schema with
  | nil => exact ⟨[], by simp, rfl, rfl⟩
  | cons text rest ih =>
    rw [parseFields]
    refine (atLine_yields .fault _).bind ?_
    rintro ⟨name, typeText⟩ parts
    refine (atLine_yields .fault _).bind ?_
    intro result typed
    cases result with
    | none => exact .void _
    | some type =>
      have first : FieldRead declarations (String.ofList name, type) :=
        ⟨by rw [String.toList_ofList]; exact isIdentifier_of_fieldParts parts, declared_of_typeOf typed⟩
      refine (ih (schema.field (String.ofList name) type)).mono ?_ (fun _ inText => inText)
      rintro _ ⟨fields, read, length, rfl⟩
      exact ⟨(String.ofList name, type) :: fields, List.forall_mem_cons.mpr ⟨first, read⟩, congrArg (· + 1) length, rfl⟩

theorem length_of_splitOnce? {mark : Char} {text before after : List Char}
    (found : Text.splitOnce? mark text = some (before, after)) : text.length = before.length + after.length + 1 := by
  rw [(Text.splitOnce?_eq_some found).1, List.length_append, List.length_cons, Nat.add_assoc]

private theorem length_stripStart?_le (start text : List Char) :
    ((Text.stripStart? start text).getD text).length ≤ text.length := by
  cases stripped : Text.stripStart? start text with
  | none => exact Nat.le_refl _
  | some rest =>
    rw [Text.eq_append_of_stripStart? stripped, Option.getD_some, List.length_append]
    exact Nat.le_add_left _ _

private theorem structParts_eq_ok {code name body : List Char} (ok : structParts code = .ok (name, body)) :
    isIdentifier name = true ∧ body.length + 2 ≤ code.length := by
  unfold structParts at ok
  have stripped := length_stripStart?_le "struct".toList code
  dsimp only at ok
  split at ok
  next front rest opened =>
    split at ok
    next inner trailer closed =>
      obtain ⟨_, _, ok⟩ := bind_eq_ok.mp ok
      obtain ⟨_, named, ok⟩ := bind_eq_ok.mp ok
      cases ok
      have whole := length_of_splitOnce? opened
      have inside := length_of_splitOnce? closed
      exact ⟨require_eq_ok_iff.mp named, by omega⟩
    next => cases ok
  next => cases ok

private theorem length_splitAll_le (isMark : Char → Bool) (text : List Char) :
    (Text.splitAll isMark text).length ≤ text.length + 1 := by
  induction text with
  | nil => exact Nat.le_refl _
  | cons c rest ih =>
    rw [Text.splitAll]
    split
    · exact Nat.succ_le_succ ih
    · split
      next => exact Nat.le_add_left _ _
      next pieces =>
        rw [pieces] at ih
        exact ih.trans (Nat.le_succ _)

private theorem length_fieldTexts_le (body : List Char) : (fieldTexts body).length ≤ body.length + 1 := by
  refine (List.length_filter_le _ _).trans ?_
  rw [List.length_map]
  exact length_splitAll_le _ body

structure StructRead (declarations : Declarations) (length : Nat) (name : String)
    (fields : List (String × NativeType)) : Prop where
  identifier : isIdentifier name.toList = true
  new : declarations.struct? name = none
  read : ∀ field ∈ fields, FieldRead declarations field
  few : fields.length < length

/-- Why a struct is refused: for its words, or because the fields that they declare have no layout. -/
inductive StructFails (declarations : Declarations) (line length : Nat) : BindError → Prop
  | text {error : BindError} (inText : InText line error) : StructFails declarations line length error
  | layout {name : String} {fields : List (String × NativeType)} {reason : LayoutError}
    (read : StructRead declarations length name fields)
    (failed : ((StructSchema.empty name).declare fields).layout declarations.platform = .error reason) :
    StructFails declarations line length (.layout reason)

private theorem parseStruct_yields (declarations : Declarations) (line : Nat) (code : List Char) :
    Yields (fun after => ∃ name fields layout, StructRead declarations code.length name fields ∧
        ((StructSchema.empty name).declare fields).layout declarations.platform = .ok layout ∧
        after = declarations.withStruct layout)
      (StructFails declarations line code.length) (parseStruct declarations line code) := by
  have fault : ∀ fault, StructFails declarations line code.length (.parse line fault) :=
    fun fault => .text (.fault fault)
  rw [parseStruct]
  refine (atLine_yields fault _).bind ?_
  rintro ⟨name, body⟩ parts
  refine (atLine_yields fault _).bind ?_
  intro _ unclaimed
  refine ((parseFields_yields declarations line _ _).mono (fun _ read => read) (fun _ => .text)).bind ?_
  rintro _ ⟨fields, read, count, rfl⟩
  obtain ⟨identifier, length⟩ := structParts_eq_ok parts
  have few := length_fieldTexts_le body
  have whole : StructRead declarations code.length (String.ofList name) fields :=
    ⟨by rwa [String.toList_ofList], Option.isNone_iff_eq_none.mp (require_eq_ok_iff.mp unclaimed), read, by omega⟩
  cases laid : ((StructSchema.empty (String.ofList name)).declare fields).layout declarations.platform with
  | ok layout => exact ⟨_, fields, layout, whole, laid, rfl⟩
  | error reason => exact .layout whole laid

end Struct

/-! ## Functions -/

section Function

structure FunctionRead (declarations : Declarations) (function : FunctionDecl) : Prop where
  name : isIdentifier function.name.toList = true
  new : declarations.function? function.name = none
  params : ∀ type ∈ function.params, Declared declarations.structs type
  result : ∀ type, function.result = some type → Declared declarations.structs type

private theorem isIdentifier_of_functionParts {code name signature : List Char}
    (ok : functionParts code = .ok (name, signature)) : isIdentifier name = true := by
  unfold functionParts at ok
  split at ok
  next =>
    obtain ⟨_, _, ok⟩ := bind_eq_ok.mp ok
    obtain ⟨_, named, ok⟩ := bind_eq_ok.mp ok
    cases ok
    exact require_eq_ok_iff.mp named
  next => cases ok

private theorem parseParams_yields (declarations : Declarations) (line : Nat) (function : String) (position : Nat)
    (texts : List (List Char)) :
    Yields (fun types => ∀ type ∈ types, Declared declarations.structs type) (InText line)
      (parseParams declarations line function position texts) := by
  induction texts generalizing position with
  | nil => exact List.forall_mem_nil _
  | cons text rest ih =>
    rw [parseParams]
    refine (atLine_yields .fault _).bind ?_
    intro _ filled
    refine (atLine_yields .fault _).bind ?_
    intro result typed
    cases result with
    | none => exact .void _
    | some type =>
      refine (ih (position + 1)).bind ?_
      intro types each
      exact List.forall_mem_cons.mpr ⟨declared_of_typeOf typed, each⟩

private theorem parseFunction_yields (declarations : Declarations) (line : Nat) (code : List Char) :
    Yields (fun after => ∃ function, FunctionRead declarations function ∧ after = declarations.withFunction function)
      (InText line) (parseFunction declarations line code) := by
  rw [parseFunction]
  refine (atLine_yields .fault _).bind ?_
  rintro ⟨name, signature⟩ parts
  refine (atLine_yields .fault _).bind ?_
  intro _ unclaimed
  refine (atLine_yields .fault _).bind ?_
  rintro ⟨params, resultText⟩ cut
  refine (parseParams_yields declarations line _ 0 _).bind ?_
  intro types known
  refine (atLine_yields .fault _).bind ?_
  intro result typed
  refine ⟨⟨String.ofList name, types, result⟩, ⟨?_, ?_, known, ?_⟩, rfl⟩
  · rw [String.toList_ofList]
    exact isIdentifier_of_functionParts parts
  · exact Option.isNone_iff_eq_none.mp (require_eq_ok_iff.mp unclaimed)
  · rintro type rfl
    exact declared_of_typeOf typed

end Function

/-! ## Lines -/

inductive StructCode (progress : Progress) (line : Nat) (text : List Char) : Pending → Prop
  | first (idle : progress.pending = none) (starts : startsStruct (codeOf text) = true) :
    StructCode progress line text ⟨line, codeOf text⟩
  | further {pending : Pending} (waiting : progress.pending = some pending) :
    StructCode progress line text ⟨pending.line, pending.code ++ ' ' :: codeOf text⟩

inductive Reads (progress : Progress) (line : Nat) (text : List Char) : Except BindError Progress → Prop
  | blank (empty : codeOf text = []) : Reads progress line text (.ok progress)
  | waits {pending : Pending} (code : StructCode progress line text pending) (unclosed : '}' ∉ codeOf text) :
    Reads progress line text (.ok ⟨progress.declarations, some pending⟩)
  | struct {pending : Pending} {name : String} {fields : List (String × NativeType)} {layout : StructLayout}
    (code : StructCode progress line text pending)
    (read : StructRead progress.declarations pending.code.length name fields)
    (laid : ((StructSchema.empty name).declare fields).layout progress.declarations.platform = .ok layout) :
    Reads progress line text (.ok ⟨progress.declarations.withStruct layout, none⟩)
  | structFails {pending : Pending} {error : BindError} (code : StructCode progress line text pending)
    (fails : StructFails progress.declarations pending.line pending.code.length error) :
    Reads progress line text (.error error)
  | function {function : FunctionDecl} (idle : progress.pending = none)
    (read : FunctionRead progress.declarations function) :
    Reads progress line text (.ok ⟨progress.declarations.withFunction function, none⟩)
  | functionFails {error : BindError} (idle : progress.pending = none) (fails : InText line error) :
    Reads progress line text (.error error)

private theorem continueStruct_reads {progress : Progress} {line : Nat} {text : List Char} {pending : Pending}
    (code : StructCode progress line text pending) :
    Reads progress line text
      (continueStruct progress.declarations pending ((codeOf text).contains '}')) := by
  rw [continueStruct]
  split
  next =>
    have yields := parseStruct_yields progress.declarations pending.line pending.code
    cases parsed : parseStruct progress.declarations pending.line pending.code with
    | ok after =>
      obtain ⟨name, fields, layout, read, laid, rfl⟩ := yields.of_ok parsed
      exact .struct code read laid
    | error error => exact .structFails code (yields.of_error parsed)
  next unclosed =>
    refine .waits code ?_
    intro closed
    exact unclosed (List.contains_iff_mem.mpr closed)

theorem step_reads (progress : Progress) (line : Nat) (text : List Char) :
    Reads progress line text (step progress line text) := by
  rw [step]
  split
  next empty => exact .blank empty
  next =>
    split
    next pending waiting => exact continueStruct_reads (.further waiting)
    next idle =>
      split
      next starts => exact continueStruct_reads (.first idle starts)
      next =>
        have yields := parseFunction_yields progress.declarations line (codeOf text)
        cases parsed : parseFunction progress.declarations line (codeOf text) with
        | ok after =>
          obtain ⟨function, read, rfl⟩ := yields.of_ok parsed
          exact .function idle read
        | error error => exact .functionFails idle (yields.of_error parsed)

end Interop.Declarations
