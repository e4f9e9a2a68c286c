import Interop.Proofs.Declaration.Spelling

/-! The line of a function, read back part by part.
Main statement: `FunctionReadable.step_text`. -/
namespace Interop.Declarations
open Outcome

def isParamChar (c : Char) : Bool := isTypeChar c || c == ','

def isSignatureChar (c : Char) : Bool :=
  isParamChar c || c == ':' || c == '(' || c == ')' || c == '-' || c == '>'

variable {declarations : Declarations}

section Parameters

variable {types : List NativeType} (readable : ∀ type ∈ types, TypeReadable declarations type)
include readable

private theorem paramChar_of_mem : ∀ c ∈ paramsText types, isParamChar c = true := by
  induction types with
  | nil => simp [paramsText]
  | cons type rest ih =>
    obtain ⟨first, others⟩ := List.forall_mem_cons.mp readable
    have inside : ∀ c ∈ type.text.toList, isParamChar c = true := by
      intro c member
      rw [isParamChar, typeChar_of_mem first.named c member, Bool.true_or]
    cases rest with
    | nil => exact inside
    | cons next rest =>
      have after : ∀ c ∈ ' ' :: paramsText (next :: rest), isParamChar c = true :=
        List.forall_mem_cons.mpr ⟨rfl, ih others⟩
      exact List.forall_mem_append.mpr ⟨inside, List.forall_mem_cons.mpr ⟨rfl, after⟩⟩

private theorem map_trim_splitAll_paramsText (filled : types ≠ []) :
    (Text.splitAll (· == ',') (paramsText types)).map Text.trim = types.map fun type => type.text.toList := by
  induction types with
  | nil => exact absurd rfl filled
  | cons type rest ih =>
    obtain ⟨first, others⟩ := List.forall_mem_cons.mp readable
    have absent : ∀ c ∈ type.text.toList, (c == ',') = false := by
      intro c member
      apply beq_false_of_ne
      rintro rfl
      exact Text.not_mem_of_forall (typeChar_of_mem first.named) (by decide) member
    cases rest with
    | nil =>
      rw [paramsText, Text.splitAll_of_absent absent, List.map_singleton, first.trim_text]
      rfl
    | cons next rest =>
      rw [paramsText, Text.splitAll_append absent rfl, List.map_cons,
        Text.map_trim_splitAll_cons Text.isBlank_space rfl, ih others (List.cons_ne_nil _ _), first.trim_text]
      rfl

private theorem paramTexts_paramsText : paramTexts (paramsText types) = types.map fun type => type.text.toList := by
  cases types with
  | nil => rfl
  | cons type rest =>
    obtain ⟨first, _⟩ := List.forall_mem_cons.mp readable
    have some : ¬ ((type :: rest).map (fun type => type.text.toList) = [[]] ∨
        (type :: rest).map (fun type => type.text.toList) = ["void".toList]) := by
      rw [List.map_cons]
      rintro (empty | void)
      · exact text_ne_nil first.named (List.cons.inj empty).1
      · exact text_ne_void first.named (List.cons.inj void).1
    rw [paramTexts, map_trim_splitAll_paramsText readable (List.cons_ne_nil _ _)]
    exact if_neg some

private theorem parseParams_text (line : Nat) (function : String) (position : Nat) :
    parseParams declarations line function position (types.map fun type => type.text.toList) = .ok types := by
  induction types generalizing position with
  | nil => rfl
  | cons type rest ih =>
    obtain ⟨first, others⟩ := List.forall_mem_cons.mp readable
    rw [List.map_cons, parseParams, require, if_pos (decide_eq_true (text_ne_nil first.named)),
      first.typeOf_text]
    dsimp only [atLine, ok_bind]
    rw [ih others]
    rfl

end Parameters

structure FunctionReadable (declarations : Declarations) (function : FunctionDecl) : Prop where
  name : isIdentifier function.name.toList = true
  params : ∀ type ∈ function.params, TypeReadable declarations type
  result : ∀ type, function.result = some type → TypeReadable declarations type

namespace FunctionReadable

variable {function : FunctionDecl} (readable : FunctionReadable declarations function)
include readable

private theorem typeChar_of_result : ∀ c ∈ resultText function.result, isTypeChar c = true := by
  cases result : function.result with
  | none => exact List.all_eq_true.mp (by decide)
  | some type => exact typeChar_of_mem (readable.result type result).named

private theorem bare_result : Text.Bare (resultText function.result) := by
  cases result : function.result with
  | none => exact .of_ends (by decide)
  | some type => exact bare_text (readable.result type result).named

private theorem result_ne_nil : resultText function.result ≠ [] := by
  cases result : function.result with
  | none => decide
  | some type => exact text_ne_nil (readable.result type result).named

private theorem typeOf_result : typeOf declarations (resultText function.result) = .ok function.result := by
  cases result : function.result with
  | none => rfl
  | some type => exact (readable.result type result).typeOf_text

private theorem functionParts_text :
    functionParts (functionText function) = .ok (function.name.toList, ' ' :: '(' :: (paramsText function.params ++
      ')' :: ' ' :: '-' :: '>' :: ' ' :: resultText function.result)) := by
  have absent : ':' ∉ function.name.toList := Text.not_mem_of_forall (nameChar_of_mem readable.name) (by decide)
  have filled : decide (function.name.toList ≠ []) = true := decide_eq_true (ne_nil_of_isIdentifier readable.name)
  rw [functionParts, functionText, Text.splitOnce?_append absent]
  dsimp only
  rw [trim_of_isIdentifier readable.name, filled, readable.name]
  rfl

private theorem signatureParts_text : signatureParts (' ' :: '(' :: (paramsText function.params ++
      ')' :: ' ' :: '-' :: '>' :: ' ' :: resultText function.result)) =
    .ok (paramsText function.params, resultText function.result) := by
  have absent : ')' ∉ paramsText function.params :=
    Text.not_mem_of_forall (paramChar_of_mem readable.params) (by decide)
  have outer : Text.Bare ('(' :: (paramsText function.params ++
      ')' :: ' ' :: '-' :: '>' :: ' ' :: resultText function.result)) := by
    have joined := Text.Bare.join (.of_ends rfl) (List.cons_ne_nil '(' []) readable.bare_result
      readable.result_ne_nil (paramsText function.params ++ [')', ' ', '-', '>', ' '])
    rwa [List.append_assoc] at joined
  have arrow : Text.Bare ('-' :: '>' :: ' ' :: resultText function.result) :=
    Text.Bare.join (.of_ends rfl) (List.cons_ne_nil '-' []) readable.bare_result
      readable.result_ne_nil ['>', ' ']
  have opens := Text.stripStart?_append ['('] (paramsText function.params ++
    ')' :: ' ' :: '-' :: '>' :: ' ' :: resultText function.result)
  have points := Text.stripStart?_append ['-', '>'] (' ' :: resultText function.result)
  rw [List.cons_append, List.nil_append] at opens
  rw [List.cons_append, List.cons_append, List.nil_append] at points
  rw [signatureParts, Text.trim_cons_blank Text.isBlank_space, Text.trim_of_bare outer, opens]
  dsimp only
  rw [Text.splitOnce?_append absent]
  dsimp only
  rw [Text.trim_cons_blank Text.isBlank_space, Text.trim_of_bare arrow, points]
  dsimp only
  rw [Text.trim_cons_blank Text.isBlank_space, Text.trim_of_bare readable.bare_result]

private theorem parseFunction_text (new : declarations.function? function.name = none) (line : Nat) :
    parseFunction declarations line (functionText function) =
      .ok { declarations with functions := declarations.functions ++ [function] } := by
  rw [parseFunction, readable.functionParts_text]
  dsimp only [atLine, ok_bind]
  rw [String.ofList_toList, new, readable.signatureParts_text]
  dsimp only [Option.isNone_none, require, if_true, atLine, ok_bind]
  rw [paramTexts_paramsText readable.params, parseParams_text readable.params, readable.typeOf_result]
  rfl

theorem signatureChar_of_mem : ∀ c ∈ functionText function, isSignatureChar c = true := by
  have name : ∀ c ∈ function.name.toList, isSignatureChar c = true := by
    intro c member
    simp only [isSignatureChar, isParamChar, isTypeChar, nameChar_of_mem readable.name c member, Bool.true_or]
  have params : ∀ c ∈ paramsText function.params, isSignatureChar c = true := by
    intro c member
    simp only [isSignatureChar, paramChar_of_mem readable.params c member, Bool.true_or]
  have result : ∀ c ∈ resultText function.result, isSignatureChar c = true := by
    intro c member
    simp only [isSignatureChar, isParamChar, readable.typeChar_of_result c member, Bool.true_or]
  have opened : ∀ c ∈ [':', ' ', '('], isSignatureChar c = true := List.all_eq_true.mp (by decide)
  have arrow : ∀ c ∈ [')', ' ', '-', '>', ' '], isSignatureChar c = true := List.all_eq_true.mp (by decide)
  have after := List.forall_mem_append.mpr ⟨params, List.forall_mem_append.mpr ⟨arrow, result⟩⟩
  exact List.forall_mem_append.mpr ⟨name, List.forall_mem_append.mpr ⟨opened, after⟩⟩

private theorem bare_text : Text.Bare (functionText function) := by
  have joined := Text.Bare.join (bare_of_isIdentifier readable.name) (ne_nil_of_isIdentifier readable.name)
    readable.bare_result readable.result_ne_nil
    (':' :: ' ' :: '(' :: (paramsText function.params ++ [')', ' ', '-', '>', ' ']))
  have split : ':' :: ' ' :: '(' :: (paramsText function.params ++
      ')' :: ' ' :: '-' :: '>' :: ' ' :: resultText function.result) =
      (':' :: ' ' :: '(' :: (paramsText function.params ++ [')', ' ', '-', '>', ' '])) ++
        resultText function.result := by
    rw [List.cons_append, List.cons_append, List.cons_append, List.append_assoc]
    rfl
  rw [functionText, split]
  exact joined

theorem functionText_ne_nil : functionText function ≠ [] :=
  List.append_ne_nil_of_left_ne_nil (ne_nil_of_isIdentifier readable.name) _

private theorem startsStruct_text : startsStruct (functionText function) = false := by
  -- A struct has a brace on its first line, even where a function has the keyword for its name.
  have absent : '{' ∉ functionText function :=
    Text.not_mem_of_forall readable.signatureChar_of_mem (by decide)
  unfold startsStruct
  split
  next c rest stripped =>
    apply Bool.eq_false_iff.mpr
    intro starts
    have inside : '{' ∈ c :: rest := List.contains_iff_mem.mp (Bool.and_eq_true_iff.mp starts).2
    rw [Text.eq_append_of_stripStart? stripped] at absent
    exact absent (List.mem_append_right _ inside)
  next => rfl

theorem step_text (new : declarations.function? function.name = none) (line : Nat) :
    step ⟨declarations, none⟩ line (functionText function) =
      .ok ⟨{ declarations with functions := declarations.functions ++ [function] }, none⟩ := by
  have code : codeOf (functionText function) = functionText function :=
    codeOf_of_bare readable.bare_text (Text.not_mem_of_forall readable.signatureChar_of_mem (by decide))
  rw [step, code]
  dsimp only
  rw [if_neg readable.functionText_ne_nil, readable.startsStruct_text, if_neg Bool.false_ne_true,
    readable.parseFunction_text new]
  rfl

end FunctionReadable
end Interop.Declarations
