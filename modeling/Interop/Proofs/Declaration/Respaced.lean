import Interop.Proofs.Declaration.Prefixes
import Interop.Proofs.Declaration.Spelling
import Interop.Proofs.Text.Squeezed

/-! Declarations with other blanks in them: how many there are and which does not decide what is read.
Main statements: `toOption_parseStruct_squeeze`, `toOption_parseFunction_squeeze`, and `parseLines_codes` for the
lines of a file. -/
namespace Interop.Declarations
open Outcome Text

@[simp] theorem toOption_atLine {α : Type} (line : Nat) (result : Except SyntaxFault α) :
    (atLine line result).toOption = result.toOption := by
  cases result <;> rfl

private theorem squeeze_of_isIdentifier {name : List Char} (identifier : isIdentifier name = true) :
    squeeze name = name :=
  squeeze_of_forall (blank_of_mem identifier)

private theorem isIdentifier_squeeze (name : List Char) : isIdentifier (squeeze name) = isIdentifier name := by
  rw [Bool.eq_iff_iff]
  constructor
  · intro identifier
    rwa [(squeeze_eq_iff (blank_of_mem identifier)).mp rfl]
  · intro identifier
    rwa [squeeze_of_isIdentifier identifier]

private theorem typeOf_squeeze (declarations : Declarations) (text : List Char) :
    typeOf declarations (squeeze text) = typeOf declarations text := by
  simp only [typeOf, normalize_squeeze]

private theorem toOption_fieldParts_squeeze (field : List Char) : (fieldParts (squeeze field)).toOption =
    (fieldParts field).toOption.map fun (name, type) => (name, squeeze type) := by
  rw [fieldParts, fieldParts, splitOnce?_squeeze rfl]
  cases splitOnce? ':' field with
  | none => rfl
  | some parts =>
    obtain ⟨name, type⟩ := parts
    simp only [Option.map_some, trim_squeeze, isIdentifier_squeeze]
    cases identifier : isIdentifier (trim name) with
    | false => rfl
    | true =>
      rw [squeeze_of_isIdentifier identifier]
      rfl

private theorem toOption_parseFields_squeeze (declarations : Declarations) (line other : Nat) (schema : StructSchema)
    (texts : List (List Char)) : (parseFields declarations line schema (texts.map squeeze)).toOption =
      (parseFields declarations other schema texts).toOption := by
  induction texts generalizing schema with
  | nil => rfl
  | cons text rest ih =>
    rw [List.map_cons, parseFields, parseFields]
    simp only [toOption_bind, toOption_atLine, toOption_fieldParts_squeeze]
    cases (fieldParts text).toOption with
    | none => rfl
    | some parts =>
      simp only [Option.map_some, Option.bind_some, typeOf_squeeze]
      cases typeOf declarations parts.2 with
      | error fault => rfl
      | ok result =>
        cases result with
        | none => rfl
        | some type => exact ih _

private theorem not_blank_of_isFieldMark (c : Char) (mark : (c == ',' || c == ';') = true) : isBlank c = false := by
  rcases Bool.or_eq_true_iff.mp mark with comma | semicolon
  · rw [beq_iff_eq.mp comma]
    rfl
  · rw [beq_iff_eq.mp semicolon]
    rfl

private theorem map_trim_squeeze (texts : List (List Char)) :
    (texts.map squeeze).map trim = (texts.map trim).map squeeze := by
  rw [List.map_map, List.map_map]
  exact List.map_congr_left fun text _ => trim_squeeze text

private theorem filter_squeeze (texts : List (List Char)) :
    (texts.map squeeze).filter (· ≠ []) = (texts.filter (· ≠ [])).map squeeze := by
  rw [List.filter_map]
  simp only [Function.comp_def, ne_eq, squeeze_eq_nil_iff]

private theorem fieldTexts_squeeze (body : List Char) : fieldTexts (squeeze body) = (fieldTexts body).map squeeze := by
  rw [fieldTexts, fieldTexts, splitAll_squeeze not_blank_of_isFieldMark, map_trim_squeeze, filter_squeeze]

private theorem toOption_require (condition : Bool) (fault : SyntaxFault) :
    (require condition fault).toOption = if condition then some () else none := by
  cases condition <;> rfl

private theorem isTrailer_squeeze (text : List Char) :
    (decide (squeeze text = []) || decide (squeeze text = [';'])) = (decide (text = []) || decide (text = [';'])) := by
  simp only [squeeze_eq_nil_iff, squeeze_eq_iff (solid_of_all (show [';'].all (!isBlank ·) = true from rfl))]

private theorem toOption_structParts_squeeze (code : List Char) : (structParts (squeeze code)).toOption =
    (structParts code).toOption.map fun (name, body) => (name, squeeze body) := by
  rw [structParts, structParts, stripStart?_squeeze (solid_of_all rfl), Option.getD_map, splitOnce?_squeeze rfl]
  cases splitOnce? '\x7b' ((stripStart? "struct".toList code).getD code) with
  | none => rfl
  | some opened =>
    obtain ⟨name, rest⟩ := opened
    simp only [Option.map_some, splitOnce?_squeeze (show isBlank '\x7d' = false from rfl)]
    cases splitOnce? '\x7d' rest with
    | none => rfl
    | some closed =>
      obtain ⟨body, trailer⟩ := closed
      simp only [Option.map_some, trim_squeeze, isIdentifier_squeeze, isTrailer_squeeze, toOption_bind,
        toOption_require]
      cases decide (trim trailer = []) || decide (trim trailer = [';']) with
      | false => rfl
      | true =>
        cases identifier : isIdentifier (trim name) with
        | false => rfl
        | true =>
          rw [squeeze_of_isIdentifier identifier]
          rfl

theorem toOption_parseStruct_squeeze (declarations : Declarations) (line other : Nat) (code : List Char) :
    (parseStruct declarations line (squeeze code)).toOption = (parseStruct declarations other code).toOption := by
  rw [parseStruct, parseStruct]
  simp only [toOption_bind, toOption_atLine, toOption_structParts_squeeze]
  cases (structParts code).toOption with
  | none => rfl
  | some parts =>
    simp only [Option.map_some, Option.bind_some, fieldTexts_squeeze, toOption_parseFields_squeeze _ line other]

/-! ## Functions -/

private theorem toOption_functionParts_squeeze (code : List Char) : (functionParts (squeeze code)).toOption =
    (functionParts code).toOption.map fun (name, signature) => (name, squeeze signature) := by
  rw [functionParts, functionParts, splitOnce?_squeeze rfl]
  cases splitOnce? ':' code with
  | none => rfl
  | some parts =>
    obtain ⟨name, signature⟩ := parts
    simp only [Option.map_some, trim_squeeze, isIdentifier_squeeze, toOption_bind, toOption_require, ne_eq,
      squeeze_eq_nil_iff]
    cases decide (¬ trim name = []) with
    | false => rfl
    | true =>
      cases identifier : isIdentifier (trim name) with
      | false => rfl
      | true =>
        rw [squeeze_of_isIdentifier identifier]
        rfl

private theorem toOption_signatureParts_squeeze (signature : List Char) :
    (signatureParts (squeeze signature)).toOption =
    (signatureParts signature).toOption.map fun (params, result) => (squeeze params, squeeze result) := by
  rw [signatureParts, signatureParts, trim_squeeze, stripStart?_squeeze (solid_of_all rfl)]
  cases stripStart? ['('] (trim signature) with
  | none => rfl
  | some rest =>
    simp only [Option.map_some, splitOnce?_squeeze (show isBlank ')' = false from rfl)]
    cases splitOnce? ')' rest with
    | none => rfl
    | some parts =>
      obtain ⟨params, rest⟩ := parts
      have arrow : ['-', '>'].all (!isBlank ·) = true := rfl
      simp only [Option.map_some, trim_squeeze, stripStart?_squeeze (solid_of_all arrow)]
      cases stripStart? ['-', '>'] (trim rest) with
      | none => rfl
      | some result => simp only [Option.map_some, trim_squeeze]; rfl

private theorem map_squeeze_eq_singleton_iff {texts : List (List Char)} {text : List Char}
    (solid : ∀ c ∈ text, isBlank c = false) : texts.map squeeze = [text] ↔ texts = [text] := by
  rw [List.map_eq_singleton_iff]
  constructor
  · rintro ⟨other, rfl, same⟩
    rw [(squeeze_eq_iff solid).mp same]
  · rintro rfl
    exact ⟨text, rfl, squeeze_of_forall solid⟩

private theorem paramTexts_squeeze (params : List Char) :
    paramTexts (squeeze params) = (paramTexts params).map squeeze := by
  have comma : ∀ c : Char, (c == ',') = true → isBlank c = false := by
    intro c mark
    rw [beq_iff_eq.mp mark]
    rfl
  rw [paramTexts, paramTexts, splitAll_squeeze comma, map_trim_squeeze]
  simp only [map_squeeze_eq_singleton_iff (List.forall_mem_nil _),
    map_squeeze_eq_singleton_iff (solid_of_all (show "void".toList.all (!isBlank ·) = true from rfl))]
  split <;> rfl

private theorem toOption_parseParams_squeeze (declarations : Declarations) (line other : Nat) (function : String)
    (position : Nat) (texts : List (List Char)) :
    (parseParams declarations line function position (texts.map squeeze)).toOption =
      (parseParams declarations other function position texts).toOption := by
  induction texts generalizing position with
  | nil => rfl
  | cons text rest ih =>
    rw [List.map_cons, parseParams, parseParams]
    simp only [toOption_bind, toOption_atLine, toOption_require, typeOf_squeeze, ne_eq, squeeze_eq_nil_iff]
    cases decide (¬ text = []) with
    | false => rfl
    | true =>
      cases typeOf declarations text with
      | error fault => rfl
      | ok result =>
        cases result with
        | none => rfl
        | some type =>
          simp only [if_true, Option.bind_some, toOption_ok, toOption_bind, ih (position + 1)]

theorem toOption_parseFunction_squeeze (declarations : Declarations) (line other : Nat) (code : List Char) :
    (parseFunction declarations line (squeeze code)).toOption = (parseFunction declarations other code).toOption := by
  rw [parseFunction, parseFunction]
  simp only [toOption_bind, toOption_atLine, toOption_functionParts_squeeze]
  cases (functionParts code).toOption with
  | none => rfl
  | some parts =>
    simp only [Option.map_some, Option.bind_some, toOption_signatureParts_squeeze]
    cases (signatureParts parts.2).toOption with
    | none => rfl
    | some signature =>
      simp only [Option.map_some, Option.bind_some, paramTexts_squeeze, typeOf_squeeze,
        toOption_parseParams_squeeze _ line other]

/-! ## Lines -/

theorem startsStruct_squeeze (code : List Char) : startsStruct (squeeze code) = startsStruct code := by
  rw [startsStruct, startsStruct, stripStart?_squeeze (solid_of_all rfl)]
  cases stripStart? "struct".toList code with
  | none => rfl
  | some rest =>
    cases rest with
    | nil => rfl
    | cons c rest =>
      obtain ⟨d, more, pushed, kind⟩ := exists_push c (squeeze rest)
      have opens := contains_squeeze (show isBlank '\x7b' = false from rfl) (c :: rest)
      rw [squeeze_cons, pushed] at opens
      simp only [Option.map_some, squeeze_cons, pushed, kind, opens]

theorem startsStruct_append {code : List Char} (starts : startsStruct code = true) (more : List Char) :
    startsStruct (code ++ more) = true := by
  unfold startsStruct at starts
  split at starts
  next c rest stripped =>
    obtain ⟨blank, brace⟩ := Bool.and_eq_true_iff.mp starts
    have inside := List.mem_append_left more (List.contains_iff_mem.mp brace)
    rw [eq_append_of_stripStart? stripped, List.append_assoc, startsStruct, stripStart?_append]
    exact Bool.and_eq_true_iff.mpr ⟨blank, List.contains_iff_mem.mpr inside⟩
  next => cases starts

def uncommented (line : List Char) : List Char := line.takeWhile (· ≠ '#')

theorem codeOf_eq (line : List Char) : codeOf line = trim (uncommented line) := by
  have cut : uncommented line = ((splitOnce? '#' line).map Prod.fst).getD line := by
    unfold uncommented
    induction line with
    | nil => rfl
    | cons c rest ih =>
      rw [splitOnce?, List.takeWhile_cons]
      by_cases mark : c = '#'
      · simp [mark]
      · rw [if_neg mark, if_pos (by simpa using mark), ih, Option.map_map]
        cases splitOnce? '#' rest <;> rfl
  rw [codeOf, cut]
  cases splitOnce? '#' line <;> rfl

/-- The code of a line as it is read, whatever blanks are in it. -/
def lineCode (line : List Char) : List Char := squeeze (codeOf line)

theorem lineCode_eq_nil_iff {line : List Char} : lineCode line = [] ↔ codeOf line = [] := squeeze_eq_nil_iff

private theorem mark_not_mem_codeOf (line : List Char) : '#' ∉ codeOf line := by
  intro member
  rw [codeOf_eq] at member
  have plain := List.mem_takeWhile_imp (mem_of_mem_trim member)
  simp at plain

theorem codeOf_lineCode (line : List Char) : codeOf (lineCode line) = lineCode line := by
  have bare : Bare (squeeze (codeOf line)) := by
    rw [codeOf_eq, ← trim_squeeze]
    exact bare_trim _
  have absent : '#' ∉ squeeze (codeOf line) := fun member =>
    mark_not_mem_codeOf line ((mem_squeeze_iff rfl).mp member)
  exact codeOf_of_bare bare absent

private theorem lineCode_lineCode (line : List Char) : lineCode (lineCode line) = lineCode line := by
  rw [lineCode, codeOf_lineCode, lineCode, squeeze_squeeze]

theorem mem_of_mem_lineCode {c : Char} (solid : isBlank c = false) {line : List Char} (member : c ∈ lineCode line) :
    c ∈ line := by
  rw [lineCode, mem_squeeze_iff solid, codeOf_eq] at member
  exact List.takeWhile_subset _ (mem_of_mem_trim member)

/-- The codes of lines, without those that have none. -/
def codes (lines : List (List Char)) : List (List Char) := (lines.map lineCode).filter (· ≠ [])

structure Alike (first second : Progress) : Prop where
  declarations : first.declarations = second.declarations
  pending : first.pending.map (squeeze ·.code) = second.pending.map (squeeze ·.code)

theorem Alike.refl (progress : Progress) : Alike progress progress := ⟨rfl, rfl⟩

/-- Both computations fail, or both go on alike. -/
inductive Agree : Except BindError Progress → Except BindError Progress → Prop
  | read {first second : Progress} (alike : Alike first second) : Agree (.ok first) (.ok second)
  | refused (error other : BindError) : Agree (.error error) (.error other)

namespace Agree

private theorem bind {first second : Except BindError Progress} (agree : Agree first second)
    {next other : Progress → Except BindError Progress}
    (rest : ∀ progress after, Alike progress after → Agree (next progress) (other after)) :
    Agree (first >>= next) (second >>= other) := by
  cases agree with
  | read alike => exact rest _ _ alike
  | refused error other => exact .refused error other

theorem symm {first second : Except BindError Progress} (agree : Agree first second) : Agree second first := by
  cases agree with
  | read alike => exact .read ⟨alike.declarations.symm, alike.pending.symm⟩
  | refused error other => exact .refused other error

theorem trans {first second third : Except BindError Progress} (agree : Agree first second)
    (rest : Agree second third) : Agree first third := by
  cases agree with
  | read alike =>
    cases rest with
    | read again =>
      exact .read ⟨alike.declarations.trans again.declarations, alike.pending.trans again.pending⟩
  | refused error other =>
    cases rest with
    | refused => exact .refused _ _

private theorem of_toOption {first second : Except BindError Declarations} (same : first.toOption = second.toOption) :
    Agree (do let declarations ← first; .ok ⟨declarations, none⟩)
      (do let declarations ← second; .ok ⟨declarations, none⟩) := by
  cases first with
  | ok declarations =>
    cases second with
    | ok other =>
      cases same
      exact .read ⟨rfl, rfl⟩
    | error error => cases same
  | error error =>
    cases second with
    | ok declarations => cases same
    | error other => exact .refused error other

end Agree

private theorem continueStruct_agree (declarations : Declarations) {first second : Pending}
    (same : squeeze first.code = squeeze second.code) (closed : Bool) :
    Agree (continueStruct declarations first closed) (continueStruct declarations second closed) := by
  cases closed with
  | false => exact .read ⟨rfl, congrArg some same⟩
  | true =>
    refine .of_toOption ?_
    rw [← toOption_parseStruct_squeeze declarations 0, same, toOption_parseStruct_squeeze]

private theorem step_agree {first second : Progress} (alike : Alike first second) (line other : Nat)
    {text code : List Char}
    (same : lineCode text = lineCode code) : Agree (step first line text) (step second other code) := by
  obtain ⟨declarations, waiting⟩ := first
  obtain ⟨_, pending⟩ := second
  obtain ⟨rfl, codes⟩ := alike
  have empty : codeOf text = [] ↔ codeOf code = [] := by
    rw [← lineCode_eq_nil_iff, same, lineCode_eq_nil_iff]
  have closes : (codeOf text).contains '\x7d' = (codeOf code).contains '\x7d' := by
    rw [← contains_squeeze rfl, ← contains_squeeze rfl (codeOf code)]
    exact congrArg (List.contains · '\x7d') same
  have starts : startsStruct (codeOf text) = startsStruct (codeOf code) := by
    rw [← startsStruct_squeeze, ← startsStruct_squeeze (codeOf code)]
    exact congrArg startsStruct same
  simp only [step, empty, closes, starts]
  split
  next => exact .read ⟨rfl, codes⟩
  next =>
    cases waiting with
    | none =>
      cases pending with
      | some pending => cases codes
      | none =>
        dsimp only
        split
        next =>
          refine continueStruct_agree declarations ?_ _
          exact same
        next =>
          refine .of_toOption ?_
          rw [← toOption_parseFunction_squeeze declarations 0,
            ← toOption_parseFunction_squeeze declarations 0 other]
          exact congrArg (fun code => (parseFunction declarations 0 code).toOption) same
    | some waiting =>
      cases pending with
      | none => cases codes
      | some pending =>
        refine continueStruct_agree declarations (squeeze_append_congr (Option.some.inj codes) ?_) _
        rw [squeeze_cons, squeeze_cons]
        exact congrArg (push ' ') same

/-- Lines are read as their codes are, wherever these stand. -/
theorem parseLines_codes {first second : Progress} (alike : Alike first second) (line other : Nat)
    (texts : List (List Char)) :
    Agree (parseLines first line texts) (parseLines second other (codes texts)) := by
  induction texts generalizing first second line other with
  | nil => exact .read alike
  | cons text rest ih =>
    rw [parseLines]
    by_cases empty : lineCode text = []
    · have skipped : step first line text = .ok first := by
        rw [step, if_pos (lineCode_eq_nil_iff.mp empty)]
      have rest : codes (text :: rest) = codes rest := by
        simp [codes, empty]
      rw [skipped, rest]
      exact ih alike _ _
    · have kept : codes (text :: rest) = lineCode text :: codes rest := by
        simp [codes, empty]
      rw [kept, parseLines]
      exact (step_agree alike line other (lineCode_lineCode text).symm).bind fun _ _ after => ih after _ _

theorem parseLines_agree {first second : Progress} (alike : Alike first second) (line other : Nat)
    {texts others : List (List Char)} (same : codes texts = codes others) :
    Agree (parseLines first line texts) (parseLines second other others) := by
  have left := parseLines_codes alike line 1 texts
  have right := parseLines_codes (.refl second) other 1 others
  rw [same] at left
  exact left.trans right.symm

end Interop.Declarations
