import Interop.Proofs.Declaration.Spelling

/-! The line of a struct, read back part by part.
Main statement: `StructEntry.Readable.step_text`. -/
namespace Interop.Declarations
open Outcome

def isFieldMark (c : Char) : Bool := c == ',' || c == ';'

def isFieldChar (c : Char) : Bool := isTypeChar c || c == ':'

def isBodyChar (c : Char) : Bool := isFieldChar c || isFieldMark c

def isLineChar (c : Char) : Bool := isBodyChar c || c == '{' || c == '}'

private theorem isFieldMark_char (mark : Mark) : isFieldMark mark.char = true := by
  cases mark <;> rfl

private theorem isFieldMark_of_isFieldChar {c : Char} (fieldChar : isFieldChar c = true) : isFieldMark c = false := by
  apply Bool.eq_false_iff.mpr
  intro mark
  simp only [isFieldMark, Bool.or_eq_true, beq_iff_eq] at mark
  rcases mark with rfl | rfl <;> revert fieldChar <;> decide

structure FieldEntry.Readable (declarations : Declarations) (field : FieldEntry) : Prop where
  name : isIdentifier field.name.toList = true
  type : TypeReadable declarations field.type

namespace FieldEntry.Readable

variable {declarations : Declarations} {field : FieldEntry} (readable : field.Readable declarations)
include readable

private theorem bare : Text.Bare field.text :=
  Text.Bare.join (bare_of_isIdentifier readable.name) (ne_nil_of_isIdentifier readable.name)
    (bare_text readable.type.named) (text_ne_nil readable.type.named) [':', ' ']

private theorem ne_nil : field.text ≠ [] :=
  List.append_ne_nil_of_left_ne_nil (ne_nil_of_isIdentifier readable.name) _

private theorem fieldChar_of_mem : ∀ c ∈ field.text, isFieldChar c = true := by
  have name : ∀ c ∈ field.name.toList, isFieldChar c = true := by
    intro c member
    simp only [isFieldChar, isTypeChar, nameChar_of_mem readable.name c member, Bool.true_or]
  have type : ∀ c ∈ field.type.text.toList, isFieldChar c = true := by
    intro c member
    simp only [isFieldChar, typeChar_of_mem readable.type.named c member, Bool.true_or]
  exact List.forall_mem_append.mpr ⟨name, List.forall_mem_cons.mpr ⟨rfl, List.forall_mem_cons.mpr ⟨rfl, type⟩⟩⟩

private theorem fieldMark_of_mem : ∀ c ∈ field.text, isFieldMark c = false :=
  fun c member => isFieldMark_of_isFieldChar (readable.fieldChar_of_mem c member)

private theorem fieldParts_text : fieldParts field.text = .ok (field.name.toList, field.type.text.toList) := by
  have absent : ':' ∉ field.name.toList := Text.not_mem_of_forall (nameChar_of_mem readable.name) (by decide)
  have type : Text.trim (' ' :: field.type.text.toList) = field.type.text.toList := by
    rw [Text.trim_cons_blank Text.isBlank_space]
    exact readable.type.trim_text
  rw [fieldParts, FieldEntry.text, Text.splitOnce?_append absent]
  dsimp only
  rw [trim_of_isIdentifier readable.name, type, if_pos readable.name]

end FieldEntry.Readable

variable {declarations : Declarations}

private theorem fieldTexts_eq (body : List Char) :
    fieldTexts body = ((Text.splitAll isFieldMark body).map Text.trim).filter (· ≠ []) := rfl

private theorem fieldTexts_fieldsText {fields : List FieldEntry}
    (readable : ∀ field ∈ fields, field.Readable declarations) (trailing : Bool) :
    fieldTexts (StructEntry.fieldsText trailing fields) = fields.map FieldEntry.text := by
  induction fields with
  | nil => rfl
  | cons field rest ih =>
    obtain ⟨first, others⟩ := List.forall_mem_cons.mp readable
    have piece : Text.trim field.text = field.text := Text.trim_of_bare first.bare
    have kept : ∀ pieces, (field.text :: pieces).filter (· ≠ []) = field.text :: pieces.filter (· ≠ []) :=
      fun pieces => List.filter_cons_of_pos (decide_eq_true first.ne_nil)
    have cut := fun after => Text.splitAll_append first.fieldMark_of_mem (isFieldMark_char field.mark) after
    rw [fieldTexts_eq] at ih ⊢
    cases rest with
    | nil =>
      cases trailing with
      | true =>
        rw [StructEntry.fieldsText, if_pos rfl, cut, List.map_cons, piece, kept]
        rfl
      | false =>
        have absent : ∀ c ∈ field.text ++ [' '], isFieldMark c = false := by
          intro c member
          rcases List.mem_append.mp member with inside | final
          · exact first.fieldMark_of_mem c inside
          · rw [List.mem_singleton.mp final]
            rfl
        rw [StructEntry.fieldsText, if_neg Bool.false_ne_true, Text.splitAll_of_absent absent, List.map_singleton,
          Text.trim_append_of_blank (List.forall_mem_singleton.mpr Text.isBlank_space), piece, kept]
        rfl
    | cons next rest =>
      rw [StructEntry.fieldsText, cut, List.map_cons, Text.map_trim_splitAll_cons Text.isBlank_space rfl, piece,
        kept, ih others]
      rfl

private theorem fieldTexts_body {entry : StructEntry} (readable : ∀ field ∈ entry.fields, field.Readable declarations) :
    fieldTexts entry.body = entry.fields.map FieldEntry.text := by
  rw [StructEntry.body, fieldTexts_eq, Text.map_trim_splitAll_cons Text.isBlank_space rfl, ← fieldTexts_eq]
  exact fieldTexts_fieldsText readable entry.trailing

private theorem parseFields_text {fields : List FieldEntry} (readable : ∀ field ∈ fields, field.Readable declarations)
    (line : Nat) (schema : StructSchema) :
    parseFields declarations line schema (fields.map FieldEntry.text) =
      .ok (schema.declare (fields.map fun field => (field.name, field.type))) := by
  induction fields generalizing schema with
  | nil => rfl
  | cons field rest ih =>
    obtain ⟨first, others⟩ := List.forall_mem_cons.mp readable
    rw [List.map_cons, parseFields, first.fieldParts_text]
    dsimp only [atLine, ok_bind]
    rw [first.type.typeOf_text]
    dsimp only [atLine, ok_bind]
    rw [String.ofList_toList]
    exact ih others _

private theorem bodyChar_of_mem {fields : List FieldEntry} (readable : ∀ field ∈ fields, field.Readable declarations)
    (trailing : Bool) : ∀ c ∈ StructEntry.fieldsText trailing fields, isBodyChar c = true := by
  have mark : ∀ mark : Mark, isBodyChar mark.char = true := by
    intro mark
    cases mark <;> rfl
  induction fields with
  | nil => simp [StructEntry.fieldsText]
  | cons field rest ih =>
    obtain ⟨first, others⟩ := List.forall_mem_cons.mp readable
    have inside : ∀ c ∈ field.text, isBodyChar c = true := by
      intro c member
      rw [isBodyChar, first.fieldChar_of_mem c member, Bool.true_or]
    cases rest with
    | nil =>
      cases trailing with
      | true => simpa [StructEntry.fieldsText, or_imp, forall_and, mark] using ⟨inside, rfl⟩
      | false => simpa [StructEntry.fieldsText, or_imp, forall_and] using ⟨inside, rfl⟩
    | cons next rest =>
      simp only [StructEntry.fieldsText, List.mem_append, List.mem_cons, or_imp, forall_and, forall_eq]
      exact ⟨inside, mark field.mark, rfl, ih others⟩

private theorem StructEntry.text_eq (entry : StructEntry) :
    entry.text = "struct".toList ++ ((' ' :: entry.name.toList ++ [' ']) ++ '{' :: (entry.body ++ ['}'])) := rfl

structure StructEntry.Readable (declarations : Declarations) (entry : StructEntry) : Prop where
  name : isIdentifier entry.name.toList = true
  fields : ∀ field ∈ entry.fields, field.Readable declarations

namespace StructEntry.Readable

variable {entry : StructEntry} (readable : entry.Readable declarations)
include readable

private theorem structParts_text : structParts entry.text = .ok (entry.name.toList, entry.body) := by
  have opened : '{' ∉ ' ' :: entry.name.toList ++ [' '] := by
    have absent : '{' ∉ entry.name.toList := Text.not_mem_of_forall (nameChar_of_mem readable.name) (by decide)
    simpa using absent
  have closed : '}' ∉ entry.body := by
    have chars : ∀ c ∈ entry.body, isBodyChar c = true :=
      List.forall_mem_cons.mpr ⟨rfl, bodyChar_of_mem readable.fields entry.trailing⟩
    exact Text.not_mem_of_forall chars (by decide)
  have bare := bare_of_isIdentifier readable.name
  have name : Text.trim (' ' :: entry.name.toList ++ [' ']) = entry.name.toList := by
    rw [List.cons_append, Text.trim_cons_blank Text.isBlank_space,
      Text.trim_append_of_blank (List.forall_mem_singleton.mpr Text.isBlank_space)]
    exact Text.trim_of_bare bare
  rw [structParts, text_eq, Text.stripStart?_append, Option.getD_some, Text.splitOnce?_append opened]
  dsimp only
  rw [Text.splitOnce?_append closed]
  dsimp only
  rw [name, readable.name]
  rfl

private theorem parseStruct_text (new : declarations.struct? entry.name = none) (line : Nat) :
    parseStruct declarations line entry.text =
      match entry.schema.layout declarations.platform with
      | .ok layout => .ok { declarations with structs := declarations.structs ++ [layout] }
      | .error reason => .error (.layout reason) := by
  rw [parseStruct, readable.structParts_text]
  dsimp only [atLine, ok_bind]
  rw [String.ofList_toList, new, fieldTexts_body readable.fields]
  dsimp only [Option.isNone_none, require, if_true, atLine, ok_bind]
  rw [parseFields_text readable.fields]
  rfl

theorem lineChar_of_mem : ∀ c ∈ entry.text, isLineChar c = true := by
  have keyword : ∀ c ∈ "struct".toList, isLineChar c = true := List.all_eq_true.mp (by decide)
  have name : ∀ c ∈ entry.name.toList, isLineChar c = true := by
    intro c member
    simp only [isLineChar, isBodyChar, isFieldChar, isTypeChar, nameChar_of_mem readable.name c member, Bool.true_or]
  have body : ∀ c ∈ entry.body, isLineChar c = true := by
    refine List.forall_mem_cons.mpr ⟨rfl, ?_⟩
    intro c member
    simp only [isLineChar, bodyChar_of_mem readable.fields entry.trailing c member, Bool.true_or]
  have before : ∀ c ∈ ' ' :: entry.name.toList ++ [' '], isLineChar c = true :=
    List.forall_mem_append.mpr ⟨List.forall_mem_cons.mpr ⟨rfl, name⟩, List.forall_mem_singleton.mpr rfl⟩
  have after : ∀ c ∈ '{' :: (entry.body ++ ['}']), isLineChar c = true :=
    List.forall_mem_cons.mpr ⟨rfl, List.forall_mem_append.mpr ⟨body, List.forall_mem_singleton.mpr rfl⟩⟩
  exact List.forall_mem_append.mpr ⟨keyword, List.forall_mem_append.mpr ⟨before, after⟩⟩

end StructEntry.Readable

namespace StructEntry

private theorem bare_text (entry : StructEntry) : Text.Bare entry.text := by
  have keyword : Text.Bare "struct".toList := .of_ends (by decide)
  have brace : Text.Bare ['}'] := .of_ends rfl
  have split : (' ' :: entry.name.toList ++ [' ']) ++ '{' :: (entry.body ++ ['}']) =
      ((' ' :: entry.name.toList ++ [' ']) ++ '{' :: entry.body) ++ ['}'] :=
    (List.append_assoc _ ('{' :: entry.body) ['}']).symm
  rw [text_eq, split]
  exact keyword.join (by decide) brace (by decide) _

private theorem startsStruct_text (entry : StructEntry) : startsStruct entry.text = true := by
  have opened : ((' ' :: entry.name.toList ++ [' ']) ++ '{' :: (entry.body ++ ['}'])).contains '{' = true :=
    List.contains_iff_mem.mpr (List.mem_append_right _ List.mem_cons_self)
  rw [startsStruct, text_eq, Text.stripStart?_append]
  exact Bool.and_eq_true_iff.mpr ⟨rfl, opened⟩

theorem text_ne_nil (entry : StructEntry) : entry.text ≠ [] := by
  rw [text_eq]
  exact List.append_ne_nil_of_left_ne_nil (by decide) _

theorem length_fields_le (entry : StructEntry) : entry.fields.length ≤ entry.text.length := by
  have each : ∀ (trailing : Bool) (fields : List FieldEntry), fields.length ≤ (fieldsText trailing fields).length := by
    intro trailing fields
    induction fields with
    | nil => exact Nat.le_refl _
    | cons field rest ih =>
      cases rest with
      | nil => cases trailing <;> simp [fieldsText]
      | cons next rest =>
        simp only [fieldsText, List.length_append, List.length_cons] at ih ⊢
        omega
  have inner := each entry.trailing entry.fields
  rw [text_eq, body]
  simp only [List.length_append, List.length_cons]
  omega

private theorem contains_text (entry : StructEntry) : entry.text.contains '}' = true := by
  have inside : '}' ∈ entry.body ++ ['}'] := List.mem_append_right _ List.mem_cons_self
  exact List.contains_iff_mem.mpr
    (List.mem_append_right _ (List.mem_append_right _ (List.mem_cons_of_mem _ inside)))

theorem Readable.step_text {entry : StructEntry} (readable : entry.Readable declarations)
    (new : declarations.struct? entry.name = none) (line : Nat) :
    step ⟨declarations, none⟩ line entry.text =
      match entry.schema.layout declarations.platform with
      | .ok layout => .ok ⟨{ declarations with structs := declarations.structs ++ [layout] }, none⟩
      | .error reason => .error (.layout reason) := by
  have code : codeOf entry.text = entry.text :=
    codeOf_of_bare entry.bare_text (Text.not_mem_of_forall readable.lineChar_of_mem (by decide))
  rw [step, code]
  dsimp only
  rw [if_neg entry.text_ne_nil, entry.startsStruct_text, if_pos rfl, continueStruct, entry.contains_text, if_pos rfl,
    readable.parseStruct_text new]
  cases entry.schema.layout declarations.platform <;> rfl

end StructEntry
end Interop.Declarations
