import Interop.Proofs.Declaration.Ahead

/-! Every well-formed declaration file is read back, or fails at its first struct whose size is no word.
Main statement: `parse_source`. -/
namespace Interop.Declarations
open Outcome

namespace Ahead

variable {platform : Platform} {declarations : Declarations} {entries : List Entry}

private theorem parseLines_text (ahead : Ahead platform declarations entries) (line : Nat) :
    parseLines ⟨declarations, none⟩ line (entries.map Entry.text) =
      match (structsOf entries).find? fun entry => wordBound ≤ (entry.exactLayout platform).size with
      | none => .ok ⟨⟨platform, declarations.structs ++ (structsOf entries).map (·.exactLayout platform),
          declarations.functions ++ functionsOf entries⟩, none⟩
      | some entry => .error (.layout (.sizeOverflow entry.name)) := by
  -- Reads the entries to the end, or to the first struct that is too large.
  induction entries generalizing declarations line with
  | nil =>
    obtain rfl := ahead.samePlatform
    simp [structsOf, functionsOf, parseLines]
  | cons entry rest ih =>
    obtain rfl := ahead.samePlatform
    cases entry with
    | struct entry =>
      have new : declarations.struct? entry.name = none := find?_eq_none_of_distinct ahead.structsDistinct
      rw [List.map_cons, Entry.text, parseLines, ahead.readable_struct.step_text new, ahead.layout_eq_ite]
      rw [show structsOf (.struct entry :: rest) = entry :: structsOf rest from rfl]
      by_cases word : (entry.exactLayout declarations.platform).size < wordBound
      · have small : decide (wordBound ≤ (entry.exactLayout declarations.platform).size) = false :=
          decide_eq_false (Nat.not_le_of_lt word)
        rw [if_pos word, List.find?_cons, small]
        dsimp only
        rw [ok_bind, ih ahead.push_struct, List.append_assoc]
        rfl
      · have large : decide (wordBound ≤ (entry.exactLayout declarations.platform).size) = true :=
          decide_eq_true (Nat.le_of_not_lt word)
        rw [if_neg word, List.find?_cons, large]
        rfl
    | function decl =>
      have new : declarations.function? decl.name = none := find?_eq_none_of_distinct ahead.functionsDistinct
      rw [List.map_cons, Entry.text, parseLines, ahead.readable_function.step_text new, ok_bind,
        ih ahead.push_function, List.append_assoc]
      rfl

private theorem layout_of_mem (ahead : Ahead platform declarations entries) :
    ∀ entry ∈ structsOf entries, entry.schema.layout platform =
      if (entry.exactLayout platform).size < wordBound then .ok (entry.exactLayout platform)
      else .error (.sizeOverflow entry.name) := by
  induction entries generalizing declarations with
  | nil => exact fun entry member => nomatch member
  | cons entry rest ih =>
    cases entry with
    | struct entry => exact List.forall_mem_cons.mpr ⟨ahead.layout_eq_ite, ih ahead.push_struct⟩
    | function decl => exact ih ahead.push_function

private theorem line_of_mem (ahead : Ahead platform declarations entries) :
    ∀ line ∈ entries.map Entry.text, '\n' ∉ line ∧ '\r' ∉ line ∧ line ≠ [] := by
  induction entries generalizing declarations with
  | nil => exact fun line member => nomatch member
  | cons entry rest ih =>
    cases entry with
    | struct entry =>
      refine List.forall_mem_cons.mpr ⟨⟨?_, ?_, ?_⟩, ih ahead.push_struct⟩
      · exact Text.not_mem_of_forall ahead.readable_struct.lineChar_of_mem (by decide)
      · exact Text.not_mem_of_forall ahead.readable_struct.lineChar_of_mem (by decide)
      · exact entry.text_ne_nil
    | function decl =>
      refine List.forall_mem_cons.mpr ⟨⟨?_, ?_, ?_⟩, ih ahead.push_function⟩
      · exact Text.not_mem_of_forall ahead.readable_function.signatureChar_of_mem (by decide)
      · exact Text.not_mem_of_forall ahead.readable_function.signatureChar_of_mem (by decide)
      · exact ahead.readable_function.functionText_ne_nil

private theorem lines_source (ahead : Ahead platform declarations entries) (closed : Bool) :
    Text.lines (source closed entries) = entries.map Entry.text := by
  have line := ahead.line_of_mem
  refine Text.lines_unlines closed (fun text member => (line text member).1)
    (fun text member => (line text member).2.2) ?_
  intro text member last
  exact (line text member).2.1 (List.mem_of_getLast? last)

end Ahead

private theorem length_fields_lt {closed : Bool} {entries : List Entry}
    (fits : (source closed entries).length < wordBound) :
    ∀ entry ∈ structsOf entries, entry.fields.length < wordBound := by
  -- A file that memory can hold has no struct with more fields than words can count.
  intro entry member
  obtain ⟨written, inside, same⟩ := List.mem_filterMap.mp member
  have shape : written = .struct entry := by
    cases written with
    | struct other => exact congrArg Entry.struct (Option.some.inj same)
    | function decl => cases same
  have line := Text.length_le_unlines (List.mem_map_of_mem (f := Entry.text) inside) closed
  rw [shape] at line
  exact (entry.length_fields_le.trans line).trans_lt fits

private theorem WellFormed.ahead {platform : Platform} {entries : List Entry} (wellFormed : WellFormed platform entries)
    (room : ∀ entry ∈ structsOf entries, entry.fields.length < wordBound) :
    Ahead platform (.empty platform) entries where
  samePlatform := rfl
  known := ⟨by simp [empty], by simp [empty], by simp [empty], .nil⟩
  structs := wellFormed.structs
  room := room
  structsDistinct := wellFormed.structsDistinct
  functions := wellFormed.functions
  functionsDistinct := wellFormed.functionsDistinct
  inScope := wellFormed.inScope

/-- Reading a file that fits into memory gives back what it declares, laid out as C prescribes, if every struct has
a word for its size. Otherwise it fails at the first one that has not. -/
theorem parse_source {platform : Platform} {entries : List Entry} (wellFormed : WellFormed platform entries)
    (closed : Bool) (fits : (source closed entries).length < wordBound) :
    ((∀ entry ∈ structsOf entries, (entry.exactLayout platform).size < wordBound) →
      ∃ declared, parse (source closed entries) platform = .ok declared ∧ declared.platform = platform ∧
        declared.structs.map .ok = (structsOf entries).map (·.schema.layout platform) ∧
        declared.functions = functionsOf entries) ∧
    ∀ before entry after, structsOf entries = before ++ entry :: after →
      (∀ earlier ∈ before, (earlier.exactLayout platform).size < wordBound) →
      wordBound ≤ (entry.exactLayout platform).size →
      parse (source closed entries) platform = .error (.layout (.sizeOverflow entry.name)) := by
  have ahead := wellFormed.ahead (length_fields_lt fits)
  have lines := ahead.parseLines_text 1
  constructor
  · intro small
    have none : (structsOf entries).find? (fun entry => wordBound ≤ (entry.exactLayout platform).size) = none := by
      rw [List.find?_eq_none]
      intro entry member large
      exact Nat.not_lt_of_le (of_decide_eq_true large) (small entry member)
    refine ⟨⟨platform, (structsOf entries).map (·.exactLayout platform), functionsOf entries⟩, ?_, rfl, ?_, rfl⟩
    · rw [parse, ahead.lines_source, lines, none]
      rfl
    · rw [List.map_map]
      apply List.map_congr_left
      intro entry member
      rw [ahead.layout_of_mem entry member, if_pos (small entry member)]
      rfl
  · intro before entry after position small large
    have first : (structsOf entries).find? (fun entry => wordBound ≤ (entry.exactLayout platform).size) =
        some entry := by
      rw [List.find?_eq_some_iff_append]
      refine ⟨decide_eq_true large, before, after, position, ?_⟩
      intro earlier member
      rw [decide_eq_false (Nat.not_le_of_lt (small earlier member))]
      rfl
    rw [parse, ahead.lines_source, lines, first]
    rfl

namespace Sample

def axis : StructEntry := ⟨"axis", [⟨"id", .scalar .u16, .comma⟩, ⟨"value", .scalar .f64, .semicolon⟩], true⟩

def file : List Entry :=
  [.struct axis, .struct ⟨"struct", [⟨"axis", .struct (axis.exactLayout .llp64), .comma⟩], false⟩,
    .function ⟨"structure", [.struct (axis.exactLayout .llp64), .scalar .unsignedLong], none⟩]

private theorem size_axis : (axis.exactLayout .llp64).size = 16 := by cbv

private theorem file_wellFormed : WellFormed .llp64 file where
  structs := by
    simp only [file, structsOf, List.filterMap_cons, Entry.struct?, List.filterMap_nil, List.forall_mem_cons]
    refine ⟨⟨by decide, ?_, by decide⟩, ⟨by decide, ?_, by decide⟩, by simp⟩
    · simp only [axis, List.forall_mem_cons]
      exact ⟨by decide, by decide, by simp⟩
    · simp only [List.forall_mem_cons]
      exact ⟨by decide, by simp⟩
  structsDistinct := by decide
  functions := by
    simp only [file, functionsOf, List.filterMap_cons, Entry.function?, List.filterMap_nil, List.forall_mem_cons]
    exact ⟨by decide, by simp⟩
  functionsDistinct := by decide
  inScope := by
    refine ⟨?_, ?_, ?_, by simp, trivial⟩
    · simp [axis, Declared]
    · rw [List.forall_mem_singleton]
      refine ⟨List.mem_cons_self, ?_⟩
      intro layout same
      cases same
      rw [size_axis]
      decide
    · rw [List.forall_mem_cons, List.forall_mem_singleton]
      exact ⟨List.mem_cons_self, trivial⟩

private theorem file_small : ∀ entry ∈ structsOf file, (entry.exactLayout .llp64).size < wordBound := by
  simp only [file, structsOf, List.filterMap_cons, Entry.struct?, List.filterMap_nil, List.forall_mem_cons]
  exact ⟨by cbv, by cbv, by simp⟩

end Sample

/-- The premises of `parse_source` hold of a file with a struct in a struct, whose last line is not closed. -/
theorem parse_source_sample : ∃ declared, parse (source false Sample.file) .llp64 = .ok declared ∧
    declared.functions = functionsOf Sample.file := by
  have fits : (source false Sample.file).length < wordBound := by cbv
  obtain ⟨declared, read, _, _, functions⟩ := (parse_source Sample.file_wellFormed false fits).1 Sample.file_small
  exact ⟨declared, read, functions⟩

end Interop.Declarations
