import Interop.Proofs.Declaration.Respaced

/-! The codes in a declaration file: what is left of its lines without comments, line ends and needless blanks.
Main statements: `toOption_parse`, that nothing else is read, and `textCodes_of_start`, `textCodes_of_end` and
`textCodes_line` for the codes in parts of a text. -/
namespace Interop.Declarations
open Outcome Text

def AtLineStart (front : List Char) : Prop := front = [] ∨ ∃ before, front = before ++ ['\n']

/-- The rest of a text from the end of a line on, which may be a carriage return with a line feed. -/
def AtLineEnd (behind : List Char) : Prop :=
  behind = [] ∨ (∃ rest, behind = '\n' :: rest) ∨ ∃ rest, behind = '\r' :: '\n' :: rest

def textCodes (text : List Char) : List (List Char) := codes (lines text)

theorem textCodes_nil : textCodes [] = [] := rfl

private theorem codes_append (first rest : List (List Char)) : codes (first ++ rest) = codes first ++ codes rest := by
  rw [codes, List.map_append, List.filter_append, codes, codes]

private theorem codes_cons (line : List Char) (rest : List (List Char)) :
    codes (line :: rest) = codes [line] ++ codes rest :=
  codes_append [line] rest

theorem codes_congr {line other : List Char} (same : lineCode line = lineCode other) :
    codes [line] = codes [other] := by
  rw [codes, codes, List.map_singleton, List.map_singleton, same]

theorem codes_of_codeOf {line other : List Char} (same : codeOf line = codeOf other) : codes [line] = codes [other] :=
  codes_congr (congrArg squeeze same)

theorem codes_of_empty {line : List Char} (empty : lineCode line = []) : codes [line] = [] := by
  simp [codes, empty]

theorem codes_of_filled {line : List Char} (filled : lineCode line ≠ []) : codes [line] = [lineCode line] := by
  simp [codes, filled]

/-! ## One line -/

private theorem uncommented_append_of_mem {front : List Char} (mark : '#' ∈ front) (rest : List Char) :
    uncommented (front ++ rest) = uncommented front := by
  obtain ⟨before, behind, rfl, absent⟩ := List.eq_append_cons_of_mem mark
  have plain : ∀ c ∈ before, decide (c ≠ '#') = true := fun c member => by
    simpa using fun same : c = '#' => absent (same ▸ member)
  simp only [uncommented, List.append_assoc, List.cons_append, List.takeWhile_append_of_pos plain]
  rfl

theorem uncommented_append_of_absent {front : List Char} (absent : '#' ∉ front) (rest : List Char) :
    uncommented (front ++ rest) = front ++ uncommented rest :=
  List.takeWhile_append_of_pos fun c member => by simpa using fun same : c = '#' => absent (same ▸ member)

theorem uncommented_of_absent {line : List Char} (absent : '#' ∉ line) : uncommented line = line := by
  have whole := uncommented_append_of_absent absent []
  rwa [List.append_nil, show uncommented [] = [] from rfl, List.append_nil] at whole

private theorem mark_not_mem_of_blanks {run : List Char} (blanks : ∀ c ∈ run, isBlank c = true) : '#' ∉ run := by
  intro member
  cases blanks '#' member

theorem uncommented_cons {c : Char} (blank : isBlank c = true) (rest : List Char) :
    uncommented (c :: rest) = c :: uncommented rest :=
  uncommented_append_of_absent (mark_not_mem_of_blanks (List.forall_mem_singleton.mpr blank)) rest

theorem codeOf_append_comment (front text : List Char) : codeOf (front ++ '#' :: text) = codeOf front := by
  rw [codeOf_eq, codeOf_eq]
  by_cases mark : '#' ∈ front
  · rw [uncommented_append_of_mem mark]
  · rw [uncommented_append_of_absent mark, uncommented_of_absent mark, show uncommented ('#' :: text) = [] from rfl,
      List.append_nil]

private theorem codeOf_append_blanks (front : List Char) {run : List Char} (blanks : ∀ c ∈ run, isBlank c = true) :
    codeOf (front ++ run) = codeOf front := by
  rw [codeOf_eq, codeOf_eq]
  by_cases mark : '#' ∈ front
  · rw [uncommented_append_of_mem mark]
  · rw [uncommented_append_of_absent mark, uncommented_of_absent mark,
      uncommented_of_absent (mark_not_mem_of_blanks blanks), trim_append_of_blank blanks]

theorem codeOf_blanks_append {run : List Char} (blanks : ∀ c ∈ run, isBlank c = true) (rest : List Char) :
    codeOf (run ++ rest) = codeOf rest := by
  rw [codeOf_eq, uncommented_append_of_absent (mark_not_mem_of_blanks blanks), trim_blank_append blanks, codeOf_eq]

private theorem blanks_of_codeOf_eq_nil {line : List Char} (empty : codeOf line = []) :
    ∀ c ∈ uncommented line, isBlank c = true := by
  rw [codeOf_eq] at empty
  exact blanks_of_trim_eq_nil empty

section Broken

variable {front rest : List Char} (absent : '#' ∉ front) {c : Char} (blank : isBlank c = true)
include absent blank

theorem codeOf_append_cons_of_left (empty : codeOf front = []) (rest : List Char) :
    codeOf (front ++ c :: rest) = codeOf rest := by
  have fronts := blanks_of_codeOf_eq_nil empty
  rw [uncommented_of_absent absent] at fronts
  have blanks : ∀ d ∈ front ++ [c], isBlank d = true :=
    List.forall_mem_append.mpr ⟨fronts, List.forall_mem_singleton.mpr blank⟩
  rw [← List.singleton_append, ← List.append_assoc]
  exact codeOf_blanks_append blanks rest

theorem codeOf_append_cons_of_right (empty : codeOf rest = []) :
    codeOf (front ++ c :: rest) = codeOf front := by
  have blanks : ∀ d ∈ c :: uncommented rest, isBlank d = true :=
    List.forall_mem_cons.mpr ⟨blank, blanks_of_codeOf_eq_nil empty⟩
  rw [codeOf_eq, uncommented_append_of_absent absent, uncommented_cons blank, trim_append_of_blank blanks, codeOf_eq,
    uncommented_of_absent absent]

end Broken

private theorem codeOf_chompReturn (line : List Char) : codeOf (chompReturn line) = codeOf line := by
  unfold chompReturn
  split
  next returns =>
    obtain ⟨front, rfl⟩ := List.getLast?_eq_some_iff.mp returns
    rw [List.dropLast_concat, codeOf_append_blanks front (List.forall_mem_singleton.mpr rfl)]
  next => rfl

theorem lineCode_append_blanks_append (front : List Char) {run other : List Char}
    (blanks : ∀ c ∈ run, isBlank c = true) (filled : run ≠ []) (others : ∀ c ∈ other, isBlank c = true)
    (more : other ≠ []) (rest : List Char) :
    lineCode (front ++ (run ++ rest)) = lineCode (front ++ (other ++ rest)) := by
  simp only [lineCode, codeOf_eq, ← trim_squeeze]
  by_cases mark : '#' ∈ front
  · rw [uncommented_append_of_mem mark, uncommented_append_of_mem mark]
  · rw [uncommented_append_of_absent mark, uncommented_append_of_absent mark,
      uncommented_append_of_absent (mark_not_mem_of_blanks blanks),
      uncommented_append_of_absent (mark_not_mem_of_blanks others)]
    refine congrArg trim (squeeze_append_congr rfl ?_)
    rw [squeeze_blanks_append blanks filled, squeeze_blanks_append others more]

/-! ## Lines of a text -/

theorem textCodes_of_absent {line : List Char} (absent : '\n' ∉ line) : textCodes line = codes [line] := by
  rw [textCodes, lines_of_absent absent]
  split
  next empty =>
    rw [empty]
    rfl
  next => exact codes_of_codeOf (codeOf_chompReturn line)

theorem textCodes_append (front rest : List Char) :
    textCodes (front ++ '\n' :: rest) = textCodes front ++ textCodes rest := by
  induction front using byLines with
  | last line absent =>
    rw [textCodes_of_absent absent, textCodes, lines_append absent, codes_cons,
      codes_of_codeOf (codeOf_chompReturn line)]
    rfl
  | more line front absent ih =>
    have split : ∀ text, textCodes (line ++ '\n' :: text) = codes [line] ++ textCodes text := by
      intro text
      rw [textCodes, lines_append absent, codes_cons, codes_of_codeOf (codeOf_chompReturn line)]
      rfl
    rw [List.append_assoc, List.cons_append, split, split, ih, List.append_assoc]

theorem textCodes_lineFeed (rest : List Char) : textCodes ('\n' :: rest) = textCodes rest := textCodes_append [] rest

theorem textCodes_of_start {front : List Char} (start : AtLineStart front) (rest : List Char) :
    textCodes (front ++ rest) = textCodes front ++ textCodes rest := by
  rcases start with rfl | ⟨before, rfl⟩
  · rfl
  · have before := textCodes_append before []
    rw [textCodes_nil, List.append_nil] at before
    rw [List.append_assoc, List.singleton_append, textCodes_append, before]

theorem exists_lastLine (front : List Char) :
    ∃ before line, front = before ++ line ∧ AtLineStart before ∧ '\n' ∉ line := by
  induction front using byLines with
  | last line absent => exact ⟨[], line, rfl, .inl rfl, absent⟩
  | more line rest absent ih =>
    obtain ⟨before, last, rfl, start, single⟩ := ih
    refine ⟨line ++ '\n' :: before, last, by simp, .inr ?_, single⟩
    rcases start with rfl | ⟨first, rfl⟩
    · exact ⟨line, rfl⟩
    · exact ⟨line ++ '\n' :: first, by simp⟩

theorem exists_firstLine (behind : List Char) :
    ∃ line after, behind = line ++ after ∧ '\n' ∉ line ∧ (after = [] ∨ ∃ rest, after = '\n' :: rest) := by
  induction behind using byLines with
  | last line absent => exact ⟨line, [], by simp, absent, .inl rfl⟩
  | more line rest absent _ => exact ⟨line, '\n' :: rest, rfl, absent, .inr ⟨rest, rfl⟩⟩

theorem textCodes_line {before line after : List Char} (start : AtLineStart before) (single : '\n' ∉ line)
    (ends : after = [] ∨ ∃ rest, after = '\n' :: rest) :
    textCodes (before ++ (line ++ after)) = textCodes before ++ (codes [line] ++ textCodes after) := by
  rw [textCodes_of_start start]
  rcases ends with rfl | ⟨rest, rfl⟩
  · rw [List.append_nil, textCodes_of_absent single, textCodes_nil, List.append_nil]
  · rw [textCodes_append, textCodes_of_absent single, textCodes_lineFeed]

theorem textCodes_append_of_codeOf (front : List Char) {rest : List Char} (single : '\n' ∉ rest)
    (unread : ∀ line, codeOf (line ++ rest) = codeOf line) : textCodes (front ++ rest) = textCodes front := by
  obtain ⟨before, line, rfl, start, absent⟩ := exists_lastLine front
  have whole : '\n' ∉ line ++ rest := by simp [absent, single]
  rw [List.append_assoc, textCodes_of_start start, textCodes_of_start start, textCodes_of_absent whole,
    textCodes_of_absent absent, codes_of_codeOf (unread line)]

theorem textCodes_append_blanks (front : List Char) {run : List Char} (blanks : ∀ c ∈ run, isBlank c = true)
    (single : '\n' ∉ run) : textCodes (front ++ run) = textCodes front :=
  textCodes_append_of_codeOf front single fun line => codeOf_append_blanks line blanks

theorem textCodes_of_end {behind : List Char} (ends : AtLineEnd behind) (front : List Char) :
    textCodes (front ++ behind) = textCodes front ++ textCodes behind := by
  rcases ends with rfl | ⟨rest, rfl⟩ | ⟨rest, rfl⟩
  · rw [List.append_nil, textCodes_nil, List.append_nil]
  · rw [textCodes_append, textCodes_lineFeed]
  · have behind : textCodes ('\r' :: '\n' :: rest) = textCodes rest := textCodes_append ['\r'] rest
    have split := textCodes_append (front ++ ['\r']) rest
    rw [List.append_assoc, List.singleton_append] at split
    rw [split, behind, textCodes_append_blanks front (List.forall_mem_singleton.mpr rfl) (by decide)]

/-- No code is on a line where only blanks are in front of a comment. -/
structure Codeless (line : List Char) : Prop where
  single : '\n' ∉ line
  blanks : ∀ c ∈ uncommented line, isBlank c = true

theorem Codeless.textCodes_eq {line : List Char} (codeless : Codeless line) : textCodes line = [] := by
  have empty := trim_append_of_blank codeless.blanks []
  rw [List.nil_append, ← codeOf_eq] at empty
  rw [textCodes_of_absent codeless.single]
  exact codes_of_empty (lineCode_eq_nil_iff.mpr empty)

/-! ## What is read -/

theorem toOption_readLines_of_agree {platform : Platform} {first second : List (List Char)}
    (agree : Agree (parseLines ⟨empty platform, none⟩ 1 first) (parseLines ⟨empty platform, none⟩ 1 second)) :
    (readLines platform first).toOption = (readLines platform second).toOption := by
  unfold readLines
  generalize parseLines ⟨empty platform, none⟩ 1 first = one at agree
  generalize parseLines ⟨empty platform, none⟩ 1 second = two at agree
  cases agree with
  | refused => rfl
  | @read first second alike =>
    obtain ⟨declarations, pending⟩ := first
    obtain ⟨_, other⟩ := second
    obtain ⟨rfl, same⟩ := alike
    cases pending <;> cases other <;> first | rfl | cases same

/-- A text is read as the codes in it are. -/
theorem toOption_parse (text : List Char) (platform : Platform) :
    (parse text platform).toOption = (readLines platform (textCodes text)).toOption :=
  toOption_readLines_of_agree (parseLines_codes (.refl _) 1 1 (lines text))

end Interop.Declarations
