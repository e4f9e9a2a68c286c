import Interop.Proofs.Declaration.Codes
import Mathlib.Logic.Relation

/-! Declaration files that are laid out in another way: comments, empty lines, blanks, line ends, and structs over more
or fewer lines. `Edit` is one such change, and `InBody` where lines may be broken and joined.
Main statement: `parse_edited`. -/
namespace Interop.Declarations
open Outcome Text

/-! ## Edits -/

/-- A text that ends between the opening brace of a struct and its first closing brace, and not in a comment. -/
inductive InBody : List Char → Prop
  | opened {front indent name : List Char} {space : Char} (start : AtLineStart front)
    (indented : ∀ c ∈ indent, isBlank c = true) (blank : isBlank space = true)
    (header : ∀ c ∈ indent ++ space :: name, c ∉ ['\n', '#', '\x7b', '\x7d']) :
    InBody (front ++ (indent ++ ("struct".toList ++ space :: name)) ++ ['\x7b'])
  | code {front : List Char} {c : Char} (inside : InBody front) (uncommented : c ≠ '#') (unclosed : c ≠ '\x7d') :
    InBody (front ++ [c])
  | comment {front text : List Char} (inside : InBody front) (single : '\n' ∉ text) :
    InBody (front ++ '#' :: text ++ ['\n'])

/-- One change of how a declaration file is laid out. -/
inductive Edit : List Char → List Char → Prop
  | comment {front behind text : List Char} (ends : AtLineEnd behind) (single : '\n' ∉ text) :
    Edit (front ++ behind) (front ++ '#' :: text ++ behind)
  | lineBefore {front line behind : List Char} (start : AtLineStart front) (codeless : Codeless line) :
    Edit (front ++ behind) (front ++ (line ++ '\n' :: behind))
  | lineAfter {front line behind : List Char} (ends : AtLineEnd behind) (codeless : Codeless line) :
    Edit (front ++ behind) (front ++ '\n' :: (line ++ behind))
  | leading {front run behind : List Char} (start : AtLineStart front) (blanks : ∀ c ∈ run, isBlank c = true)
    (single : '\n' ∉ run) : Edit (front ++ behind) (front ++ (run ++ behind))
  | trailing {front run behind : List Char} (ends : AtLineEnd behind) (blanks : ∀ c ∈ run, isBlank c = true)
    (single : '\n' ∉ run) : Edit (front ++ behind) (front ++ run ++ behind)
  | carriageReturn (front behind : List Char) : Edit (front ++ '\n' :: behind) (front ++ '\r' :: '\n' :: behind)
  | spacing (front : List Char) {run other : List Char} (behind : List Char) (blanks : ∀ c ∈ run, isBlank c = true)
    (filled : run ≠ []) (single : '\n' ∉ run) (others : ∀ c ∈ other, isBlank c = true) (more : other ≠ [])
    (also : '\n' ∉ other) : Edit (front ++ (run ++ behind)) (front ++ (other ++ behind))
  | breakLine {front : List Char} {c : Char} (inside : InBody front) (blank : isBlank c = true) (behind : List Char) :
    Edit (front ++ c :: behind) (front ++ '\n' :: behind)
  | joinLine {front : List Char} (inside : InBody front) (behind : List Char) :
    Edit (front ++ '\n' :: behind) (front ++ ' ' :: behind)

/-! ## Structs over several lines -/

def Opens (line : List Char) : Prop :=
  ∃ indent space rest, line = indent ++ ("struct".toList ++ space :: rest) ∧
    (∀ c ∈ indent, isBlank c = true) ∧ isBlank space = true ∧ '\x7b' ∈ rest

private theorem Opens.append {line : List Char} (opens : Opens line) (more : List Char) : Opens (line ++ more) := by
  obtain ⟨indent, space, rest, rfl, indented, blank, brace⟩ := opens
  exact ⟨indent, space, rest ++ more, by simp, indented, blank, List.mem_append_left _ brace⟩

private theorem startsStruct_of_opens {line : List Char} (opens : Opens line) : startsStruct (trim line) = true := by
  obtain ⟨indent, space, rest, rfl, indented, blank, brace⟩ := opens
  obtain ⟨before, behind, rfl⟩ := List.append_of_mem brace
  have left : trimEnd ('\x7b' :: behind) = '\x7b' :: trimEnd behind := by
    rw [trimEnd_cons, if_neg fun both => absurd both.2 (by decide)]
  have filled : trimEnd ('\x7b' :: behind) ≠ [] := by
    rw [left]
    exact List.cons_ne_nil _ _
  have code : trim ("struct".toList ++ space :: (before ++ '\x7b' :: behind)) =
      "struct".toList ++ space :: (before ++ '\x7b' :: trimEnd behind) := by
    have begins : trimStart ("struct".toList ++ space :: (before ++ '\x7b' :: behind)) = _ :=
      dropWhile_of_head fun c head => by cases head; rfl
    have whole := trimEnd_append filled ("struct".toList ++ space :: before)
    rw [List.append_assoc, List.cons_append, left] at whole
    rw [trim, begins, whole, List.append_assoc, List.cons_append]
  rw [trim_blank_append indented, code, startsStruct, stripStart?_append]
  simp [blank]

private theorem startsStruct_lineCode {line : List Char} (absent : '#' ∉ line) (opens : Opens line) :
    startsStruct (lineCode line) = true := by
  rw [lineCode, startsStruct_squeeze, codeOf_eq, uncommented_of_absent absent]
  exact startsStruct_of_opens opens

private theorem step_open {progress : Progress} (line : Nat) {code : List Char} (plain : codeOf code = code)
    (filled : code ≠ []) (unclosed : '\x7d' ∉ code) (opens : progress.pending = none → startsStruct code = true) :
    ∃ pending, step progress line code = .ok ⟨progress.declarations, some pending⟩ ∧
      ∀ more, codeOf (code ++ ' ' :: more) = code ++ ' ' :: more → step progress line (code ++ ' ' :: more) =
        continueStruct progress.declarations ⟨pending.line, pending.code ++ ' ' :: more⟩ (more.contains '\x7d') := by
  have closes : code.contains '\x7d' = false := by simpa using unclosed
  have together : ∀ more, (code ++ ' ' :: more).contains '\x7d' = more.contains '\x7d' := by
    intro more
    simp [unclosed]
  cases waiting : progress.pending with
  | some pending =>
    refine ⟨⟨pending.line, pending.code ++ ' ' :: code⟩, ?_, fun more whole => ?_⟩
    · rw [step, plain, if_neg filled, waiting, closes]
      rfl
    · rw [step, whole, if_neg (by simp), waiting, together, List.append_assoc]
      rfl
  | none =>
    have starts := opens waiting
    refine ⟨⟨line, code⟩, ?_, fun more whole => ?_⟩
    · rw [step, plain, if_neg filled, waiting, closes]
      simp only [starts, if_true]
      rfl
    · rw [step, whole, if_neg (by simp), waiting, together]
      simp only [startsStruct_append starts, if_true]

private theorem lineCode_append_cons {front : List Char} (absent : '#' ∉ front) {c : Char} (blank : isBlank c = true)
    (rest : List Char) (first : lineCode front ≠ []) (second : lineCode rest ≠ []) :
    lineCode (front ++ c :: rest) = lineCode front ++ ' ' :: lineCode rest := by
  rw [ne_eq, lineCode_eq_nil_iff, codeOf_eq] at first second
  rw [uncommented_of_absent absent] at first
  obtain ⟨indent, before, indented, ended, left⟩ := exists_trim front
  obtain ⟨after, behind, started, closed, right⟩ := exists_trim (uncommented rest)
  have gap : ∀ d ∈ before ++ c :: after, isBlank d = true :=
    List.forall_mem_append.mpr ⟨ended, List.forall_mem_cons.mpr ⟨blank, started⟩⟩
  have bare := (bare_trim front).join first (bare_trim (uncommented rest)) second (before ++ c :: after)
  have code : trim (front ++ c :: uncommented rest) =
      trim front ++ ((before ++ c :: after) ++ trim (uncommented rest)) := by
    have whole := trim_of_blanks indented bare closed
    rw [← whole]
    conv_lhs => rw [left, right]
    simp
  have head := head?_squeeze_ne (bare_trim (uncommented rest)).head
  rw [lineCode, codeOf_eq, uncommented_append_of_absent absent, uncommented_cons blank, code,
    squeeze_append_of_last (bare_trim front).last, squeeze_blanks_append gap (by simp),
    push_of_head?_ne isBlank_space head, lineCode, lineCode, codeOf_eq, codeOf_eq, uncommented_of_absent absent]

private theorem parseLines_broken {progress : Progress} {front : List Char} (absent : '#' ∉ front)
    (unclosed : '\x7d' ∉ front) (opens : progress.pending = none → Opens front) {c : Char} (blank : isBlank c = true)
    (rest : List Char) (line : Nat) : parseLines progress line (codes [front ++ c :: rest]) =
      parseLines progress line (codes [front] ++ codes [rest]) := by
  by_cases first : lineCode front = []
  · have code := codeOf_append_cons_of_left absent blank (lineCode_eq_nil_iff.mp first) rest
    rw [codes_of_codeOf code, codes_of_empty first, List.nil_append]
  · by_cases second : lineCode rest = []
    · have code := codeOf_append_cons_of_right absent blank (lineCode_eq_nil_iff.mp second)
      rw [codes_of_codeOf code, codes_of_empty second, List.append_nil]
    · have whole := lineCode_append_cons absent blank rest first second
      have filled : lineCode (front ++ c :: rest) ≠ [] := by
        rw [whole]
        simp
      have starts : progress.pending = none → startsStruct (lineCode front) = true := fun idle =>
        startsStruct_lineCode absent (opens idle)
      have closes : '\x7d' ∉ lineCode front := fun member => unclosed (mem_of_mem_lineCode rfl member)
      obtain ⟨pending, left, together⟩ := step_open line (codeOf_lineCode front) first closes starts
      have both := together (lineCode rest) (by rw [← whole, codeOf_lineCode])
      rw [codes_of_filled first, codes_of_filled second, codes_of_filled filled, whole]
      simp only [parseLines, List.singleton_append, left, both, ok_bind]
      rw [step, codeOf_lineCode, if_neg second]

/-- A text whose last line goes on with a struct that is open, whatever has been read before it. -/
structure LeavesOpen (platform : Platform) (before line : List Char) : Prop where
  start : AtLineStart before
  single : '\n' ∉ line
  uncommented : '#' ∉ line
  unclosed : '\x7d' ∉ line
  opens : ∀ progress, parseLines ⟨empty platform, none⟩ 1 (textCodes before) = .ok progress →
    progress.pending = none → Opens line

private theorem LeavesOpen.pending {platform : Platform} {before line : List Char}
    (leaves : LeavesOpen platform before line) {progress : Progress}
    (read : parseLines ⟨empty platform, none⟩ 1 (textCodes before ++ codes [line]) = .ok progress) :
    progress.pending ≠ none := by
  rw [parseLines_append] at read
  obtain ⟨middle, first, rest⟩ := bind_eq_ok.mp read
  have starts : middle.pending = none → startsStruct (lineCode line) = true := fun idle =>
    startsStruct_lineCode leaves.uncommented (leaves.opens middle first idle)
  by_cases empty : lineCode line = []
  · rw [codes_of_empty empty] at rest
    cases rest
    intro idle
    have impossible := starts idle
    rw [empty] at impossible
    cases impossible
  · have closes : '\x7d' ∉ lineCode line := fun member => leaves.unclosed (mem_of_mem_lineCode rfl member)
    obtain ⟨pending, left, _⟩ := step_open (1 + (textCodes before).length) (codeOf_lineCode line) empty closes starts
    rw [codes_of_filled empty, parseLines, left, ok_bind, parseLines] at rest
    cases rest
    intro idle
    cases idle

private theorem LeavesOpen.next {platform : Platform} {before line : List Char}
    (leaves : LeavesOpen platform before line)
    (rest : List Char) (single : '\n' ∉ rest) (same : codeOf (line ++ rest) = codeOf line) :
    LeavesOpen platform (before ++ (line ++ rest) ++ ['\n']) [] where
  start := .inr ⟨_, rfl⟩
  single := List.not_mem_nil
  uncommented := List.not_mem_nil
  unclosed := List.not_mem_nil
  opens progress read idle := by
    have whole : '\n' ∉ line ++ rest := by simp [leaves.single, single]
    rw [List.append_assoc, textCodes_line leaves.start whole (.inr ⟨[], rfl⟩),
      codes_of_codeOf same, textCodes_lineFeed, textCodes_nil, List.append_nil] at read
    exact absurd idle (leaves.pending read)

private theorem not_mem_opening {indent name : List Char} {space mark : Char} (other : mark ∉ "struct".toList)
    (unopened : mark ≠ '\x7b') (absent : mark ∉ indent ++ space :: name) :
    mark ∉ indent ++ ("struct".toList ++ space :: name) ++ ['\x7b'] := by
  simp only [List.mem_append, List.mem_cons, List.not_mem_nil, or_false, not_or] at absent ⊢
  exact ⟨⟨absent.1, other, absent.2⟩, unopened⟩

private theorem InBody.leavesOpen {front : List Char} (inside : InBody front) (platform : Platform) :
    ∃ before line, front = before ++ line ∧ LeavesOpen platform before line := by
  -- Behind a line feed the struct is open in any case, and on one line the header is in front of all that follows.
  induction inside with
  | @opened front indent name space start indented blank header =>
    refine ⟨front, indent ++ ("struct".toList ++ space :: name) ++ ['\x7b'], by simp, start, ?_, ?_, ?_, ?_⟩
    · exact not_mem_opening (by simp) (by decide) fun among => header '\n' among (by simp)
    · exact not_mem_opening (by simp) (by decide) fun among => header '#' among (by simp)
    · exact not_mem_opening (by simp) (by decide) fun among => header '\x7d' among (by simp)
    · exact fun _ _ _ => ⟨indent, space, name ++ ['\x7b'], by simp, indented, blank, by simp⟩
  | @code front c inside uncommented unclosed ih =>
    obtain ⟨before, line, rfl, leaves⟩ := ih
    by_cases feed : c = '\n'
    · subst feed
      have next := leaves.next [] List.not_mem_nil (by rw [List.append_nil])
      rw [List.append_nil] at next
      exact ⟨before ++ line ++ ['\n'], [], by simp, next⟩
    · refine ⟨before, line ++ [c], by simp, leaves.start, ?_, ?_, ?_, fun progress read idle => ?_⟩
      · simp [leaves.single, Ne.symm feed]
      · simp [leaves.uncommented, Ne.symm uncommented]
      · simp [leaves.unclosed, Ne.symm unclosed]
      · exact (leaves.opens progress read idle).append [c]
  | @comment front text inside single ih =>
    obtain ⟨before, line, rfl, leaves⟩ := ih
    have next := leaves.next ('#' :: text) (by simp [single]) (codeOf_append_comment line text)
    exact ⟨_, [], by simp, next⟩

/-! ## What edits keep -/

private theorem toOption_parse_congr {text edited : List Char} (same : textCodes text = textCodes edited)
    (platform : Platform) : (parse edited platform).toOption = (parse text platform).toOption := by
  rw [toOption_parse, toOption_parse, same]

private theorem toOption_parse_broken {front : List Char} (inside : InBody front) {c : Char} (blank : isBlank c = true)
    (behind : List Char) (platform : Platform) :
    (parse (front ++ '\n' :: behind) platform).toOption = (parse (front ++ c :: behind) platform).toOption := by
  by_cases feed : c = '\n'
  · rw [feed]
  · obtain ⟨before, line, rfl, leaves⟩ := inside.leavesOpen platform
    obtain ⟨rest, after, rfl, single, ends⟩ := exists_firstLine behind
    have long : '\n' ∉ line ++ c :: rest := by simp [leaves.single, single, Ne.symm feed]
    have joined : textCodes (before ++ line ++ c :: (rest ++ after)) =
        textCodes before ++ (codes [line ++ c :: rest] ++ textCodes after) := by
      have whole := textCodes_line leaves.start long ends
      simpa using whole
    have broken : textCodes (before ++ line ++ '\n' :: (rest ++ after)) =
        textCodes before ++ ((codes [line] ++ codes [rest]) ++ textCodes after) := by
      have second := textCodes_line (.inl rfl) single ends
      rw [List.nil_append, textCodes_nil, List.nil_append] at second
      rw [textCodes_append, textCodes_of_start leaves.start, textCodes_of_absent leaves.single, second]
      simp
    rw [toOption_parse, toOption_parse, joined, broken]
    refine toOption_readLines_of_agree ?_
    rw [parseLines_append, parseLines_append]
    cases read : parseLines ⟨empty platform, none⟩ 1 (textCodes before) with
    | error error => exact .refused error error
    | ok middle =>
      rw [ok_bind, ok_bind, parseLines_append middle _ (codes [line] ++ codes [rest]),
        parseLines_append middle _ (codes [line ++ c :: rest]),
        parseLines_broken leaves.uncommented leaves.unclosed (leaves.opens middle read) blank]
      generalize parseLines middle _ (codes [line] ++ codes [rest]) = outcome
      cases outcome with
      | error error => exact .refused error error
      | ok progress => exact parseLines_agree (.refl progress) _ _ rfl

/-- What an edit does to the text, it does not do to the declarations. -/
private theorem Edit.toOption_parse {text edited : List Char} (edit : Edit text edited) (platform : Platform) :
    (parse edited platform).toOption = (parse text platform).toOption := by
  cases edit with
  | @comment front behind text ends single =>
    refine toOption_parse_congr ?_ platform
    have marked : '\n' ∉ '#' :: text := by simp [single]
    rw [textCodes_of_end ends, textCodes_of_end ends,
      textCodes_append_of_codeOf front marked fun line => codeOf_append_comment line text]
  | @lineBefore front line behind start codeless =>
    refine toOption_parse_congr ?_ platform
    rw [textCodes_of_start start, textCodes_of_start start, textCodes_append, codeless.textCodes_eq, List.nil_append]
  | @lineAfter front line behind ends codeless =>
    refine toOption_parse_congr ?_ platform
    rw [textCodes_append, textCodes_of_end ends, textCodes_of_end ends, codeless.textCodes_eq, List.nil_append]
  | @leading front run behind start blanks single =>
    refine toOption_parse_congr ?_ platform
    obtain ⟨line, after, rfl, absent, ends⟩ := exists_firstLine behind
    have whole : '\n' ∉ run ++ line := by simp [single, absent]
    rw [← List.append_assoc run, textCodes_line start absent ends, textCodes_line start whole ends,
      codes_of_codeOf (codeOf_blanks_append blanks line)]
  | @trailing front run behind ends blanks single =>
    refine toOption_parse_congr ?_ platform
    rw [textCodes_of_end ends, textCodes_of_end ends, textCodes_append_blanks front blanks single]
  | carriageReturn front behind =>
    refine toOption_parse_congr ?_ platform
    have ended := textCodes_append_blanks front (List.forall_mem_singleton.mpr (show isBlank '\r' = true from rfl))
      (by decide)
    have split := textCodes_append (front ++ ['\r']) behind
    rw [List.append_assoc, List.singleton_append] at split
    rw [textCodes_append, split, ended]
  | @spacing front run other behind blanks filled single others more also =>
    refine toOption_parse_congr ?_ platform
    obtain ⟨before, left, rfl, start, first⟩ := exists_lastLine front
    obtain ⟨right, after, rfl, last, ends⟩ := exists_firstLine behind
    have split : ∀ gap, '\n' ∉ gap → textCodes (before ++ left ++ (gap ++ (right ++ after))) =
        textCodes before ++ (codes [left ++ (gap ++ right)] ++ textCodes after) := by
      intro gap absent
      have whole : '\n' ∉ left ++ (gap ++ right) := by simp [first, absent, last]
      rw [← textCodes_line start whole ends]
      simp
    rw [split run single, split other also,
      codes_congr (lineCode_append_blanks_append left blanks filled others more right)]
  | breakLine inside blank behind => exact toOption_parse_broken inside blank behind platform
  | joinLine inside behind => exact (toOption_parse_broken inside isBlank_space behind platform).symm

/-- Texts that differ in layout only are read as the same declarations, or refused both. -/
theorem parse_edited {text edited : List Char} (edits : Relation.EqvGen Edit text edited) (platform : Platform) :
    (parse edited platform).toOption = (parse text platform).toOption := by
  induction edits with
  | rel text edited edit => exact edit.toOption_parse platform
  | refl text => rfl
  | symm text edited _ ih => exact ih.symm
  | trans text middle edited _ _ first rest => exact rest.trans first

/-- Outside the braces a line break is not as good as a space. -/
example : (parse "struct pair \x7b x: int \x7d".toList .lp64).toOption.isSome = true ∧
    (parse "struct pair\n\x7b x: int \x7d".toList .lp64).toOption.isSome = false := by
  decide +kernel

namespace Sample

def header : List Char := "struct pair \x7b".toList

def fields : List Char := "x: int \x7d\nabs: (int) -> int".toList

def plain : List Char := header ++ ' ' :: fields

def edited : List Char := header ++ '#' :: " two".toList ++ '\r' :: '\n' :: fields

end Sample

theorem parse_edited_pair : Relation.EqvGen Edit Sample.plain Sample.edited ∧
    ∃ declared, parse Sample.plain .lp64 = .ok declared ∧ parse Sample.edited .lp64 = .ok declared ∧
      declared.structs.map (·.name) = ["pair"] := by
  have plain : ([] ++ ' ' :: "pair ".toList).all (· ∉ ['\n', '#', '\x7b', '\x7d']) = true := by decide
  have inside : InBody Sample.header :=
    .opened (.inl rfl) (List.forall_mem_nil _) (show isBlank ' ' = true from rfl)
      fun c member => of_decide_eq_true (List.all_eq_true.mp plain c member)
  have broken : Edit Sample.plain (Sample.header ++ '\n' :: Sample.fields) := .breakLine inside rfl _
  have commented : Edit _ (Sample.header ++ '#' :: " two".toList ++ '\n' :: Sample.fields) :=
    .comment (.inr (.inl ⟨_, rfl⟩)) (by decide)
  have returned : Edit _ Sample.edited := .carriageReturn (Sample.header ++ '#' :: " two".toList) Sample.fields
  have edits : Relation.EqvGen Edit Sample.plain Sample.edited :=
    .trans _ _ _ (.rel _ _ broken) (.trans _ _ _ (.rel _ _ commented) (.rel _ _ returned))
  have same := parse_edited edits .lp64
  have names : (parse Sample.plain .lp64).map (·.structs.map (·.name)) = .ok ["pair"] := by
    decide +kernel
  cases read : parse Sample.plain .lp64 with
  | error error =>
    rw [read] at names
    cases names
  | ok declared =>
    rw [read] at names same
    cases again : parse Sample.edited .lp64 with
    | error error =>
      rw [again] at same
      cases same
    | ok other =>
      rw [again] at same
      cases same
      exact ⟨edits, declared, rfl, rfl, Except.ok.inj names⟩

end Interop.Declarations
