import Interop.Proofs.Declaration.LineOutcomes
import Interop.Proofs.Text.LeadingLines

/-! The first lines of a declaration file, against the whole of it.
`Reached` relates the lines so far to what has been read; main statement: `parse_prefixes`. -/
namespace Interop.Declarations
open Outcome

def readLines (platform : Platform) (lines : List (List Char)) : Except BindError Declarations := do
  let progress ← parseLines ⟨empty platform, none⟩ 1 lines
  match progress.pending with
  | none => .ok progress.declarations
  | some pending => .error (.parse pending.line .unterminatedStruct)

private theorem parse_eq_readLines (text : List Char) (platform : Platform) :
    parse text platform = readLines platform (Text.lines text) := rfl

/-- A struct begins on a line, behind complete declarations, and no line from there on closes it. -/
inductive StaysOpen (platform : Platform) : List (List Char) → Nat → Prop
  | intro {before after : List (List Char)} {first : List Char} {declared : Declarations}
    (complete : readLines platform before = .ok declared) (starts : startsStruct (codeOf first) = true)
    (unclosed : ∀ line ∈ first :: after, '}' ∉ codeOf line) :
    StaysOpen platform (before ++ first :: after) (before.length + 1)

structure Begins (platform : Platform) (lines : List (List Char)) (line : Nat) : Prop where
  counted : 1 ≤ line
  bounded : line ≤ lines.length
  complete : ∃ declared, readLines platform (lines.take (line - 1)) = .ok declared

structure Extends (declarations more : Declarations) : Prop where
  structs : declarations.structs <+: more.structs
  functions : declarations.functions <+: more.functions

section Lines

variable {platform : Platform} {lines : List (List Char)} {line : Nat}

private theorem Begins.append (begins : Begins platform lines line) (more : List (List Char)) :
    Begins platform (lines ++ more) line := by
  have bounded := begins.bounded
  refine ⟨begins.counted, ?_, ?_⟩
  · rw [List.length_append]
    omega
  · rw [List.take_append_of_le_length (by omega)]
    exact begins.complete

private theorem begins_next {declared : Declarations} (complete : readLines platform lines = .ok declared)
    (text : List Char) (more : List (List Char)) : Begins platform (lines ++ text :: more) (lines.length + 1) := by
  refine ⟨Nat.le_add_left _ _, ?_, declared, ?_⟩
  · rw [List.length_append, List.length_cons]
    omega
  · rw [Nat.add_sub_cancel, List.take_left]
    exact complete

private theorem StaysOpen.begins (staysOpen : StaysOpen platform lines line) : Begins platform lines line := by
  cases staysOpen with
  | intro complete starts unclosed => exact begins_next complete _ _

private theorem StaysOpen.append (staysOpen : StaysOpen platform lines line) {text : List Char}
    (unclosed : '}' ∉ codeOf text) : StaysOpen platform (lines ++ [text]) line := by
  cases staysOpen with
  | intro complete starts earlier =>
    rw [List.append_assoc, List.cons_append]
    refine .intro complete starts ?_
    rw [← List.cons_append]
    exact List.forall_mem_append.mpr ⟨earlier, List.forall_mem_singleton.mpr unclosed⟩

end Lines

theorem Extends.refl (declarations : Declarations) : Extends declarations declarations :=
  ⟨List.prefix_refl _, List.prefix_refl _⟩

theorem Extends.trans {first second third : Declarations} (start : Extends first second)
    (rest : Extends second third) : Extends first third :=
  ⟨start.structs.trans rest.structs, start.functions.trans rest.functions⟩

/-! ## One line after the other -/

/-- Lines have been read up to some progress, and what is pending is a struct that they leave open. -/
structure Reached (platform : Platform) (lines : List (List Char)) (progress : Progress) : Prop where
  read : parseLines ⟨empty platform, none⟩ 1 lines = .ok progress
  pending : ∀ pending, progress.pending = some pending → StaysOpen platform lines pending.line

theorem parseLines_append (progress : Progress) (line : Nat) (lines more : List (List Char)) :
    parseLines progress line (lines ++ more) = (do
      let middle ← parseLines progress line lines
      parseLines middle (line + lines.length) more) := by
  induction lines generalizing progress line with
  | nil => rfl
  | cons text rest ih =>
    rw [List.cons_append, parseLines, parseLines]
    cases step progress line text with
    | error error => rfl
    | ok next =>
      rw [ok_bind, ok_bind, ih, List.length_cons, Nat.add_assoc, Nat.add_comm 1]

namespace Reached

variable {platform : Platform} {lines : List (List Char)} {progress : Progress}

private theorem start (platform : Platform) : Reached platform [] ⟨empty platform, none⟩ := ⟨rfl, nofun⟩

variable (reached : Reached platform lines progress)
include reached

private theorem complete (idle : progress.pending = none) : readLines platform lines = .ok progress.declarations := by
  rw [readLines, reached.read, ok_bind, idle]

section Line

variable {text : List Char} {pending : Pending}

private theorem staysOpen (code : StructCode progress (lines.length + 1) text pending) (unclosed : '}' ∉ codeOf text) :
    StaysOpen platform (lines ++ [text]) pending.line := by
  cases code with
  | first idle starts => exact .intro (reached.complete idle) starts (List.forall_mem_singleton.mpr unclosed)
  | further waiting => exact (reached.pending _ waiting).append unclosed

private theorem begins (code : StructCode progress (lines.length + 1) text pending) :
    Begins platform (lines ++ [text]) pending.line := by
  cases code with
  | first idle starts => exact begins_next (reached.complete idle) text []
  | further waiting => exact (reached.pending _ waiting).begins.append [text]

private theorem next {after : Progress} (ok : step progress (lines.length + 1) text = .ok after) :
    Reached platform (lines ++ [text]) after := by
  have reads := step_reads progress (lines.length + 1) text
  constructor
  · rw [parseLines_append, reached.read, ok_bind, Nat.add_comm, parseLines, ok, ok_bind, parseLines]
  · rw [ok] at reads
    intro pending waiting
    cases reads with
    | blank empty =>
      apply (reached.pending pending waiting).append
      rw [empty]
      exact List.not_mem_nil
    | waits code unclosed =>
      cases waiting
      exact reached.staysOpen code unclosed
    | struct => cases waiting
    | function => cases waiting

private theorem begins_of_error {line : Nat} {fault : SyntaxFault}
    (failed : step progress (lines.length + 1) text = .error (.parse line fault)) :
    Begins platform (lines ++ [text]) line := by
  have reads := step_reads progress (lines.length + 1) text
  rw [failed] at reads
  cases reads with
  | structFails code fails =>
    cases fails with
    | text inText =>
      cases inText
      exact reached.begins code
  | functionFails idle inText =>
    cases inText
    exact begins_next (reached.complete idle) text []

end Line

private theorem run (rest : List (List Char)) :
    (∀ last, parseLines progress (lines.length + 1) rest = .ok last → Reached platform (lines ++ rest) last) ∧
      ∀ line fault, parseLines progress (lines.length + 1) rest = .error (.parse line fault) →
        Begins platform (lines ++ rest) line := by
  induction rest generalizing lines progress with
  | nil =>
    rw [List.append_nil]
    refine ⟨?_, nofun⟩
    rintro last ⟨⟩
    exact reached
  | cons text rest ih =>
    rw [parseLines]
    cases outcome : step progress (lines.length + 1) text with
    | error error =>
      refine ⟨nofun, ?_⟩
      rintro line fault ⟨⟩
      rw [← List.singleton_append, ← List.append_assoc]
      exact (reached.begins_of_error outcome).append rest
    | ok next =>
      have later := ih (reached.next outcome)
      rwa [List.length_append, List.length_singleton, List.append_assoc, List.singleton_append] at later

end Reached

private theorem extends_of_reads {progress next : Progress} {line : Nat} {text : List Char}
    (reads : Reads progress line text (.ok next)) : Extends progress.declarations next.declarations := by
  cases reads with
  | blank empty => exact .refl _
  | waits code unclosed => exact .refl _
  | struct code read laid => exact ⟨List.prefix_append _ _, List.prefix_refl _⟩
  | function idle read => exact ⟨List.prefix_refl _, List.prefix_append _ _⟩

private theorem extends_of_parseLines {progress last : Progress} {line : Nat} {lines : List (List Char)}
    (ok : parseLines progress line lines = .ok last) : Extends progress.declarations last.declarations := by
  induction lines generalizing progress line with
  | nil =>
    cases ok
    exact .refl _
  | cons text rest ih =>
    obtain ⟨next, stepped, ok⟩ := bind_eq_ok.mp ok
    have reads := step_reads progress line text
    rw [stepped] at reads
    exact (extends_of_reads reads).trans (ih ok)

/-! ## Whole files -/

section File

variable {platform : Platform} {lines : List (List Char)}

private theorem begins_of_readLines {line : Nat} {fault : SyntaxFault}
    (failed : readLines platform lines = .error (.parse line fault)) : Begins platform lines line := by
  obtain ⟨reaches, begins⟩ := (Reached.start platform).run lines
  rw [readLines] at failed
  cases run : parseLines ⟨empty platform, none⟩ 1 lines with
  | error error =>
    rw [run] at failed
    cases failed
    exact begins line fault run
  | ok last =>
    rw [run, ok_bind] at failed
    cases waiting : last.pending with
    | none =>
      rw [waiting] at failed
      cases failed
    | some pending =>
      rw [waiting] at failed
      cases failed
      exact ((reaches last run).pending pending waiting).begins

private theorem readLines_take {declared : Declarations} (ok : readLines platform lines = .ok declared) (count : Nat) :
    (∃ earlier, readLines platform (lines.take count) = .ok earlier ∧ Extends earlier declared) ∨
      ∃ line, readLines platform (lines.take count) = .error (.parse line .unterminatedStruct) ∧
        StaysOpen platform (lines.take count) line := by
  obtain ⟨last, run, done⟩ := bind_eq_ok.mp ok
  rw [← List.take_append_drop count lines, parseLines_append] at run
  obtain ⟨middle, first, rest⟩ := bind_eq_ok.mp run
  have reached : Reached platform (lines.take count) middle := ((Reached.start platform).run _).1 middle first
  -- All that can be wrong with the first lines is what they leave open.
  have grown := extends_of_parseLines rest
  cases waiting : middle.pending with
  | none =>
    cases ended : last.pending with
    | some pending =>
      rw [ended] at done
      cases done
    | none =>
      rw [ended] at done
      cases done
      exact .inl ⟨middle.declarations, reached.complete waiting, grown⟩
  | some pending =>
    refine .inr ⟨pending.line, ?_, reached.pending pending waiting⟩
    rw [readLines, first, ok_bind, waiting]

end File

/-- An error of the words on some line leaves the lines before it a file of their own. If there is none, the first
lines of the file declare the first of its structs and functions, unless they end inside a struct. -/
theorem parse_prefixes (text : List Char) (platform : Platform) :
    (∀ line fault, parse text platform = .error (.parse line fault) →
      1 ≤ line ∧ line ≤ (Text.lines text).length ∧
        ∀ start, Text.lines start = (Text.lines text).take (line - 1) →
          ∃ declared, parse start platform = .ok declared) ∧
    ∀ declared, parse text platform = .ok declared →
      ∀ count start, Text.lines start = (Text.lines text).take count →
        (∃ earlier, parse start platform = .ok earlier ∧
          earlier.structs <+: declared.structs ∧ earlier.functions <+: declared.functions) ∨
        ∃ line, parse start platform = .error (.parse line .unterminatedStruct) ∧
          StaysOpen platform (Text.lines start) line := by
  simp only [parse_eq_readLines]
  constructor
  · intro line fault failed
    have begins := begins_of_readLines failed
    refine ⟨begins.counted, begins.bounded, ?_⟩
    intro start same
    rw [same]
    exact begins.complete
  · intro declared ok count start same
    rw [same]
    obtain ⟨earlier, read, grown⟩ | unterminated := readLines_take ok count
    · exact .inl ⟨earlier, read, grown.structs, grown.functions⟩
    · exact .inr unterminated

/-- A struct over several lines, a function, and a struct that is refused when its last line has been read. -/
def Sample.refused : List Char :=
  "struct a \x7b\r\n\n p: t* \x7d # one\nmake: (t*) -> struct a\n struct b \x7b\n x \x7d".toList

/-- The refused struct begins on the fifth line. The four before it declare the other struct and the function, of which
the first three declare a part, and the first two leave the struct open. -/
theorem parse_prefixes_refused :
    parse Sample.refused .lp64 = .error (.parse 5 (.missingFieldType "x")) ∧
      ∃ declared, parse (Text.firstLines 4 Sample.refused) .lp64 = .ok declared ∧
        declared.functions.map (·.name) = ["make"] ∧
        (∃ earlier, parse (Text.firstLines 3 Sample.refused) .lp64 = .ok earlier ∧
          earlier.structs <+: declared.structs ∧ earlier.functions <+: declared.functions) ∧
        ∃ line, parse (Text.firstLines 2 Sample.refused) .lp64 = .error (.parse line .unterminatedStruct) ∧
          StaysOpen .lp64 (Text.lines (Text.firstLines 2 Sample.refused)) line := by
  have refused : (parse Sample.refused .lp64).map (fun _ => ()) = .error (.parse 5 (.missingFieldType "x")) := by
    decide +kernel
  have names : (parse (Text.firstLines 4 Sample.refused) .lp64).map (·.functions.map (·.name)) = .ok ["make"] := by
    decide +kernel
  have failed := map_eq_error.mp refused
  have shorter (count : Nat) (fewer : count ≤ 4) : Text.lines (Text.firstLines count Sample.refused) =
      (Text.lines (Text.firstLines 4 Sample.refused)).take count := by
    simp only [Text.lines_firstLines, List.take_take, Nat.min_eq_left fewer]
  obtain ⟨_, _, before⟩ := (parse_prefixes Sample.refused .lp64).1 5 _ failed
  obtain ⟨declared, read⟩ := before _ (Text.lines_firstLines 4 Sample.refused)
  have parts := (parse_prefixes (Text.firstLines 4 Sample.refused) .lp64).2 declared read
  have functions : declared.functions.map (·.name) = ["make"] := by
    rw [read] at names
    exact Except.ok.inj names
  refine ⟨failed, declared, read, functions, ?_, ?_⟩
  · have closed : (parse (Text.firstLines 3 Sample.refused) .lp64).toOption.isSome = true := by decide +kernel
    obtain earlier | ⟨_, unterminated, _⟩ := parts 3 _ (shorter 3 (by decide))
    · exact earlier
    · rw [unterminated] at closed
      cases closed
  · have unterminated : parse (Text.firstLines 2 Sample.refused) .lp64 = .error (.parse 1 .unterminatedStruct) := rfl
    obtain ⟨earlier, complete, _⟩ | staysOpen := parts 2 _ (shorter 2 (by decide))
    · rw [unterminated] at complete
      cases complete
    · exact staysOpen

end Interop.Declarations
