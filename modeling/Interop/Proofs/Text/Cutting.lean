import Interop.Text.Blank
import Interop.Text.Split
import Mathlib.Data.List.TakeWhile

/-! What is cut out of a text that was put together: its pieces, its lines, and its words without blanks.
Main statements: `splitAll_append`, `lines_unlines`, `trim_of_bare` and `normalize_two`. -/
namespace Interop.Text

theorem not_mem_of_forall {p : Char → Bool} {text : List Char} (each : ∀ c ∈ text, p c = true) {mark : Char}
    (other : p mark = false) : mark ∉ text := by
  intro member
  rw [each mark member] at other
  cases other

theorem splitAll_of_absent {isMark : Char → Bool} {text : List Char}
    (absent : ∀ c ∈ text, isMark c = false) : splitAll isMark text = [text] := by
  induction text with
  | nil => rfl
  | cons c rest ih =>
    obtain ⟨other, absent⟩ := List.forall_mem_cons.mp absent
    simp only [splitAll, other, ih absent]
    rfl

theorem splitAll_ne_nil (isMark : Char → Bool) (text : List Char) : splitAll isMark text ≠ [] := by
  cases text with
  | nil => exact List.cons_ne_nil _ _
  | cons c rest =>
    rw [splitAll]
    split
    · exact List.cons_ne_nil _ _
    · split <;> exact List.cons_ne_nil _ _

theorem splitAll_append {isMark : Char → Bool} {before : List Char} {mark : Char}
    (absent : ∀ c ∈ before, isMark c = false) (marks : isMark mark = true) (after : List Char) :
    splitAll isMark (before ++ mark :: after) = before :: splitAll isMark after := by
  induction before with
  | nil => simp [splitAll, marks]
  | cons c rest ih =>
    obtain ⟨other, absent⟩ := List.forall_mem_cons.mp absent
    simp only [List.cons_append, splitAll, other, ih absent]
    rfl

theorem splitOnce?_of_absent {mark : Char} {text : List Char} (absent : mark ∉ text) :
    splitOnce? mark text = none := by
  cases cut : splitOnce? mark text with
  | none => rfl
  | some parts =>
    obtain ⟨rfl, _⟩ := splitOnce?_eq_some cut
    exact absurd (List.mem_append_right _ List.mem_cons_self) absent

theorem stripStart?_append (start rest : List Char) : stripStart? start (start ++ rest) = some rest := by
  induction start with
  | nil => rfl
  | cons c start ih =>
    rw [List.cons_append, stripStart?, if_pos rfl]
    exact ih

theorem eq_append_of_stripStart? {start text rest : List Char} (stripped : stripStart? start text = some rest) :
    text = start ++ rest := by
  induction start generalizing text with
  | nil => exact Option.some.inj stripped
  | cons c start ih =>
    cases text with
    | nil => cases stripped
    | cons d text =>
      rw [stripStart?] at stripped
      split at stripped
      next same => rw [same, ih stripped, List.cons_append]
      next => cases stripped

/-! ## Lines -/

def unlines (closed : Bool) : List (List Char) → List Char
  | [] => []
  | [last] => if closed then last ++ ['\n'] else last
  | line :: next :: rest => line ++ '\n' :: unlines closed (next :: rest)

theorem isFeed_eq_false {line : List Char} (absent : '\n' ∉ line) : ∀ c ∈ line, (c == '\n') = false := by
  intro c member
  apply beq_false_of_ne
  intro same
  exact absent (same ▸ member)

private theorem splitAll_unlines {lines : List (List Char)} (closed : Bool) (each : ∀ line ∈ lines, '\n' ∉ line)
    (filled : lines ≠ []) :
    splitAll (· == '\n') (unlines closed lines) = lines ++ if closed then [[]] else [] := by
  induction lines with
  | nil => exact absurd rfl filled
  | cons line rest ih =>
    obtain ⟨first, others⟩ := List.forall_mem_cons.mp each
    have absent := isFeed_eq_false first
    cases rest with
    | nil =>
      cases closed with
      | false => exact splitAll_of_absent absent
      | true => exact splitAll_append absent rfl []
    | cons next rest =>
      rw [unlines, splitAll_append absent rfl, ih others (List.cons_ne_nil _ _), List.cons_append,
        List.cons_append, List.cons_append]

theorem length_le_unlines {lines : List (List Char)} {line : List Char} (member : line ∈ lines) (closed : Bool) :
    line.length ≤ (unlines closed lines).length := by
  induction lines with
  | nil => cases member
  | cons first rest ih =>
    cases rest with
    | nil =>
      rw [List.mem_singleton.mp member]
      cases closed <;> simp [unlines]
    | cons next rest =>
      rw [unlines, List.length_append, List.length_cons]
      rcases List.mem_cons.mp member with rfl | inside
      · omega
      · have below := ih inside
        omega

private theorem chompReturn_of_ne {line : List Char} (plain : line.getLast? ≠ some '\r') : chompReturn line = line := by
  unfold chompReturn
  split
  next same => exact absurd same plain
  next => rfl

/-- Lines are read back as they were, unless one is empty, holds a line feed, or ends in a carriage return. -/
theorem lines_unlines {lines : List (List Char)} (closed : Bool) (each : ∀ line ∈ lines, '\n' ∉ line)
    (filled : ∀ line ∈ lines, line ≠ []) (plain : ∀ line ∈ lines, line.getLast? ≠ some '\r') :
    Text.lines (unlines closed lines) = lines := by
  have chomped : lines.map chompReturn = lines := by
    refine (List.map_congr_left ?_).trans (List.map_id lines)
    intro line member
    exact chompReturn_of_ne (plain line member)
  cases lines with
  | nil => cases closed <;> rfl
  | cons line rest =>
    unfold Text.lines
    rw [splitAll_unlines closed each (List.cons_ne_nil _ _)]
    cases closed with
    | true => simp only [if_true, List.getLast?_concat, List.dropLast_concat, chomped]
    | false =>
      have last : (line :: rest).getLast? ≠ some [] := by
        intro empty
        exact filled [] (List.mem_of_getLast? empty) rfl
      simp only [Bool.false_eq_true, if_false, List.append_nil, if_neg last, chomped]

/-! ## Blanks -/

theorem isBlank_space : isBlank ' ' = true := rfl

structure Bare (text : List Char) : Prop where
  head : ∀ c, text.head? = some c → isBlank c = false
  last : ∀ c, text.getLast? = some c → isBlank c = false

theorem Bare.of_forall {text : List Char} (each : ∀ c ∈ text, isBlank c = false) : Bare text where
  head := fun c first => each c (List.mem_of_head? first)
  last := fun c final => each c (List.mem_of_getLast? final)

theorem Bare.of_ends {text : List Char}
    (ends : (text.head?.all (!isBlank ·) && text.getLast?.all (!isBlank ·)) = true) : Bare text := by
  obtain ⟨start, final⟩ := Bool.and_eq_true_iff.mp ends
  constructor
  · intro c first
    simpa [first] using start
  · intro c last
    simpa [last] using final

theorem Bare.join {first last : List Char} (start : Bare first) (filled : first ≠ []) (final : Bare last)
    (more : last ≠ []) (middle : List Char) : Bare (first ++ (middle ++ last)) where
  head := by
    obtain ⟨c, rest, rfl⟩ := List.exists_cons_of_ne_nil filled
    exact start.head
  last := by
    have same : (first ++ (middle ++ last)).getLast? = last.getLast? := by
      rw [List.getLast?_append, List.getLast?_append, List.getLast?_eq_some_getLast more]
      rfl
    rw [same]
    exact final.last

theorem dropWhile_of_head {text : List Char} (head : ∀ c, text.head? = some c → isBlank c = false) :
    text.dropWhile isBlank = text := by
  cases text with
  | nil => rfl
  | cons c rest => rw [List.dropWhile_cons_of_neg (by rw [head c rfl]; decide)]

theorem trim_of_bare {text : List Char} (bare : Bare text) : trim text = text := by
  unfold trim trimEnd trimStart
  rw [dropWhile_of_head bare.head, dropWhile_of_head, List.reverse_reverse]
  intro c last
  rw [List.head?_reverse] at last
  exact bare.last c last

theorem trim_cons_blank {c : Char} (blank : isBlank c = true) (text : List Char) : trim (c :: text) = trim text := by
  unfold trim trimStart
  rw [List.dropWhile_cons_of_pos blank]

theorem trimEnd_cons (c : Char) (text : List Char) :
    trimEnd (c :: text) = if trimEnd text = [] ∧ isBlank c = true then [] else c :: trimEnd text := by
  unfold trimEnd
  rw [List.reverse_cons, List.dropWhile_append]
  cases text.reverse.dropWhile isBlank with
  | nil => cases blank : isBlank c <;> simp [blank]
  | cons d rest => simp

theorem trimEnd_append {back : List Char} (left : trimEnd back ≠ []) (front : List Char) :
    trimEnd (front ++ back) = front ++ trimEnd back := by
  induction front with
  | nil => rfl
  | cons c rest ih =>
    have more : rest ++ trimEnd back ≠ [] := List.append_ne_nil_of_right_ne_nil rest left
    rw [List.cons_append, trimEnd_cons, ih, if_neg fun both => more both.1, List.cons_append]

theorem head?_of_trimEnd {c : Char} {text : List Char} (head : (trimEnd text).head? = some c) :
    text.head? = some c := by
  cases text with
  | nil => cases head
  | cons d rest =>
    rw [trimEnd_cons] at head
    split at head
    next => cases head
    next => exact head

private theorem isBlank_of_head?_dropWhile {text : List Char} {c : Char}
    (head : (text.dropWhile isBlank).head? = some c) :
    isBlank c = false := by
  have stops := List.head?_dropWhile_not isBlank text
  rw [head] at stops
  exact stops

theorem bare_trim (text : List Char) : Bare (trim text) where
  head _ head := isBlank_of_head?_dropWhile (head?_of_trimEnd head)
  last _ last := by
    rw [trim, trimEnd, List.getLast?_reverse] at last
    exact isBlank_of_head?_dropWhile last

theorem trim_of_blanks {front core back : List Char} (before : ∀ c ∈ front, isBlank c = true) (bare : Bare core)
    (behind : ∀ c ∈ back, isBlank c = true) : trim (front ++ (core ++ back)) = core := by
  rw [trim, trimStart, List.dropWhile_append_of_pos before]
  cases core with
  | nil =>
    have nothing : back.dropWhile isBlank = [] := List.dropWhile_eq_nil_iff.mpr behind
    rw [List.nil_append, nothing]
    rfl
  | cons c rest =>
    have reversed : ∀ c ∈ back.reverse, isBlank c = true := fun c member => behind c (List.mem_reverse.mp member)
    have head : ∀ d, (c :: rest ++ back).head? = some d → isBlank d = false := bare.head
    rw [dropWhile_of_head head, trimEnd, List.reverse_append, List.dropWhile_append_of_pos reversed,
      dropWhile_of_head, List.reverse_reverse]
    intro d last
    rw [List.head?_reverse] at last
    exact bare.last d last

theorem exists_trim (text : List Char) : ∃ front back, (∀ c ∈ front, isBlank c = true) ∧
    (∀ c ∈ back, isBlank c = true) ∧ text = front ++ (trim text ++ back) := by
  refine ⟨text.takeWhile isBlank, ((trimStart text).reverse.takeWhile isBlank).reverse, ?_, ?_, ?_⟩
  · exact fun c member => List.mem_takeWhile_imp member
  · exact fun c member => List.mem_takeWhile_imp (List.mem_reverse.mp member)
  · rw [trim, trimEnd, ← List.reverse_append, List.takeWhile_append_dropWhile, List.reverse_reverse, trimStart,
      List.takeWhile_append_dropWhile]

theorem mem_of_mem_trim {c : Char} {text : List Char} (member : c ∈ trim text) : c ∈ text := by
  obtain ⟨front, back, _, _, same⟩ := exists_trim text
  rw [same]
  exact List.mem_append_right _ (List.mem_append_left _ member)

theorem blanks_of_trim_eq_nil {text : List Char} (empty : trim text = []) : ∀ c ∈ text, isBlank c = true := by
  obtain ⟨front, back, first, last, same⟩ := exists_trim text
  rw [same, empty, List.nil_append]
  exact List.forall_mem_append.mpr ⟨first, last⟩

theorem trim_append_of_blank {back : List Char} (blanks : ∀ c ∈ back, isBlank c = true) (text : List Char) :
    trim (text ++ back) = trim text := by
  obtain ⟨before, behind, first, last, same⟩ := exists_trim text
  have whole := trim_of_blanks first (bare_trim text) (List.forall_mem_append.mpr ⟨last, blanks⟩)
  rwa [← List.append_assoc _ behind, ← List.append_assoc before, ← same] at whole

theorem trim_blank_append {front : List Char} (blanks : ∀ c ∈ front, isBlank c = true) (text : List Char) :
    trim (front ++ text) = trim text := by
  rw [trim, trimStart, List.dropWhile_append_of_pos blanks, trim, trimStart]

theorem map_trim_splitAll_cons {isMark : Char → Bool} {c : Char} (blank : isBlank c = true)
    (other : isMark c = false) (text : List Char) :
    (splitAll isMark (c :: text)).map trim = (splitAll isMark text).map trim := by
  rw [splitAll, other]
  cases pieces : splitAll isMark text with
  | nil => exact absurd pieces (splitAll_ne_nil isMark text)
  | cons piece pieces => simp [trim_cons_blank blank]

private theorem words_of_forall {word : List Char} (each : ∀ c ∈ word, isBlank c = false) (filled : word ≠ []) :
    words word = [word] := by
  induction word with
  | nil => exact absurd rfl filled
  | cons c rest ih =>
    obtain ⟨first, others⟩ := List.forall_mem_cons.mp each
    cases rest with
    | nil => simp [words, first]
    | cons d rest =>
      have second := others d List.mem_cons_self
      rw [words, ih others (List.cons_ne_nil _ _), first, second]
      rfl

private theorem words_append {word : List Char} (each : ∀ c ∈ word, isBlank c = false) (filled : word ≠ [])
    {space : Char} (blank : isBlank space = true) {rest : List Char} (more : rest ≠ []) :
    words (word ++ space :: rest) = word :: words rest := by
  obtain ⟨e, tail, rfl⟩ := List.exists_cons_of_ne_nil more
  induction word with
  | nil => exact absurd rfl filled
  | cons c word ih =>
    obtain ⟨first, others⟩ := List.forall_mem_cons.mp each
    cases word with
    | nil => simp [words, first, blank]
    | cons d word =>
      have second := others d List.mem_cons_self
      have inner := ih others (List.cons_ne_nil _ _)
      rw [List.cons_append] at inner
      rw [List.cons_append, List.cons_append, words, inner, first, second]
      rfl

theorem normalize_two {first second : List Char} (bare : ∀ c ∈ first, isBlank c = false) (start : first ≠ [])
    (other : ∀ c ∈ second, isBlank c = false) (final : second ≠ []) :
    normalize (first ++ ' ' :: second) = first ++ ' ' :: second := by
  rw [normalize, words_append bare start rfl final, words_of_forall other final]
  simp [List.intercalate]

end Interop.Text
