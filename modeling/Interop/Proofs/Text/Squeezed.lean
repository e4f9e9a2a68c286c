import Interop.Proofs.Text.Cutting

/-! Texts up to the length and the kind of the blanks in them.
`squeeze` is the common form; whatever cuts a text at characters that are not blank commutes with it. -/
namespace Interop.Text

/-- Puts a character in front of a squeezed text: one space for any number of blanks. -/
def push (c : Char) (text : List Char) : List Char :=
  if isBlank c then (if text.head? = some ' ' then text else ' ' :: text) else c :: text

def squeeze (text : List Char) : List Char := text.foldr push []

@[simp] theorem squeeze_nil : squeeze [] = [] := rfl

@[simp] theorem squeeze_cons (c : Char) (text : List Char) : squeeze (c :: text) = push c (squeeze text) :=
  List.foldr_cons

/-! ## One character in front -/

section Push

variable {c : Char} {text : List Char}

private theorem push_of_not_blank (solid : isBlank c = false) (text : List Char) : push c text = c :: text := by
  rw [push, if_neg (by rw [solid]; decide)]

private theorem head?_push_of_blank (blank : isBlank c = true) (text : List Char) : (push c text).head? = some ' ' := by
  rw [push, if_pos blank]
  split
  next starts => exact starts
  next => rfl

private theorem push_of_head? (blank : isBlank c = true) (starts : text.head? = some ' ') : push c text = text := by
  rw [push, if_pos blank, if_pos starts]

private theorem push_space (blank : isBlank c = true) (rest : List Char) : push c (' ' :: rest) = ' ' :: rest :=
  push_of_head? blank rfl

theorem push_of_head?_ne (blank : isBlank c = true) (starts : text.head? ≠ some ' ') : push c text = ' ' :: text := by
  rw [push, if_pos blank, if_neg starts]

private theorem push_congr {d : Char} (blank : isBlank c = true) (also : isBlank d = true) (text : List Char) :
    push c text = push d text := by
  simp only [push, blank, also, if_true]

private theorem push_push {d : Char} (blank : isBlank c = true) (also : isBlank d = true) (text : List Char) :
    push c (push d text) = push d text :=
  push_of_head? blank (head?_push_of_blank also text)

theorem exists_push (c : Char) (text : List Char) : ∃ d rest, push c text = d :: rest ∧ isBlank d = isBlank c := by
  cases blank : isBlank c with
  | false => exact ⟨c, text, push_of_not_blank blank text, blank⟩
  | true =>
    obtain ⟨rest, same⟩ := List.head?_eq_some_iff.mp (head?_push_of_blank blank text)
    exact ⟨' ', rest, same, isBlank_space⟩

private theorem push_ne_nil (c : Char) (text : List Char) : push c text ≠ [] := by
  obtain ⟨d, rest, same, _⟩ := exists_push c text
  rw [same]
  exact List.cons_ne_nil d rest

private theorem push_append (c : Char) (filled : text ≠ []) (back : List Char) :
    push c (text ++ back) = push c text ++ back := by
  have same : (text ++ back).head? = text.head? := by
    obtain ⟨d, rest, rfl⟩ := List.exists_cons_of_ne_nil filled
    rfl
  simp only [push, same]
  split
  · split <;> rfl
  · rfl

end Push

/-! ## Texts side by side -/

private theorem squeeze_append (front back : List Char) : squeeze (front ++ back) = front.foldr push (squeeze back) :=
  List.foldr_append

theorem foldr_push_squeeze (front back : List Char) : (squeeze front).foldr push back = front.foldr push back := by
  induction front with
  | nil => rfl
  | cons c rest ih =>
    rw [squeeze_cons, List.foldr_cons, ← ih]
    cases solid : isBlank c with
    | false => rw [push_of_not_blank solid, List.foldr_cons]
    | true =>
      by_cases starts : (squeeze rest).head? = some ' '
      · obtain ⟨more, same⟩ := List.head?_eq_some_iff.mp starts
        rw [push_of_head? solid starts, same, List.foldr_cons, push_push solid isBlank_space]
      · rw [push_of_head?_ne solid starts, List.foldr_cons, push_congr isBlank_space solid]

@[simp] theorem squeeze_squeeze (text : List Char) : squeeze (squeeze text) = squeeze text :=
  foldr_push_squeeze text []

theorem squeeze_append_congr {front other back last : List Char} (first : squeeze front = squeeze other)
    (second : squeeze back = squeeze last) : squeeze (front ++ back) = squeeze (other ++ last) := by
  rw [squeeze_append, squeeze_append, second, ← foldr_push_squeeze, first, foldr_push_squeeze]

theorem squeeze_blanks_append {run : List Char} (blanks : ∀ c ∈ run, isBlank c = true) (filled : run ≠ [])
    (back : List Char) : squeeze (run ++ back) = push ' ' (squeeze back) := by
  induction run with
  | nil => exact absurd rfl filled
  | cons c rest ih =>
    obtain ⟨blank, others⟩ := List.forall_mem_cons.mp blanks
    rw [List.cons_append, squeeze_cons]
    cases rest with
    | nil => rw [List.nil_append, push_congr blank isBlank_space]
    | cons d rest => rw [ih others (List.cons_ne_nil _ _), push_push blank isBlank_space]

theorem squeeze_append_of_last {front : List Char} (last : ∀ c, front.getLast? = some c → isBlank c = false)
    (back : List Char) : squeeze (front ++ back) = squeeze front ++ squeeze back := by
  induction front with
  | nil => rfl
  | cons c rest ih =>
    rw [List.cons_append, squeeze_cons, squeeze_cons]
    cases rest with
    | nil =>
      have solid := last c rfl
      rw [List.nil_append, push_of_not_blank solid, push_of_not_blank solid]
      rfl
    | cons d rest =>
      rw [ih (fun e final => last e (by rwa [List.getLast?_cons_cons]))]
      exact push_append c (push_ne_nil d _) (squeeze back)

/-! ## What is in a text -/

theorem squeeze_eq_nil_iff {text : List Char} : squeeze text = [] ↔ text = [] := by
  cases text with
  | nil => simp
  | cons c rest => simp [push_ne_nil]

private theorem mem_push_iff {c d : Char} (solid : isBlank d = false) {text : List Char} :
    d ∈ push c text ↔ d = c ∨ d ∈ text := by
  have other : ∀ e, isBlank e = true → d ≠ e := by
    rintro e blank rfl
    rw [blank] at solid
    cases solid
  cases blank : isBlank c with
  | false => rw [push_of_not_blank blank, List.mem_cons]
  | true =>
    simp only [push, blank, if_true, other c blank, false_or]
    split <;> simp [other ' ' isBlank_space]

theorem mem_squeeze_iff {d : Char} (solid : isBlank d = false) {text : List Char} : d ∈ squeeze text ↔ d ∈ text := by
  induction text with
  | nil => rfl
  | cons c rest ih => rw [squeeze_cons, mem_push_iff solid, ih, List.mem_cons]

theorem contains_squeeze {d : Char} (solid : isBlank d = false) (text : List Char) :
    (squeeze text).contains d = text.contains d := by
  rw [Bool.eq_iff_iff, List.contains_iff_mem, List.contains_iff_mem, mem_squeeze_iff solid]

private theorem ne_space {c : Char} (solid : isBlank c = false) : c ≠ ' ' := by
  rintro rfl
  cases solid

theorem head?_squeeze_ne {text : List Char} (head : ∀ c, text.head? = some c → isBlank c = false) :
    (squeeze text).head? ≠ some ' ' := by
  cases text with
  | nil => exact nofun
  | cons c rest =>
    have solid := head c rfl
    rw [squeeze_cons, push_of_not_blank solid, List.head?_cons]
    exact fun same => ne_space solid (Option.some.inj same)

theorem space_mem_squeeze {c : Char} {text : List Char} (member : c ∈ text) (blank : isBlank c = true) :
    ' ' ∈ squeeze text := by
  induction text with
  | nil => cases member
  | cons d rest ih =>
    rw [squeeze_cons]
    rcases List.mem_cons.mp member with rfl | inside
    · exact List.mem_of_head? (head?_push_of_blank blank _)
    · cases kind : isBlank d with
      | true => exact List.mem_of_head? (head?_push_of_blank kind _)
      | false =>
        rw [push_of_not_blank kind]
        exact List.mem_cons_of_mem d (ih inside)

theorem solid_of_all {text : List Char} (all : text.all (!isBlank ·) = true) : ∀ c ∈ text, isBlank c = false := by
  simpa using all

theorem squeeze_of_forall {text : List Char} (solid : ∀ c ∈ text, isBlank c = false) : squeeze text = text := by
  induction text with
  | nil => rfl
  | cons c rest ih =>
    obtain ⟨first, others⟩ := List.forall_mem_cons.mp solid
    rw [squeeze_cons, ih others, push_of_not_blank first]

theorem squeeze_eq_iff {text other : List Char} (solid : ∀ c ∈ other, isBlank c = false) :
    squeeze text = other ↔ text = other := by
  constructor
  · rintro rfl
    refine (squeeze_of_forall fun c member => ?_).symm
    cases blank : isBlank c with
    | false => rfl
    | true => exact absurd rfl (ne_space (solid ' ' (space_mem_squeeze member blank)))
  · rintro rfl
    exact squeeze_of_forall solid

/-! ## Cuts -/

private theorem splitOnce?_push {mark c : Char} (solid : isBlank mark = false) (other : c ≠ mark) (text : List Char) :
    splitOnce? mark (push c text) = (splitOnce? mark text).map fun (before, after) => (push c before, after) := by
  have space := (ne_space solid).symm
  cases blank : isBlank c with
  | false =>
    rw [push_of_not_blank blank, splitOnce?, if_neg other]
    simp only [push_of_not_blank blank]
  | true =>
    by_cases starts : text.head? = some ' '
    · obtain ⟨more, rfl⟩ := List.head?_eq_some_iff.mp starts
      rw [push_of_head? blank starts, splitOnce?, if_neg space, Option.map_map]
      refine Option.map_congr fun parts _ => ?_
      simp only [Function.comp_apply, push_space blank]
    · rw [push_of_head?_ne blank starts, splitOnce?, if_neg space]
      refine Option.map_congr fun parts cut => ?_
      obtain ⟨before, after⟩ := parts
      -- What was cut off begins as the text does, with no space.
      have begins : before.head? ≠ some ' ' := by
        intro head
        obtain ⟨rest, rfl⟩ := List.head?_eq_some_iff.mp head
        rw [(splitOnce?_eq_some cut).1] at starts
        exact starts rfl
      simp only [push_of_head?_ne blank begins]

theorem splitOnce?_squeeze {mark : Char} (solid : isBlank mark = false) (text : List Char) :
    splitOnce? mark (squeeze text) =
      (splitOnce? mark text).map fun (before, after) => (squeeze before, squeeze after) := by
  induction text with
  | nil => rfl
  | cons c rest ih =>
    rw [squeeze_cons]
    by_cases same : c = mark
    · subst same
      rw [push_of_not_blank solid, splitOnce?, splitOnce?, if_pos rfl, if_pos rfl]
      rfl
    · rw [splitOnce?_push solid same, ih, splitOnce?, if_neg same, Option.map_map, Option.map_map]
      rfl

private theorem splitAll_cons_of_not {isMark : Char → Bool} {c : Char} (other : isMark c = false) (text : List Char) :
    splitAll isMark (c :: text) = (splitAll isMark text).modifyHead (c :: ·) := by
  rw [splitAll, other]
  cases pieces : splitAll isMark text with
  | nil => exact absurd pieces (splitAll_ne_nil isMark text)
  | cons piece rest => rfl

private theorem head?_of_splitAll {isMark : Char → Bool} {text piece : List Char} {pieces : List (List Char)}
    (cut : splitAll isMark text = piece :: pieces) {c : Char} (head : piece.head? = some c) : text.head? = some c := by
  cases text with
  | nil =>
    cases cut
    cases head
  | cons d rest =>
    cases marks : isMark d with
    | true =>
      rw [splitAll, marks] at cut
      cases cut
      cases head
    | false =>
      rw [splitAll_cons_of_not marks] at cut
      obtain ⟨first, others, inner⟩ := List.exists_cons_of_ne_nil (splitAll_ne_nil isMark rest)
      rw [inner] at cut
      cases cut
      exact head

private theorem splitAll_push {isMark : Char → Bool} (solid : ∀ c, isMark c = true → isBlank c = false) {c : Char}
    (other : isMark c = false) (text : List Char) :
    splitAll isMark (push c text) = (splitAll isMark text).modifyHead (push c) := by
  have space : isMark ' ' = false := by
    cases marks : isMark ' ' with
    | false => rfl
    | true => exact absurd rfl (ne_space (solid ' ' marks))
  cases blank : isBlank c with
  | false =>
    have same : push c = (c :: ·) := funext (push_of_not_blank blank)
    rw [same, splitAll_cons_of_not other]
  | true =>
    obtain ⟨piece, pieces, cut⟩ := List.exists_cons_of_ne_nil (splitAll_ne_nil isMark text)
    by_cases starts : text.head? = some ' '
    · obtain ⟨more, rfl⟩ := List.head?_eq_some_iff.mp starts
      rw [push_space blank, splitAll_cons_of_not space]
      cases splitAll isMark more with
      | nil => rfl
      | cons piece pieces => simp only [List.modifyHead_cons, push_space blank]
    · have begins : piece.head? ≠ some ' ' := fun head => starts (head?_of_splitAll cut head)
      rw [push_of_head?_ne blank starts, splitAll_cons_of_not space, cut, List.modifyHead_cons, List.modifyHead_cons,
        push_of_head?_ne blank begins]

theorem splitAll_squeeze {isMark : Char → Bool} (solid : ∀ c, isMark c = true → isBlank c = false) (text : List Char) :
    splitAll isMark (squeeze text) = (splitAll isMark text).map squeeze := by
  induction text with
  | nil => rfl
  | cons c rest ih =>
    rw [squeeze_cons]
    cases marks : isMark c with
    | true =>
      rw [push_of_not_blank (solid c marks), splitAll, splitAll, marks, if_pos rfl, if_pos rfl, ih]
      rfl
    | false =>
      rw [splitAll_push solid marks, ih, splitAll_cons_of_not marks]
      cases splitAll isMark rest <;> rfl

theorem stripStart?_squeeze {start : List Char} (solid : ∀ c ∈ start, isBlank c = false) (text : List Char) :
    stripStart? start (squeeze text) = (stripStart? start text).map squeeze := by
  induction start generalizing text with
  | nil => rfl
  | cons a start ih =>
    obtain ⟨first, others⟩ := List.forall_mem_cons.mp solid
    cases text with
    | nil => rfl
    | cons c rest =>
      rw [squeeze_cons, stripStart?]
      by_cases same : a = c
      · subst same
        rw [push_of_not_blank first, stripStart?, if_pos rfl, if_pos rfl, ih others]
      · rw [if_neg same]
        obtain ⟨d, more, pushed, kind⟩ := exists_push c (squeeze rest)
        have different : a ≠ d := by
          rintro rfl
          rw [kind] at first
          rw [push_of_not_blank first] at pushed
          exact same (List.cons.inj pushed).1.symm
        rw [pushed, stripStart?, if_neg different]
        rfl

/-! ## Ends -/

private theorem dropWhile_push {c : Char} (blank : isBlank c = true) (text : List Char) :
    (push c text).dropWhile isBlank = text.dropWhile isBlank := by
  by_cases starts : text.head? = some ' '
  · rw [push_of_head? blank starts]
  · rw [push_of_head?_ne blank starts, List.dropWhile_cons_of_pos isBlank_space]

theorem trimStart_squeeze (text : List Char) : trimStart (squeeze text) = squeeze (trimStart text) := by
  unfold trimStart
  induction text with
  | nil => rfl
  | cons c rest ih =>
    rw [squeeze_cons]
    cases blank : isBlank c with
    | true => rw [dropWhile_push blank, ih, List.dropWhile_cons_of_pos blank]
    | false =>
      have solid : ¬ isBlank c = true := by rw [blank]; decide
      rw [push_of_not_blank blank, List.dropWhile_cons_of_neg solid, List.dropWhile_cons_of_neg solid, squeeze_cons,
        push_of_not_blank blank]

private theorem trimEnd_push (c : Char) (text : List Char) :
    trimEnd (push c text) = if trimEnd text = [] ∧ isBlank c = true then [] else push c (trimEnd text) := by
  cases blank : isBlank c with
  | false => simp [push_of_not_blank blank, trimEnd_cons, blank]
  | true =>
    by_cases starts : text.head? = some ' '
    · obtain ⟨more, rfl⟩ := List.head?_eq_some_iff.mp starts
      rw [push_space blank]
      by_cases empty : trimEnd (' ' :: more) = []
      · simp [empty]
      · rw [if_neg (by simp [empty])]
        rw [trimEnd_cons] at empty ⊢
        split at empty
        next => exact absurd rfl empty
        next kept => rw [if_neg kept, push_space blank]
    · have begins : (trimEnd text).head? ≠ some ' ' := fun head => starts (head?_of_trimEnd head)
      rw [push_of_head?_ne blank starts, trimEnd_cons, push_of_head?_ne blank begins]
      simp [isBlank_space]

theorem trimEnd_squeeze (text : List Char) : trimEnd (squeeze text) = squeeze (trimEnd text) := by
  induction text with
  | nil => rfl
  | cons c rest ih =>
    rw [squeeze_cons, trimEnd_push, ih, trimEnd_cons]
    simp only [squeeze_eq_nil_iff]
    split <;> rfl

theorem trim_squeeze (text : List Char) : trim (squeeze text) = squeeze (trim text) := by
  rw [trim, trimStart_squeeze, trimEnd_squeeze, trim]

/-! ## Words -/

private theorem words_cons_of_blank {c : Char} (blank : isBlank c = true) (text : List Char) :
    words (c :: text) = words text := by
  cases text <;> simp [words, blank]

private theorem words_push_of_blank {c : Char} (blank : isBlank c = true) (text : List Char) :
    words (push c text) = words text := by
  by_cases starts : text.head? = some ' '
  · rw [push_of_head? blank starts]
  · rw [push_of_head?_ne blank starts, words_cons_of_blank isBlank_space]

theorem words_squeeze (text : List Char) : words (squeeze text) = words text := by
  induction text with
  | nil => rfl
  | cons c rest ih =>
    rw [squeeze_cons]
    cases blank : isBlank c with
    | true => rw [words_push_of_blank blank, ih, words_cons_of_blank blank]
    | false =>
      rw [push_of_not_blank blank]
      cases rest with
      | nil => rfl
      | cons d more =>
        -- Whether a word ends here depends on the kind of the next character, which stays the same.
        obtain ⟨e, last, pushed, kind⟩ := exists_push d (squeeze more)
        rw [squeeze_cons, pushed] at ih ⊢
        rw [words, words, ih, kind]

theorem normalize_squeeze (text : List Char) : normalize (squeeze text) = normalize text := by
  rw [normalize, words_squeeze, normalize]

end Interop.Text
