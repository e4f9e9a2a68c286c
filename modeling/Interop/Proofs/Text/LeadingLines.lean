import Interop.Proofs.Text.Cutting

/-! A text taken apart line by line, and the text that its first lines make up.
Main statements: `byLines`, an induction over the lines of a text, and `lines_firstLines`. -/
namespace Interop.Text

/-- A text is its last line, or a line with a text behind its line feed. -/
theorem byLines {motive : List Char → Prop} (last : ∀ line, '\n' ∉ line → motive line)
    (more : ∀ line rest, '\n' ∉ line → motive rest → motive (line ++ '\n' :: rest)) (text : List Char) :
    motive text := by
  cases cut : splitOnce? '\n' text with
  | none =>
    apply last
    intro member
    obtain ⟨line, rest, same, absent⟩ := List.eq_append_cons_of_mem member
    rw [same, splitOnce?_append absent] at cut
    cases cut
  | some parts =>
    obtain ⟨line, rest⟩ := parts
    obtain ⟨same, absent⟩ := splitOnce?_eq_some cut
    rw [same]
    exact more line rest absent (byLines last more rest)
termination_by text.length
decreasing_by
  rw [same, List.length_append, List.length_cons]
  omega

theorem lines_of_absent {line : List Char} (absent : '\n' ∉ line) :
    lines line = if line = [] then [] else [chompReturn line] := by
  rw [lines, splitAll_of_absent (isFeed_eq_false absent)]
  by_cases empty : line = [] <;> simp [empty]

theorem lines_append {line : List Char} (absent : '\n' ∉ line) (rest : List Char) :
    lines (line ++ '\n' :: rest) = chompReturn line :: lines rest := by
  obtain ⟨piece, pieces, behind⟩ := List.exists_cons_of_ne_nil (splitAll_ne_nil (· == '\n') rest)
  simp only [lines, splitAll_append (isFeed_eq_false absent) (beq_self_eq_true '\n') rest, behind,
    List.getLast?_cons_cons, List.dropLast_cons_cons]
  split <;> rw [List.map_cons]

private theorem length_chompReturn_le (line : List Char) : (chompReturn line).length ≤ line.length := by
  unfold chompReturn
  split
  · rw [List.length_dropLast]
    exact Nat.sub_le _ _
  · exact Nat.le_refl _

/-- What lines take up in a text, with a character behind each. -/
def weight : List (List Char) → Nat
  | [] => 0
  | line :: rest => line.length + 1 + weight rest

theorem weight_lines_le (text : List Char) : weight (lines text) ≤ text.length + 1 := by
  induction text using byLines with
  | last line absent =>
    have chomped := length_chompReturn_le line
    rw [lines_of_absent absent]
    split <;> simp [weight, chomped]
  | more line rest absent ih =>
    have chomped := length_chompReturn_le line
    rw [lines_append absent, weight, List.length_append, List.length_cons]
    omega

def firstLines : Nat → List Char → List Char
  | 0, _ => []
  | _ + 1, [] => []
  | count + 1, c :: rest => c :: if c = '\n' then firstLines count rest else firstLines (count + 1) rest

private theorem firstLines_of_absent {line : List Char} (absent : '\n' ∉ line) (count : Nat) :
    firstLines (count + 1) line = line := by
  induction line with
  | nil => rfl
  | cons c rest ih =>
    obtain ⟨other, absent⟩ := by simpa using absent
    rw [firstLines, if_neg (Ne.symm other), ih absent]

private theorem firstLines_append {line : List Char} (absent : '\n' ∉ line) (count : Nat) (rest : List Char) :
    firstLines (count + 1) (line ++ '\n' :: rest) = line ++ '\n' :: firstLines count rest := by
  induction line with
  | nil => rfl
  | cons c line ih =>
    obtain ⟨other, absent⟩ := by simpa using absent
    rw [List.cons_append, firstLines, if_neg (Ne.symm other), ih absent, List.cons_append]

theorem lines_firstLines (count : Nat) (text : List Char) :
    lines (firstLines count text) = (lines text).take count := by
  induction text using byLines generalizing count with
  | last line absent =>
    cases count with
    | zero => simp [firstLines, lines, splitAll]
    | succ count =>
      rw [firstLines_of_absent absent, List.take_of_length_le]
      rw [lines_of_absent absent]
      split <;> simp
  | more line rest absent ih =>
    cases count with
    | zero => simp [firstLines, lines, splitAll]
    | succ count => rw [firstLines_append absent, lines_append absent, lines_append absent, ih, List.take_succ_cons]

end Interop.Text
