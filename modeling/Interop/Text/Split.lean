/-! Cutting a text at given characters: at the first one, at each one, and into lines. -/
namespace Interop.Text

def splitOnce? (mark : Char) : List Char → Option (List Char × List Char)
  | [] => none
  | c :: rest =>
    if c = mark then some ([], rest)
    else (splitOnce? mark rest).map fun (before, after) => (c :: before, after)

/-- The pieces between the characters that satisfy `isMark`; there is always at least one. -/
def splitAll (isMark : Char → Bool) : List Char → List (List Char)
  | [] => [[]]
  | c :: rest =>
    if isMark c then [] :: splitAll isMark rest
    else match splitAll isMark rest with
      | [] => [[c]]
      | piece :: pieces => (c :: piece) :: pieces

def stripStart? : (start : List Char) → (text : List Char) → Option (List Char)
  | [], text => some text
  | _ :: _, [] => none
  | a :: start, c :: text => if a = c then stripStart? start text else none

def chompReturn (line : List Char) : List Char :=
  match line.getLast? with
  | some '\r' => line.dropLast
  | _ => line

/-- Lines end at a line feed, and the last one need not. -/
def lines (text : List Char) : List (List Char) :=
  let pieces := splitAll (· == '\n') text
  let kept := if pieces.getLast? = some [] then pieces.dropLast else pieces
  kept.map chompReturn

theorem splitOnce?_eq_some {mark : Char} {text before after : List Char}
    (found : splitOnce? mark text = some (before, after)) :
    text = before ++ mark :: after ∧ mark ∉ before := by
  induction text generalizing before with
  | nil => simp [splitOnce?] at found
  | cons c rest ih =>
    simp only [splitOnce?] at found
    split at found
    · next same =>
      obtain ⟨rfl, rfl⟩ := by simpa using found
      simp [same]
    · next other =>
      obtain ⟨⟨head, tail⟩, inner, pair⟩ := Option.map_eq_some_iff.mp found
      obtain ⟨rfl, rfl⟩ := by simpa using pair
      obtain ⟨rfl, absent⟩ := ih inner
      simp [absent, Ne.symm other]

theorem splitOnce?_append {mark : Char} {before : List Char} (absent : mark ∉ before)
    (after : List Char) : splitOnce? mark (before ++ mark :: after) = some (before, after) := by
  induction before with
  | nil => simp [splitOnce?]
  | cons c rest ih =>
    obtain ⟨different, absent⟩ := by simpa using absent
    simp [splitOnce?, Ne.symm different, ih absent]

end Interop.Text
