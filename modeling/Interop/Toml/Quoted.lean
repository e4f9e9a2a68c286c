import Interop.Text.Hex
import Interop.Toml.Basic

/-! Strings of TOML: with or without escapes, on one line or over several. -/
namespace Interop.Toml

/-- Control characters other than the tab stand in no string and no comment. -/
def isAllowed (c : Char) : Bool := c == '\t' || (0x20 ≤ c.toNat && c.toNat != 0x7F)

def escapedChar? : Char → Option Char
  | 'b' => some '\x08'
  | 't' => some '\t'
  | 'n' => some '\n'
  | 'f' => some '\x0c'
  | 'r' => some '\r'
  | 'e' => some '\x1b'
  | '"' => some '"'
  | '\\' => some '\\'
  | _ => none

def codeLength : Char → Nat
  | 'x' => 2
  | 'u' => 4
  | 'U' => 8
  | _ => 0

def charOfDigits? (count : Nat) (text : List Char) : Option Char := do
  let digits := text.take count
  let code ← Hex.number? digits
  if digits.length = count ∧ 0 < count ∧ code.isValidChar then some (Char.ofNat code) else none

def escape? : List Char → Option (Char × List Char)
  | [] => none
  | letter :: rest =>
    match escapedChar? letter with
    | some c => some (c, rest)
    | none => (charOfDigits? (codeLength letter) rest).map fun c => (c, rest.drop (codeLength letter))

theorem escape?_shorter {text rest : List Char} {c : Char} (found : escape? text = some (c, rest)) :
    rest.length < text.length := by
  cases text with
  | nil => simp [escape?] at found
  | cons letter tail =>
    simp only [escape?] at found
    split at found
    · obtain ⟨_, rfl⟩ := by simpa using found
      simp
    · obtain ⟨_, _, pair⟩ := Option.map_eq_some_iff.mp found
      obtain ⟨_, rfl⟩ := by simpa using pair
      simp only [List.length_drop, List.length_cons]
      omega

abbrev Scanned := Except Fault (List Char × List Char)

def prepend (c : Char) : Scanned → Scanned
  | .ok (content, rest) => .ok (c :: content, rest)
  | .error fault => .error fault

def literal : List Char → Scanned
  | [] => .error .unterminatedString
  | '\'' :: rest => .ok ([], rest)
  | c :: rest => if isAllowed c then prepend c (literal rest) else .error .invalidCharacter

def basic : List Char → Scanned
  | [] => .error .unterminatedString
  | '"' :: rest => .ok ([], rest)
  | '\\' :: rest =>
    match _found : escape? rest with
    | some (c, after) => prepend c (basic after)
    | none => .error .invalidEscape
  | c :: rest => if isAllowed c then prepend c (basic rest) else .error .invalidCharacter
termination_by text => text.length
decreasing_by
  · have := escape?_shorter _found
    simp only [List.length_cons]
    omega
  · simp

/-- The line break that may follow the opening quotes is dropped. -/
def dropFirstBreak : List Char → List Char
  | '\n' :: rest => rest
  | '\r' :: '\n' :: rest => rest
  | text => text

/-- The rest of a string in three single quotes, which may end in up to two more. -/
def longLiteral : List Char → Scanned
  | '\'' :: '\'' :: '\'' :: '\'' :: '\'' :: rest => .ok (['\'', '\''], rest)
  | '\'' :: '\'' :: '\'' :: '\'' :: rest => .ok (['\''], rest)
  | '\'' :: '\'' :: '\'' :: rest => .ok ([], rest)
  | '\r' :: '\n' :: rest => prepend '\n' (longLiteral rest)
  | c :: rest =>
    if isAllowed c ∨ c = '\n' then prepend c (longLiteral rest) else .error .invalidCharacter
  | [] => .error .unterminatedString

def dropBreaks : List Char → List Char
  | '\r' :: '\n' :: rest => dropBreaks rest
  | c :: rest => if c = ' ' ∨ c = '\t' ∨ c = '\n' then dropBreaks rest else c :: rest
  | [] => []

/-- After a backslash at the end of a line, the text from the next character that is not blank;
none if there is more on the line. -/
def continueLine? (text : List Char) : Option (List Char) :=
  match text.dropWhile fun c => c == ' ' || c == '\t' with
  | '\n' :: rest | '\r' :: '\n' :: rest => some (dropBreaks rest)
  | _ => none

theorem length_dropBreaks_le (text : List Char) : (dropBreaks text).length ≤ text.length := by
  fun_induction dropBreaks text <;> simp_all <;> omega

theorem continueLine?_shorter {text rest : List Char} (found : continueLine? text = some rest) :
    rest.length < text.length := by
  have outer := (List.dropWhile_suffix (l := text) fun c => c == ' ' || c == '\t').length_le
  unfold continueLine? at found
  split at found
  · next inner same =>
    obtain rfl := by simpa using found
    have := length_dropBreaks_le inner
    rw [same, List.length_cons] at outer
    omega
  · next inner same =>
    obtain rfl := by simpa using found
    have := length_dropBreaks_le inner
    rw [same, List.length_cons, List.length_cons] at outer
    omega
  · simp at found

def longBasic : List Char → Scanned
  | '"' :: '"' :: '"' :: '"' :: '"' :: rest => .ok (['"', '"'], rest)
  | '"' :: '"' :: '"' :: '"' :: rest => .ok (['"'], rest)
  | '"' :: '"' :: '"' :: rest => .ok ([], rest)
  | '\\' :: rest =>
    match _found : escape? rest with
    | some (c, after) => prepend c (longBasic after)
    | none =>
      match _continued : continueLine? rest with
      | some after => longBasic after
      | none => .error .invalidEscape
  | '\r' :: '\n' :: rest => prepend '\n' (longBasic rest)
  | c :: rest =>
    if isAllowed c ∨ c = '\n' then prepend c (longBasic rest) else .error .invalidCharacter
  | [] => .error .unterminatedString
termination_by text => text.length
decreasing_by
  · have := escape?_shorter _found
    simp only [List.length_cons]
    omega
  · have := continueLine?_shorter _continued
    simp only [List.length_cons]
    omega
  · simp only [List.length_cons]
    omega
  · simp

end Interop.Toml
