import Interop.Toml.Quoted
import Interop.Toml.Scalar

/-! Whole TOML documents: keys, values, inline tables, and the tables that headers open.
A table is defined once, and only its own way of being defined may add to it. -/
namespace Interop.Toml

def isBlank (c : Char) : Bool := c == ' ' || c == '\t'

def skipBlanks (text : List Char) : List Char := text.dropWhile isBlank

mutual

def skipTrivia : List Char → Except Fault (List Char)
  | [] => .ok []
  | '\r' :: '\n' :: rest => skipTrivia rest
  | '#' :: rest => skipComment rest
  | c :: rest => if isBlank c || c == '\n' then skipTrivia rest else .ok (c :: rest)

def skipComment : List Char → Except Fault (List Char)
  | [] => .ok []
  | '\r' :: '\n' :: rest => skipTrivia rest
  | c :: rest =>
    if c == '\n' then skipTrivia rest
    else if isAllowed c then skipComment rest
    else .error .invalidCharacter

end

def endLine (text : List Char) : Except Fault (List Char) :=
  match skipBlanks text with
  | [] => .ok []
  | '\n' :: rest => skipTrivia rest
  | '\r' :: '\n' :: rest => skipTrivia rest
  | '#' :: rest => skipComment rest
  | _ => .error .textAfterValue

def isBareKey (c : Char) : Bool := c.isAlphanum || c == '_' || c == '-'

def toKey : Scanned → Except Fault (String × List Char)
  | .ok (content, rest) => .ok (String.ofList content, rest)
  | .error fault => .error fault

def parseKey : List Char → Except Fault (String × List Char)
  | '"' :: rest => toKey (basic rest)
  | '\'' :: rest => toKey (literal rest)
  | text =>
    let name := text.takeWhile isBareKey
    if name.isEmpty then .error .invalidKey
    else .ok (String.ofList name, text.dropWhile isBareKey)

/-- Keys with dots between them; `fuel` bounds their number. -/
def parsePath : (fuel : Nat) → List Char → Except Fault (List String × List Char)
  | 0, _ => .error .invalidKey
  | fuel + 1, text => do
    let (key, rest) ← parseKey (skipBlanks text)
    match skipBlanks rest with
    | '.' :: rest =>
      let (keys, rest) ← parsePath fuel rest
      .ok (key :: keys, rest)
    | rest => .ok ([key], rest)

/-- How deep arrays and inline tables nest, and how many parts a dotted key has. -/
def maxDepth : Nat := 80

def parseKeys (text : List Char) : Except Fault (List String × List Char) := do
  let (path, rest) ← parsePath text.length text
  if maxDepth < path.length then .error .tooDeep else .ok (path, rest)

/-- Adds a value under a dotted key; what the key passes through is a table of dotted keys. -/
def insert : (path : List String) → (item : Item) → Entries → Except Fault Entries
  | [], _, _ => .error .invalidKey
  | [key], item, entries =>
    match lookup? entries key with
    | none => .ok (put entries key item)
    | some _ => .error (.duplicateKey key)
  | key :: next :: rest, item, entries =>
    match lookup? entries key with
    | none => do
      let inner ← insert (next :: rest) item []
      .ok (put entries key (.table .dotted inner))
    | some (.table origin inner) =>
      if origin = .dotted ∨ (origin = .implicit ∧ rest ≠ []) then do
        let inner ← insert (next :: rest) item inner
        .ok (put entries key (.table origin inner))
      else .error (.duplicateKey key)
    | some (.tables tables) =>
      match tables.getLast? with
      | none => .error (.notATable key)
      | some last =>
        if rest = [] then .error (.duplicateKey key)
        else do
          let last ← insert (next :: rest) item last
          .ok (put entries key (.tables (tables.dropLast ++ [last])))
    | some _ => .error (.notATable key)

/-- Changes the table that a header path leads to; `finish` gets its last key and the table that holds it. -/
def atHeader (finish : String → Entries → Except Fault Entries) :
    (path : List String) → Entries → Except Fault Entries
  | [], _ => .error .invalidHeader
  | [key], entries => finish key entries
  | key :: next :: rest, entries =>
    match lookup? entries key with
    | none => do
      let inner ← atHeader finish (next :: rest) []
      .ok (put entries key (.table .implicit inner))
    | some (.table origin inner) =>
      if origin = .inline then .error (.notATable key)
      else do
        let inner ← atHeader finish (next :: rest) inner
        .ok (put entries key (.table origin inner))
    | some (.tables tables) =>
      match tables.getLast? with
      | none => .error (.notATable key)
      | some last => do
        let last ← atHeader finish (next :: rest) last
        .ok (put entries key (.tables (tables.dropLast ++ [last])))
    | some _ => .error (.notATable key)

/-- Opens a table, which may so far have been on the way to others only. -/
def openTable (path : List String) (entries : Entries) : Except Fault Entries :=
  atHeader (fun key holder =>
    match lookup? holder key with
    | none => .ok (put holder key (.table .header []))
    | some (.table .implicit inner) => .ok (put holder key (.table .header inner))
    | some _ => .error (.duplicateKey key)) path entries

def openElement (path : List String) (entries : Entries) : Except Fault Entries :=
  atHeader (fun key holder =>
    match lookup? holder key with
    | none => .ok (put holder key (.tables [[]]))
    | some (.tables tables) => .ok (put holder key (.tables (tables ++ [[]])))
    | some _ => .error (.duplicateKey key)) path entries

def insertUnder (header : List String) (path : List String) (item : Item) (entries : Entries) :
    Except Fault Entries :=
  if header = [] then insert path item entries
  else atHeader (fun key holder =>
    match lookup? holder key with
    | some (.table origin inner) => do
      let inner ← insert path item inner
      .ok (put holder key (.table origin inner))
    | some (.tables tables) =>
      match tables.getLast? with
      | none => .error (.notATable key)
      | some last => do
        let last ← insert path item last
        .ok (put holder key (.tables (tables.dropLast ++ [last])))
    | _ => .error (.notATable key)) header entries

/-- A scalar ends at a blank, a line break, a comment, or a mark that orders values. -/
def isScalarChar (c : Char) : Bool :=
  let marks := ['=', ',', '[', ']', '{', '}', '#', '\r', '\n']
  !isBlank c && !marks.contains c

/-- A run of the characters of a scalar, or a date and a time with one space between them. -/
def parseScalar (text : List Char) : Except Fault (Item × List Char) :=
  let run := text.takeWhile isScalarChar
  let rest := text.dropWhile isScalarChar
  let (run, rest) := match rest with
    | ' ' :: c :: more =>
      if isDate run ∧ Reading.isDigit c then
        (run ++ ' ' :: (c :: more).takeWhile isScalarChar, (c :: more).dropWhile isScalarChar)
      else (run, rest)
    | _ => (run, rest)
  match scalar? run with
  | some item => .ok (item, rest)
  | none => .error .invalidValue

def toItem : Scanned → Except Fault (Item × List Char)
  | .ok (content, rest) => .ok (.string (String.ofList content), rest)
  | .error fault => .error fault

mutual

/-- One value that nests at most `depth` deep; `fuel` bounds how far it goes on. -/
def parseValue : (fuel depth : Nat) → List Char → Except Fault (Item × List Char)
  | 0, _, _ => .error .invalidValue
  | fuel + 1, depth, text =>
    match text with
    | '"' :: '"' :: '"' :: rest => toItem (longBasic (dropFirstBreak rest))
    | '"' :: rest => toItem (basic rest)
    | '\'' :: '\'' :: '\'' :: rest => toItem (longLiteral (dropFirstBreak rest))
    | '\'' :: rest => toItem (literal rest)
    | '[' :: rest => if depth = 0 then .error .tooDeep else parseArray fuel (depth - 1) [] rest
    | '{' :: rest => if depth = 0 then .error .tooDeep else parseInline fuel (depth - 1) [] rest
    | _ => parseScalar text

/-- The rest of an array, whose last item may be followed by a comma. -/
def parseArray : (fuel depth : Nat) → (items : List Item) → List Char → Except Fault (Item × List Char)
  | 0, _, _, _ => .error .unterminatedArray
  | fuel + 1, depth, items, text => do
    match ← skipTrivia text with
    | ']' :: rest => .ok (.array items, rest)
    | text =>
      let (item, rest) ← parseValue fuel depth text
      match ← skipTrivia rest with
      | ',' :: rest => parseArray fuel depth (items ++ [item]) rest
      | ']' :: rest => .ok (.array (items ++ [item]), rest)
      | _ => .error .unterminatedArray

/-- The rest of an inline table, whose last entry may be followed by a comma; its lines may break beside every mark. -/
def parseInline : (fuel depth : Nat) → (entries : Entries) → List Char → Except Fault (Item × List Char)
  | 0, _, _, _ => .error .unterminatedTable
  | fuel + 1, depth, entries, text => do
    match ← skipTrivia text with
    | '}' :: rest => .ok (.table .inline entries, rest)
    | text =>
      let (path, rest) ← parseKeys text
      match ← skipTrivia rest with
      | '=' :: rest =>
        let (item, rest) ← parseValue fuel depth (← skipTrivia rest)
        let entries ← insert path item entries
        match ← skipTrivia rest with
        | ',' :: rest => parseInline fuel depth entries rest
        | '}' :: rest => .ok (.table .inline entries, rest)
        | _ => .error .unterminatedTable
      | _ => .error .missingEquals

end

structure Progress where
  entries : Entries
  header : List String

def parseStep (progress : Progress) (text : List Char) : Except Fault (Progress × List Char) := do
  match text with
  | '[' :: '[' :: rest =>
    let (path, rest) ← parseKeys rest
    match rest with
    | ']' :: ']' :: rest =>
      let entries ← openElement path progress.entries
      .ok (⟨entries, path⟩, ← endLine rest)
    | _ => .error .invalidHeader
  | '[' :: rest =>
    let (path, rest) ← parseKeys rest
    match rest with
    | ']' :: rest =>
      let entries ← openTable path progress.entries
      .ok (⟨entries, path⟩, ← endLine rest)
    | _ => .error .invalidHeader
  | _ =>
    let (path, rest) ← parseKeys text
    match rest with
    | '=' :: rest =>
      let (item, rest) ← parseValue rest.length maxDepth (skipBlanks rest)
      let entries ← insertUnder progress.header path item progress.entries
      .ok (⟨entries, progress.header⟩, ← endLine rest)
    | _ => .error .missingEquals

/-- Steps until the text is used up; `fuel` bounds their number. -/
def parseSteps : (fuel : Nat) → Progress → List Char → Except Fault Progress
  | 0, progress, [] => .ok progress
  | 0, _, _ :: _ => .error .invalidValue
  | fuel + 1, progress, text =>
    match text with
    | [] => .ok progress
    | _ => do
      let (progress, rest) ← parseStep progress text
      parseSteps fuel progress rest

def dropMark : List Char → List Char
  | '\uFEFF' :: rest => rest
  | text => text

def parse (text : List Char) : Except Fault Entries := do
  let text ← skipTrivia (dropMark text)
  let progress ← parseSteps text.length ⟨[], []⟩ text
  .ok progress.entries

end Interop.Toml
