import Interop.Number.Reading
import Interop.Toml.Basic

/-! Numbers, truth values and dates of TOML, each read from one run of characters.
An integer is recognized by how it begins; whether all of it are digits decides only whether it has a value. -/
namespace Interop.Toml

/-- The text without its underscores, each of which stands between digits; `afterDigit` says what came before. -/
def ungroupFrom? (isDigit : Char → Bool) : (afterDigit : Bool) → List Char → Option (List Char)
  | _, [] => some []
  | _, ['_'] => none
  | afterDigit, '_' :: c :: rest =>
    if afterDigit && isDigit c then (ungroupFrom? isDigit true rest).map (c :: ·) else none
  | _, c :: rest => (ungroupFrom? isDigit (isDigit c) rest).map (c :: ·)

/-- A text without its underscores, none of which comes first. -/
def ungroup? (isDigit : Char → Bool) (text : List Char) : Option (List Char) := ungroupFrom? isDigit false text

def isDigitOf (radix : Nat) (c : Char) : Bool := (Hex.value? c).any (· < radix)

def wholeNumber? (radix : Nat) (text : List Char) : Option Nat :=
  if text.isEmpty || !text.all (isDigitOf radix) then none
  else some (text.foldl (fun total c => total * radix + (Hex.value? c).getD 0) 0)

def radixInteger? (radix : Nat) (text : List Char) : Option Item :=
  if text.all fun c => c == '_' || isDigitOf radix c then
    (ungroup? (isDigitOf 16) text).map fun digits => .integer ((wholeNumber? radix digits).map Int.ofNat)
  else none

def splitSign : List Char → Bool × List Char
  | '-' :: rest => (true, rest)
  | '+' :: rest => (false, rest)
  | text => (false, text)

/-- A decimal integer, in which an underscore may also stand beside a hexadecimal digit. -/
def decimalInteger? (negative : Bool) (body : List Char) : Option Item :=
  match body with
  | '0' :: _ :: _ => none
  | _ => (ungroup? (isDigitOf 16) body).map fun digits =>
    .integer ((wholeNumber? 10 digits).map fun size => if negative then -Int.ofNat size else Int.ofNat size)

/-- Digits and underscores, at least one digit among them, and the text after them. -/
def digitRun? (text : List Char) : Option (List Char × List Char) :=
  let isPart := fun c => Reading.isDigit c || c == '_'
  let run := text.takeWhile isPart
  if run.any Reading.isDigit then some (run, text.dropWhile isPart) else none

/-- A number with a fraction, an exponent, or both; no zero leads other digits. -/
def decimalFloat? (body : List Char) : Option Item := do
  let (whole, rest) ← digitRun? body
  if whole.head? = some '0' ∧ 1 < whole.countP Reading.isDigit then none
  let rest ← match rest with
    | '.' :: rest => (digitRun? rest).map (·.2)
    | rest => some rest
  let rest ← match rest with
    | 'e' :: rest | 'E' :: rest => (digitRun? (splitSign rest).2).map (·.2)
    | rest => some rest
  if rest ≠ [] then none
  let number ← Reading.decimal? (← ungroup? Reading.isDigit body)
  some (.float (number.round .double false == BinaryFormat.double.infinityBits))

def numberOf? (text : List Char) (count : Nat) : Option Nat :=
  if text.length = count ∧ text.all Reading.isDigit then some (Reading.digitsValue text) else none

def daysIn (year month : Nat) : Nat :=
  if month = 2 then
    if (year % 4 = 0 ∧ year % 100 ≠ 0) ∨ year % 400 = 0 then 29 else 28
  else if month = 4 ∨ month = 6 ∨ month = 9 ∨ month = 11 then 30
  else 31

def isDate (text : List Char) : Bool :=
  match numberOf? (text.take 4) 4, numberOf? ((text.drop 5).take 2) 2, numberOf? (text.drop 8) 2 with
  | some year, some month, some day =>
    text[4]? == some '-' && text[7]? == some '-' && decide (1 ≤ month ∧ month ≤ 12)
      && decide (1 ≤ day ∧ day ≤ daysIn year month)
  | _, _, _ => false

def isHourMinute (text : List Char) : Bool :=
  match numberOf? (text.take 2) 2, numberOf? (text.drop 3) 2 with
  | some hour, some minute => text[2]? == some ':' && decide (hour ≤ 23 ∧ minute ≤ 59)
  | _, _ => false

/-- Seconds with an optional fraction, after a colon; they may be left out as a whole. -/
def isSeconds : List Char → Bool
  | [] => true
  | ':' :: rest =>
    let whole := rest.takeWhile (· != '.')
    match numberOf? whole 2, rest.dropWhile (· != '.') with
    | some second, [] => decide (second ≤ 60)
    | some second, _ :: fraction => decide (second ≤ 60) && !fraction.isEmpty && fraction.all Reading.isDigit
    | none, _ => false
  | _ => false

def isTime (text : List Char) : Bool := isHourMinute (text.take 5) && isSeconds (text.drop 5)

def isOffsetTime (text : List Char) : Bool :=
  let isMark := fun c : Char => c == 'Z' || c == 'z' || c == '+' || c == '-'
  let time := text.takeWhile fun c => !isMark c
  isTime time && match text.dropWhile fun c => !isMark c with
    | [] => true
    | ['Z'] | ['z'] => true
    | mark :: offset => (mark == '+' || mark == '-') && isHourMinute offset

def isDateTime (text : List Char) : Bool :=
  isTime text || isDate text || (isDate (text.take 10) && match text.drop 10 with
    | mark :: time => (mark == 'T' || mark == 't' || mark == ' ') && isOffsetTime time
    | [] => false)

/-- A number or a date, which what follows the first digits tells apart. -/
def numeric? (text : List Char) : Option Item :=
  let (negative, body) := splitSign text
  let isFloatMark := fun c : Char => c == '.' || c == 'e' || c == 'E'
  match body.dropWhile Reading.isDigit with
  | '-' :: _ | ':' :: _ => if isDateTime text then some .dateTime else none
  | [] => if body.isEmpty then none else decimalInteger? negative body
  | c :: rest =>
    if (c :: rest).any isFloatMark then decimalFloat? body
    else if c = '_' then decimalInteger? negative body
    else none

def scalar? (text : List Char) : Option Item :=
  match String.ofList text with
  | "true" => some (.boolean true)
  | "false" => some (.boolean false)
  | "inf" | "+inf" | "-inf" | "nan" | "+nan" | "-nan" => some (.float false)
  | _ =>
    match text with
    | '0' :: 'x' :: rest => radixInteger? 16 rest
    | '0' :: 'o' :: rest => radixInteger? 8 rest
    | '0' :: 'b' :: rest => radixInteger? 2 rest
    | _ => numeric? text

end Interop.Toml
