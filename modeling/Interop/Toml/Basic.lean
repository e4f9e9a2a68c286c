/-! The values of a TOML document, and why a text is not one.
A table remembers how it came about, because that decides what may still be added to it. -/
namespace Interop.Toml

inductive Origin where
  /-- By a header of its own. -/
  | header
  /-- On the way to a table with a header. -/
  | implicit
  /-- On the way of a dotted key. -/
  | dotted
  /-- Between braces, which nothing can be added to. -/
  | inline
deriving DecidableEq, Repr

inductive Item where
  | string (value : String)
  /-- There is no value if the text has other characters than digits; whoever needs the value refuses it. -/
  | integer (value : Option Int)
  /-- Only whether it is too large matters of a floating-point number. -/
  | float (overflows : Bool)
  | boolean (value : Bool)
  | dateTime
  | array (items : List Item)
  | tables (items : List (List (String × Item)))
  | table (origin : Origin) (entries : List (String × Item))

abbrev Entries := List (String × Item)

inductive Fault where
  | invalidCharacter
  | invalidKey
  | missingEquals
  | invalidValue
  | unterminatedString
  | invalidEscape
  | unterminatedArray
  | unterminatedTable
  | invalidHeader
  | textAfterValue
  | duplicateKey (key : String)
  | notATable (key : String)
  /-- A value that is not of the type that its key asks for. -/
  | wrongType (key : String)
  | missingKey (key : String)
  | numberOverflow
  | tooDeep
deriving DecidableEq, Repr

def Fault.message : Fault → String
  | invalidCharacter => "invalid character"
  | invalidKey => "invalid key"
  | missingEquals => "expected an equals sign"
  | invalidValue => "invalid value"
  | unterminatedString => "unterminated string"
  | invalidEscape => "invalid escape sequence"
  | unterminatedArray => "unterminated array"
  | unterminatedTable => "unterminated inline table"
  | invalidHeader => "invalid table header"
  | textAfterValue => "unexpected text after a value"
  | duplicateKey key => s!"duplicate key {key}"
  | notATable key => s!"{key} is not a table"
  | wrongType key => s!"wrong type of value for {key}"
  | missingKey key => s!"missing key {key}"
  | numberOverflow => "number out of range"
  | tooDeep => "arrays and tables nested too deep"

def lookup? (entries : Entries) (key : String) : Option Item :=
  (entries.find? fun entry => entry.1 == key).map (·.2)

def put (entries : Entries) (key : String) (item : Item) : Entries :=
  if entries.any fun entry => entry.1 == key then
    entries.map fun entry => if entry.1 == key then (key, item) else entry
  else entries ++ [(key, item)]

end Interop.Toml
