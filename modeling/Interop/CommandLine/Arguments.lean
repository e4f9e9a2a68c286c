import Interop.Number.Reading
import Interop.Text.Split

/-! The arguments of the command line: one command with its operands, and options between them.
An option takes the next argument or what follows its equals sign, and stands at most once on each side of the
command's name. -/
namespace Interop.CommandLine

inductive Command where
  | platform
  | layout (declarations : String) (struct : Option String) (widths : Option (Nat × Nat))
  | call (library declarations symbol : String) (args : List String)
deriving DecidableEq, Repr

structure Invocation where
  config : Option String
  command : Command
deriving DecidableEq, Repr

inductive Refusal where
  | help
  | unknownCommand
  | unknownOption (option : String)
  | missingValue (option : String)
  | invalidValue (option value : String)
  | repeatedOption (option : String)
  | missingOperand
  | surplusOperand (operand : String)
  | requiresOther (option : String)
deriving DecidableEq, Repr

inductive Token where
  /-- Two dashes, after which nothing is an option. -/
  | separator
  | long (name : String) (value : Option String)
  | short (text : String)
  | operand (text : String)
deriving DecidableEq, Repr

def tokenOf (arg : String) : Token :=
  match arg.toList with
  | ['-', '-'] => .separator
  | '-' :: '-' :: rest =>
    match Text.splitOnce? '=' rest with
    | some (name, value) => .long (String.ofList name) (some (String.ofList value))
    | none => .long (String.ofList rest) none
  | '-' :: _ :: _ => .short arg
  | _ => .operand arg

/-- Digits with at most one point and one exponent, neither of them in front. -/
def isNumberFrom : (first seenPoint seenExponent : Bool) → List Char → Bool
  | _, _, _, [] => true
  | first, seenPoint, seenExponent, c :: rest =>
    if Reading.isDigit c then isNumberFrom false seenPoint seenExponent rest
    else if c = '.' then !seenPoint && !seenExponent && !first && isNumberFrom false true seenExponent rest
    else if c = 'e' ∨ c = 'E' then
      !seenExponent && !first && !rest.isEmpty && isNumberFrom false seenPoint true rest
    else false

/-- A dash and a number, which is an operand where numbers are expected. -/
def isNegativeNumber (arg : String) : Bool :=
  match arg.toList with
  | '-' :: rest => isNumberFrom true false false rest
  | _ => false

structure Given where
  operands : List String
  options : List (String × String)

def Given.option? (given : Given) (name : String) : Option String :=
  (given.options.find? fun option => option.1 == name).map (·.2)

/-- How a command reads its arguments: the options it knows, how many operands it takes, which of them is a path, and
from which operand on negative numbers are operands. -/
structure Grammar where
  options : List String
  maximum : Option Nat
  path : Option Nat
  numbersFrom : Option Nat
  accepts : (option value : String) → Bool

def Grammar.takesNumber (grammar : Grammar) (given : Given) (arg : String) : Bool :=
  match grammar.numbersFrom with
  | some first => decide (first ≤ given.operands.length) && isNegativeNumber arg
  | none => false

def Grammar.addOption (grammar : Grammar) (given : Given) (name value : String) : Except Refusal Given :=
  if (given.option? name).isSome then .error (.repeatedOption name)
  else if grammar.accepts name value then
    .ok { given with options := given.options ++ [(name, value)] }
  else .error (.invalidValue name value)

/-- A path is refused where it stands, and not only once all arguments are read. -/
def Grammar.addOperand (grammar : Grammar) (given : Given) (text : String) : Except Refusal Given :=
  let index := given.operands.length
  if grammar.maximum.any (· ≤ index) then .error (.surplusOperand text)
  else if grammar.path = some index ∧ text = "" then .error (.invalidValue "declarations" text)
  else .ok { given with operands := given.operands ++ [text] }

def Grammar.read (grammar : Grammar) (given : Given) : List String → Except Refusal Given
  | [] => .ok given
  | arg :: rest =>
    match tokenOf arg with
    | .separator => rest.foldlM grammar.addOperand given
    | .operand text => do grammar.read (← grammar.addOperand given text) rest
    | .short text =>
      if grammar.takesNumber given text then do grammar.read (← grammar.addOperand given text) rest
      else if text.startsWith "-h" then .error .help
      else .error (.unknownOption text)
    | .long "help" none => .error .help
    | .long name (some value) =>
      if grammar.options.contains name then do grammar.read (← grammar.addOption given name value) rest
      else .error (.unknownOption name)
    | .long name none =>
      if grammar.options.contains name then
        match rest with
        | [] => .error (.missingValue name)
        | value :: rest =>
          match tokenOf value with
          | .operand value => do grammar.read (← grammar.addOption given name value) rest
          | .short text =>
            if grammar.takesNumber given text then do
              grammar.read (← grammar.addOption given name text) rest
            else .error (.missingValue name)
          | .separator | .long _ _ => .error (.missingValue name)
      else .error (.unknownOption name)

def width? (text : String) : Option Nat := (Reading.unsigned 10 (2 ^ 64 - 1) text.toList).toOption

/-- Paths are not empty, and widths are words. -/
def accepts (option value : String) : Bool :=
  match option with
  | "config" => value ≠ ""
  | "pointer-width" | "long-width" => (width? value).isSome
  | _ => true

def platformGrammar : Grammar := ⟨["config"], some 0, none, none, accepts⟩

def layoutGrammar : Grammar :=
  ⟨["config", "struct", "pointer-width", "long-width"], some 1, some 0, none, accepts⟩

def callGrammar : Grammar := ⟨["config"], none, some 1, some 3, accepts⟩

def layoutCommand (given : Given) : Except Refusal Command := do
  let [declarations] := given.operands | .error .missingOperand
  let width := fun name => (given.option? name).bind width?
  match width "pointer-width", width "long-width" with
  | some pointer, some long => .ok (.layout declarations (given.option? "struct") (some (pointer, long)))
  | none, none => .ok (.layout declarations (given.option? "struct") none)
  | some _, none => .error (.requiresOther "pointer-width")
  | none, some _ => .error (.requiresOther "long-width")

def callCommand (given : Given) : Except Refusal Command := do
  let library :: declarations :: symbol :: args := given.operands | .error .missingOperand
  .ok (.call library declarations symbol args)

def commandOf? : String → Option (Grammar × (Given → Except Refusal Command))
  | "platform" => some (platformGrammar, fun _ => .ok .platform)
  | "layout" => some (layoutGrammar, layoutCommand)
  | "call" => some (callGrammar, callCommand)
  | _ => none

/-- The command after its name; a settings file named there comes before one named earlier. -/
def readCommand (config : Option String) (name : String) (rest : List String) :
    Except Refusal Invocation := do
  let some (grammar, command) := commandOf? name | .error .unknownCommand
  let given ← grammar.read ⟨[], []⟩ rest
  .ok ⟨(given.option? "config").or config, ← command given⟩

/-- Help is given on all commands or on one of them, and no command has commands of its own. -/
def isHelpTopic : List String → Bool
  | [] => true
  | [name] => ["platform", "layout", "call", "help"].contains name
  | _ => false

def readArguments (config : Option String) : List String → Except Refusal Invocation
  | [] => .error .unknownCommand
  | arg :: rest =>
    match tokenOf arg with
    | .operand "help" => .error (if isHelpTopic rest then .help else .unknownCommand)
    | .operand name => readCommand config name rest
    | .separator => .error .unknownCommand
    | .short text => .error (if text.startsWith "-h" then .help else .unknownOption text)
    | .long "help" none => .error .help
    | .long "config" (some value) => do
      readArguments (← setConfig config value) rest
    | .long "config" none =>
      match rest with
      | value :: rest =>
        match tokenOf value with
        | .operand value => do readArguments (← setConfig config value) rest
        | _ => .error (.missingValue "config")
      | [] => .error (.missingValue "config")
    | .long name _ => .error (.unknownOption name)
where
  setConfig (config : Option String) (value : String) : Except Refusal (Option String) :=
    if config.isSome then .error (.repeatedOption "config")
    else if accepts "config" value then .ok (some value)
    else .error (.invalidValue "config" value)

def Invocation.ofArguments (args : List String) : Except Refusal Invocation := readArguments none args

def Invocation.paths (invocation : Invocation) : List String :=
  invocation.config.toList ++ match invocation.command with
    | .platform => []
    | .layout declarations _ _ => [declarations]
    | .call _ declarations _ _ => [declarations]

end Interop.CommandLine
